import Mathlib.Data.Nat.Size
import Mathlib.Algebra.Group.Int
import Mathlib.Data.Int.ModEq

/-!
# Field elements, pointers and the values memory holds

The value layer every other file reads: Go's machine integers as the runner uses them,
the field element `Felt`, the pointer `Relocatable`, the tagged cell value
`MaybeRelocatable` with the subtraction the hints call, and `VmError`, the errors the
modelled code returns.

Go's `uint` is a `Nat` here. The code adds offsets and lengths that stay far below 2^64
on every modelled path, and those additions are plain; where it subtracts `uint`s or
converts one to `int`, the result depends on the 64-bit wraparound, and the model wraps
explicitly (`uintSub`, `toGoInt`). `NextPowOf2` of utils, which is not in the repository's
files, is here with them.

The field arithmetic is lambdaworks', which is not in the repository's files: `Felt` and
its operations follow the spec's description of it (§3), with the prime it names.
-/

namespace CairoVm

/-! ## Go integers -/

/-- Go's `int(x)` on a 64-bit platform: the low 64 bits of `x` read in two's complement.
It models both the conversion of a `uint` and the wraparound of `int` arithmetic. -/
def toGoInt (x : Int) : Int := (x + 2 ^ 63) % 2 ^ 64 - 2 ^ 63

/-- Go's `a - b` on `uint`s: the difference modulo 2^64. -/
def uintSub (a b : Nat) : Nat := (((a : Int) - b) % 2 ^ 64).toNat

/-- Go's `a + b` on `uint`s. -/
def uintAdd (a b : Nat) : Nat := (a + b) % 2 ^ 64

/-- Go's `a * b` on `uint`s. -/
def uintMul (a b : Nat) : Nat := a * b % 2 ^ 64

/-- Go's `uint(x)` of an `int`. -/
def toUint (x : Int) : Nat := (x % 2 ^ 64).toNat

theorem toGoInt_of_bounds {x : Int} (h1 : -2 ^ 63 ≤ x) (h2 : x < 2 ^ 63) : toGoInt x = x := by
  unfold toGoInt; omega

theorem toGoInt_of_lt {x : Nat} (h : x < 2 ^ 63) : toGoInt x = x :=
  toGoInt_of_bounds (by omega) (by exact_mod_cast h)

theorem toGoInt_neg_of_ge {x : Nat} (h1 : 2 ^ 63 ≤ x) (h2 : x < 2 ^ 64) : toGoInt x < 0 := by
  unfold toGoInt; omega

theorem uintSub_of_le {a b : Nat} (h : b ≤ a) (ha : a < 2 ^ 64) : uintSub a b = a - b := by
  unfold uintSub; omega

/-- A `uint` count read as an `int` and counted down to 0: itself below 2^63, nothing above. -/
theorem toNat_toGoInt {x : Nat} (h : x < 2 ^ 64) :
    (toGoInt x).toNat = if x < 2 ^ 63 then x else 0 := by
  split
  · rw [toGoInt_of_lt ‹_›]; rfl
  · exact Int.toNat_eq_zero.mpr (Int.le_of_lt (toGoInt_neg_of_ge (by omega) h))

/-! ## The next power of two -/

/-- Modelled from the spec: `utils.NextPowOf2`, the least power of two at least `n`, found by
doubling from 1 (`n` doublings are enough). -/
def nextPowOf2 (n : Nat) : Nat := go n 1
where
  go : Nat → Nat → Nat
    | 0, p => p
    | fuel + 1, p => if n ≤ p then p else go fuel (2 * p)

theorem nextPowOf2_go_pow (n : Nat) (fuel j : Nat) : ∃ k, nextPowOf2.go n fuel (2 ^ j) = 2 ^ k := by
  induction fuel generalizing j with
  | zero => exact ⟨j, rfl⟩
  | succ fuel ih =>
    rw [nextPowOf2.go]
    split
    · exact ⟨j, rfl⟩
    · rw [← Nat.pow_succ']
      exact ih (j + 1)

theorem exists_nextPowOf2_eq (n : Nat) : ∃ k, nextPowOf2 n = 2 ^ k := nextPowOf2_go_pow n n 0

theorem le_nextPowOf2_go (n : Nat) (fuel p : Nat) (h : n ≤ p * 2 ^ fuel) :
    n ≤ nextPowOf2.go n fuel p := by
  induction fuel generalizing p with
  | zero => simpa using h
  | succ fuel ih =>
    rw [nextPowOf2.go]
    split
    · assumption
    · refine ih (2 * p) ?_
      calc n ≤ p * 2 ^ (fuel + 1) := h
        _ = 2 * p * 2 ^ fuel := by
          rw [Nat.pow_succ, Nat.mul_comm (2 ^ fuel) 2, ← Nat.mul_assoc, Nat.mul_comm p 2]

theorem le_nextPowOf2 (n : Nat) : n ≤ nextPowOf2 n :=
  le_nextPowOf2_go n n 1 (by simpa using Nat.le_of_lt (Nat.lt_two_pow n))

theorem nextPowOf2_go_le {n k : Nat} (hn : n ≤ 2 ^ k) (fuel j : Nat) (hj : j ≤ k) :
    nextPowOf2.go n fuel (2 ^ j) ≤ 2 ^ k := by
  induction fuel generalizing j with
  | zero => exact Nat.pow_le_pow_right (by decide) hj
  | succ fuel ih =>
    rw [nextPowOf2.go]
    split
    · exact Nat.pow_le_pow_right (by decide) hj
    · have hjk : j < k := by
        by_contra hkj
        have := Nat.pow_le_pow_right (show 0 < 2 by decide) (Nat.le_of_not_lt hkj)
        omega
      rw [← Nat.pow_succ']
      exact ih (j + 1) hjk

/-- `NextPowOf2` is the least power of two at least `n`. -/
theorem nextPowOf2_le {n k : Nat} (hn : n ≤ 2 ^ k) : nextPowOf2 n ≤ 2 ^ k :=
  nextPowOf2_go_le hn n 0 (Nat.zero_le _)

theorem nextPowOf2_zero : nextPowOf2 0 = 1 := rfl

/-! ## Field elements -/

/-- The prime of Cairo's field, `2^251 + 17 * 2^192 + 1`. -/
def PRIME : Nat := 2 ^ 251 + 17 * 2 ^ 192 + 1

theorem prime_pos : 0 < PRIME := by decide

theorem two_pow_64_lt_prime : 2 ^ 64 < PRIME := by decide

/-- Modelled from the spec: lambdaworks' `Felt` is not in the repository's files. A field
element is its representative in `[0, PRIME)`. -/
@[ext]
structure Felt where
  val : Nat
  isLt : val < PRIME
  deriving DecidableEq

namespace Felt

/-- Modelled from the spec: `FeltFromUint64`, and reading any natural number modulo the
prime. -/
def ofNat (n : Nat) : Felt := ⟨n % PRIME, Nat.mod_lt _ prime_pos⟩

/-- Modelled from the spec: field subtraction. -/
def sub (a b : Felt) : Felt := ofNat (a.val + (PRIME - b.val))

/-- Modelled from the spec: `IsZero`. -/
def isZero (a : Felt) : Bool := a.val == 0

/-- Modelled from the spec: `Bits`, the bit length of the representative (`0` for zero). -/
def bits (a : Felt) : Nat := Nat.size a.val

/-- Modelled from the spec: `ToSigned`, which maps the values in `(P/2, P)` to the negative
integers of equal absolute value and keeps the others. -/
def toSigned (a : Felt) : Int := if PRIME / 2 < a.val then (a.val : Int) - PRIME else a.val

/-- Modelled from the spec: `ToU64`, which fails on a value that does not fit 64 bits. -/
def toU64 (a : Felt) : Option Nat := if a.val < 2 ^ 64 then some a.val else none

/-- Modelled from the spec: an integer modulo the prime. -/
def ofInt (x : Int) : Felt :=
  ⟨(x % PRIME).toNat, by
    have h0 := Int.emod_nonneg x (b := PRIME) (by decide)
    have h1 := Int.emod_lt_of_pos x (b := PRIME) (by decide)
    omega⟩

/-- Modelled from the spec: field addition. -/
def add (a b : Felt) : Felt := ofNat (a.val + b.val)

/-- Modelled from the spec: field multiplication. -/
def mul (a b : Felt) : Felt := ofNat (a.val * b.val)

/-- Modelled from the spec: the modular inverse, by the extended Euclidean algorithm. It is
an inverse of every value coprime to the prime (`mul_inv_of_coprime`); the code never
inverts zero. -/
def inv (a : Felt) : Felt := ofInt (Nat.gcdA a.val PRIME)

/-- Modelled from the spec: field division, `a` times the inverse of `b`. -/
def div (a b : Felt) : Felt := a.mul b.inv

theorem val_ofNat_of_lt {n : Nat} (h : n < PRIME) : (ofNat n).val = n := Nat.mod_eq_of_lt h

theorem toSigned_of_le_half {a : Felt} (h : a.val ≤ PRIME / 2) : a.toSigned = a.val :=
  if_neg (Nat.not_lt.mpr h)

theorem isZero_ofNat_of_lt {n : Nat} (h : n < PRIME) : (ofNat n).isZero = (n == 0) := by
  rw [isZero, val_ofNat_of_lt h]

theorem sub_isZero_iff (a b : Felt) : (a.sub b).isZero ↔ a = b := by
  have ha := a.isLt
  have hb := b.isLt
  simp only [sub, isZero, ofNat, beq_iff_eq, Felt.ext_iff]
  unfold PRIME at *
  omega

theorem sub_add_cancel (a b : Felt) : (a.sub b).add b = a := by
  have ha := a.isLt
  have hb := b.isLt
  ext
  simp only [sub, add, ofNat]
  unfold PRIME at *
  omega

theorem add_sub_cancel' (a b : Felt) : a.add (b.sub a) = b := by
  have ha := a.isLt
  have hb := b.isLt
  ext
  simp only [sub, add, ofNat]
  unfold PRIME at *
  omega

theorem mul_comm (a b : Felt) : a.mul b = b.mul a := by
  simp only [mul, Nat.mul_comm]

/-- Division undoes multiplication by every value coprime to the prime, by Bézout. -/
theorem mul_inv_of_coprime (a b : Felt) (h : Nat.Coprime b.val PRIME) : (a.div b).mul b = a := by
  have hbez := Nat.gcd_eq_gcd_ab b.val PRIME
  rw [h.gcd_eq_one] at hbez
  have ha := a.isLt
  have hP : (PRIME : Int) ≠ 0 := by decide
  ext
  simp only [div, mul, inv, ofNat, ofInt]
  apply Int.ofNat.inj
  rw [Int.ofNat_eq_coe, Int.ofNat_eq_coe, Int.natCast_mod, Int.natCast_mul, Int.natCast_mod,
    Int.natCast_mul, Int.toNat_of_nonneg (Int.emod_nonneg _ hP)]
  have h1 : Int.ModEq PRIME ((a.val : Int) * (Nat.gcdA b.val PRIME % PRIME) % PRIME * b.val)
      (a.val * (b.val * Nat.gcdA b.val PRIME)) := by
    have := ((Int.mod_modEq ((a.val : Int) * (Nat.gcdA b.val PRIME % PRIME)) PRIME).trans
      ((Int.mod_modEq (Nat.gcdA b.val PRIME) PRIME).mul_left (a.val : Int))).mul_right (b.val : Int)
    rwa [Int.mul_assoc, Int.mul_comm (Nat.gcdA b.val PRIME : Int)] at this
  have h2 : Int.ModEq PRIME ((a.val : Int) * (b.val * Nat.gcdA b.val PRIME)) a.val := by
    rw [Int.modEq_iff_dvd, show (b.val : Int) * Nat.gcdA b.val PRIME =
      1 - PRIME * Nat.gcdB b.val PRIME by omega, Int.mul_sub, Int.mul_one, Int.sub_sub_self]
    exact Dvd.dvd.mul_left (Int.dvd_mul_right _ _) _
  rw [h1.trans h2, Int.emod_eq_of_lt (by omega) (by omega)]

@[simp] theorem ofNat_val (a : Felt) : Felt.ofNat a.val = a := Felt.ext (Nat.mod_eq_of_lt a.isLt)

theorem toU64_ofNat {n : Nat} (h : n < 2 ^ 64) : (ofNat n).toU64 = some n := by
  have := two_pow_64_lt_prime
  rw [toU64, val_ofNat_of_lt (by omega), if_pos h]

theorem toU64_eq_some {a : Felt} {o : Nat} : a.toU64 = some o → a = ofNat o ∧ o < 2 ^ 64 := by
  unfold toU64
  split
  · rintro ⟨⟩
    exact ⟨(ofNat_val a).symm, ‹_›⟩
  · rintro ⟨⟩

end Felt

/-! ## Pointers and cells -/

/-- A pointer into segmented memory: `(SegmentIndex, Offset)`, the index an `int` and the
offset a `uint`. -/
structure Relocatable where
  segmentIndex : Int
  offset : Nat
  deriving DecidableEq, Repr

/-- A memory cell's value, a felt or a pointer (`MaybeRelocatable` holds one of the two in
its `inner any`). -/
inductive MaybeRelocatable where
  | felt (f : Felt)
  | relocatable (r : Relocatable)
  deriving DecidableEq

/-- The errors the modelled code returns, one constructor for each message it builds. A Go
runtime panic (an index out of range) is the error it aborts the run with. -/
inductive VmError where
  /-- "Error: Inserting into a non allocated segment" -/
  | unallocatedSegment (addr : Relocatable)
  /-- "Memory is write-once, cannot overwrite memory value" -/
  | inconsistentMemory (addr : Relocatable) (prev new : MaybeRelocatable)
  /-- "Memory Get: Value not found" -/
  | valueNotFound (addr : Relocatable)
  /-- The error of `GetFelt` on a cell that holds a pointer. -/
  | expectedFelt (addr : Relocatable)
  /-- The error of `GetRelocatable` on a cell that holds a felt. -/
  | expectedRelocatable (addr : Relocatable)
  /-- "Cant subtract two relocatables with different segment indexes" -/
  | relocatableSubDiffIndex
  /-- "Relocatable subtraction yields relocatable with negative offset" -/
  | relocatableSubNegOffset
  /-- "Cant sub Relocatable from Felt" -/
  | subRelocatableFromFelt
  /-- `ConversionError(felt, "u64")` -/
  | feltToU64 (f : Felt)
  /-- "NotFeltElement": a range-checked cell holds a pointer. -/
  | notFeltElement
  /-- "RangeCheckNumOutOfBounds": a range-checked felt has too many bits. -/
  | rangeCheckNumOutOfBounds
  /-- An identifier a hint names has no reference. -/
  | unknownIdentifier (name : String)
  /-- "Assertion failed, 0 <= ids.a % PRIME < range_check_builtin.bound ... is out of range" -/
  | assertNnOutOfRange (a : Felt)
  /-- "Assertion Failed: abs(val) < rc_bound, value=... is out of the  valid range" -/
  | isPositiveOutOfRange (value : Int)
  /-- "Assertion failed, ... % PRIME is equal to 0" -/
  | assertNotZeroFailed (value : Felt)
  /-- "assert_not_equal failed: non-comparable values: a, b." -/
  | nonComparableValues (a b : MaybeRelocatable)
  /-- "assert_not_equal failed: a = b." -/
  | assertNotEqualFailed (a b : MaybeRelocatable)
  /-- "Builtin(s) ... not present in layout ..." -/
  | builtinsNotPresent (builtins : List String) (layout : String)
  /-- `ErrRunnerCalledTwice`, "Cairo Runner was called twice" -/
  | runnerCalledTwice
  /-- "Called Finalize Segments before run had ended" -/
  | finalizeBeforeRunEnded
  /-- "Called Finalized Segments without an Execution Public Memory" -/
  | finalizeWithoutPublicMemory
  /-- "Tried to read return values before run ended" -/
  | readReturnValuesBeforeRunEnded
  /-- "Failed Adding Return Values" -/
  | failedAddingReturnValues
  /-- "EndOfProgram: remaining" -/
  | endOfProgram (remaining : Int)
  /-- "Total Memory units was not divisible by the Public Memory Fraction ..." -/
  | memoryUnitsNotDivisible (total fraction : Nat)
  /-- `InsufficientAllocatedCellsError(unused, needed)` -/
  | insufficientAllocatedCells (unused needed : Nat)
  /-- `InsufficientAllocatedCellsErrorWithBuiltinName(name, used, size)` -/
  | insufficientAllocatedCellsWithBuiltinName (name : String) (used size : Nat)
  /-- `InsufficientAllocatedCellsErrorMinStepNotReached(minStep, name)` -/
  | insufficientAllocatedCellsMinStepNotReached (minStep : Nat) (name : String)
  /-- "error calculating builtin memory units: cause" -/
  | builtinMemoryUnits (cause : VmError)
  /-- `NewErrNoStopPointer(name)`: a builtin's final stack has no cell below the pointer. -/
  | noStopPointer (name : String)
  /-- `NewErrInvalidStopPointerIndex(name, stopPointer, base)` -/
  | invalidStopPointerIndex (name : String) (stopPointer base : Relocatable)
  /-- `NewErrInvalidStopPointer(name, used, stopPointer)` -/
  | invalidStopPointer (name : String) (used : Nat) (stopPointer : Relocatable)
  /-- The error of `GetSegmentUsedSize` on a segment whose used size was not computed. -/
  | segmentUsedSizeUnknown (index : Nat)
  /-- `ErrNonZeroHighBitError`, "Instruction high bit was not set to zero" -/
  | nonZeroHighBit
  /-- `ErrInvalidOp1RegError`, "Instruction had invalid Op1 Register" -/
  | invalidOp1Reg
  /-- `ErrInvalidPcUpdateError`, "Instruction had invalid Pc update" -/
  | invalidPcUpdate
  /-- `ErrInvalidResError`, "Instruction had an invalid res" -/
  | invalidRes
  /-- `ErrInvalidOpcodeError`, "Instruction had an invalid opcode" -/
  | invalidOpcode
  /-- `ErrInvalidApUpdateError`, "Instruction had an invalid Ap Update" -/
  | invalidApUpdate
  /-- "Failed to fetch instruction at pc" -/
  | failedToFetchInstruction (pc : Relocatable)
  /-- "Wrong instruction encoding": the cell at pc holds a pointer. -/
  | wrongInstructionEncoding
  /-- "RelocatableAdd": the sum of two pointers. -/
  | relocatableAdd
  /-- The error of `SubUint` when the offset would go below zero. -/
  | relocatableSubUintNegOffset
  /-- "FailedToComputeDstAddr" -/
  | failedToComputeDstAddr
  /-- "FailedToComputeOp0Addr: cause" -/
  | failedToComputeOp0Addr (cause : VmError)
  /-- "FailedToComputeOp1Addr: cause" -/
  | failedToComputeOp1Addr (cause : VmError)
  /-- `VirtualMachineError{"UnknownOp0"}`: an immediate operand whose `off2` is not 1. -/
  | unknownOp0
  /-- "Unknown Op0": op1's address is read off op0, and op0 is not in memory. -/
  | op0Unknown
  /-- "AddressNotRelocatable": op1's address is read off op0, and op0 is a felt. -/
  | addressNotRelocatable
  /-- "Failed to compute or deduce op0" -/
  | failedToDeduceOp0
  /-- "Failed to compute or deduce op1" -/
  | failedToDeduceOp1
  /-- "ComputeResRelocatableMul" -/
  | computeResRelocatableMul
  /-- `VirtualMachineError{"UnconstrainedResAssertEq"}` -/
  | unconstrainedResAssertEq
  /-- `VirtualMachineError{"DiffAssertValues"}` -/
  | diffAssertValues
  /-- `VirtualMachineError{"CantWriteReturnPc"}` -/
  | cantWriteReturnPc
  /-- `VirtualMachineError{"CantWriteReturnFp"}` -/
  | cantWriteReturnFp
  /-- "Res.UNCONSTRAINED cannot be used with PcUpdate.JUMP" -/
  | unconstrainedResJump
  /-- "An integer value as Res cannot be used with PcUpdate.JUMP" -/
  | jumpResNotRelocatable
  /-- "Res.UNCONSTRAINED cannot be used with PcUpdate.JUMP_REL" -/
  | unconstrainedResJumpRel
  /-- "A relocatable value as Res cannot be used with PcUpdate.JUMP_REL" -/
  | jumpRelResNotFelt
  /-- "Res.UNCONSTRAINED cannot be used with ApUpdate.ADD" -/
  | unconstrainedResAdd
  /-- `ErrFeltBiggerThanPowerOfTwo(felt)`: a bitwise input has more than 251 bits. -/
  | feltBiggerThanPowerOfTwo (f : Felt)
  /-- Go's "invalid memory address or nil pointer dereference" panic. -/
  | nilPointerDereference
  /-- Go's "index out of range [index] with length length" panic. -/
  | indexOutOfRange (index length : Nat)
  /-- Go's "integer divide by zero" panic. -/
  | integerDivideByZero
  /-- An error of code not in the repository's files (a VM step, a builtin's accounting
  hook), carried unchanged. -/
  | external (code : Nat)

/-- Modelled from the spec: the errors that unwrap to `ErrInsufficientAllocatedCells`, the
ones after which the padding loop of `EndRun` runs one more step (§4.6, step 6). -/
def VmError.isInsufficientAllocatedCells : VmError → Bool
  | .insufficientAllocatedCells .. => true
  | .insufficientAllocatedCellsWithBuiltinName .. => true
  | .insufficientAllocatedCellsMinStepNotReached .. => true
  | _ => false

/-! ## Go errors -/

/-- A call that returns an error, followed by the rest of a function: the whole succeeds
exactly when the call does and the rest succeeds on its result. -/
theorem bind_eq_ok {ε α β : Type} {x : Except ε α} {f : α → Except ε β} {b : β} :
    x >>= f = .ok b ↔ ∃ a, x = .ok a ∧ f a = .ok b := by
  cases x <;> simp [bind, Except.bind]

/-- A function applied to what a call returns. -/
theorem map_eq_ok {ε α β : Type} {f : α → β} {x : Except ε α} {b : β} :
    f <$> x = .ok b ↔ ∃ a, x = .ok a ∧ f a = b := by
  cases x <;> simp [Functor.map, Except.map]

/-! ## Go slices -/

/-- A Go slice read `xs[i]`, which panics past the end. -/
def goIndex {α : Type} (xs : List α) (i : Nat) : Except VmError α :=
  match xs[i]? with
  | some x => .ok x
  | none => .error (.indexOutOfRange i xs.length)

/-- A Go slice write `xs[i] = v`, which panics past the end. -/
def goSet {α : Type} (xs : List α) (i : Nat) (v : α) : Except VmError (List α) :=
  if i < xs.length then .ok (xs.set i v) else .error (.indexOutOfRange i xs.length)

/-! ## Pointer and cell arithmetic -/

/-- `Relocatable.Sub`: the distance between two pointers of one segment. -/
def Relocatable.sub (r other : Relocatable) : Except VmError Nat :=
  if r.segmentIndex ≠ other.segmentIndex then .error .relocatableSubDiffIndex
  else if r.offset < other.offset then .error .relocatableSubNegOffset
  else .ok (r.offset - other.offset)

/-- `Relocatable.SubFelt`: the offset, taken as a felt, minus `other`, which must fit 64 bits
again. -/
def Relocatable.subFelt (r : Relocatable) (other : Felt) : Except VmError Relocatable :=
  let newOffset := (Felt.ofNat r.offset).sub other
  match newOffset.toU64 with
  | some o => .ok ⟨r.segmentIndex, o⟩
  | none => .error (.feltToU64 newOffset)

/-- `Relocatable.AddFelt`: the offset, taken as a felt, plus `other`, which must fit 64 bits
again. -/
def Relocatable.addFelt (r : Relocatable) (other : Felt) : Except VmError Relocatable :=
  let newOffset := (Felt.ofNat r.offset).add other
  match newOffset.toU64 with
  | some o => .ok ⟨r.segmentIndex, o⟩
  | none => .error (.feltToU64 newOffset)

/-- Modelled from the spec: `AddUint`, the offset plus a `uint`, wrapping around (§4.2). -/
def Relocatable.addUint (r : Relocatable) (other : Nat) : Relocatable :=
  ⟨r.segmentIndex, uintAdd r.offset other⟩

/-- Modelled from the spec: `SubUint`, which fails when the offset would go below zero
(§4.2). -/
def Relocatable.subUint (r : Relocatable) (other : Nat) : Except VmError Relocatable :=
  if r.offset < other then .error .relocatableSubUintNegOffset
  else .ok ⟨r.segmentIndex, r.offset - other⟩

/-- Modelled from the spec: `AddMaybeRelocatable`, a pointer plus a felt; a pointer plus a
pointer fails (§3). -/
def Relocatable.addMaybeRelocatable (r : Relocatable) : MaybeRelocatable → Except VmError Relocatable
  | .felt f => r.addFelt f
  | .relocatable _ => .error .relocatableAdd

theorem Relocatable.addFelt_segmentIndex {r r' : Relocatable} {f : Felt} (h : r.addFelt f = .ok r') :
    r'.segmentIndex = r.segmentIndex := by
  unfold Relocatable.addFelt at h
  dsimp only at h
  split at h
  · cases h; rfl
  · cases h

theorem Relocatable.addMaybeRelocatable_segmentIndex {r r' : Relocatable} {v : MaybeRelocatable}
    (h : r.addMaybeRelocatable v = .ok r') : r'.segmentIndex = r.segmentIndex := by
  cases v with
  | felt f => exact Relocatable.addFelt_segmentIndex h
  | relocatable _ => cases h

/-! ### Offsets stay `uint`s -/

theorem Relocatable.addFelt_offset_lt {r r' : Relocatable} {f : Felt} (h : r.addFelt f = .ok r') :
    r'.offset < 2 ^ 64 := by
  unfold Relocatable.addFelt at h
  dsimp only at h
  split at h
  · cases h; exact (Felt.toU64_eq_some ‹_›).2
  · cases h

theorem Relocatable.subFelt_offset_lt {r r' : Relocatable} {f : Felt} (h : r.subFelt f = .ok r') :
    r'.offset < 2 ^ 64 := by
  unfold Relocatable.subFelt at h
  dsimp only at h
  split at h
  · cases h; exact (Felt.toU64_eq_some ‹_›).2
  · cases h

theorem Relocatable.addMaybeRelocatable_offset_lt {r r' : Relocatable} {v : MaybeRelocatable}
    (h : r.addMaybeRelocatable v = .ok r') : r'.offset < 2 ^ 64 := by
  cases v with
  | felt f => exact Relocatable.addFelt_offset_lt h
  | relocatable _ => cases h

theorem Relocatable.addUint_offset_lt (r : Relocatable) (n : Nat) : (r.addUint n).offset < 2 ^ 64 :=
  Nat.mod_lt _ (by decide)

theorem Relocatable.subUint_offset_le {r r' : Relocatable} {n : Nat} (h : r.subUint n = .ok r') :
    r'.offset ≤ r.offset := by
  unfold Relocatable.subUint at h
  split at h
  · cases h
  · cases h; exact Nat.sub_le _ _

namespace MaybeRelocatable

/-- Modelled from the spec: `GetFelt`, the felt a cell value holds, if it holds one; the
README's `GetInt` under the name the Go files call. -/
def getFelt : MaybeRelocatable → Option Felt
  | .felt f => some f
  | .relocatable _ => none

/-- `GetRelocatable`: the pointer a cell value holds, if it holds one. -/
def getRelocatable : MaybeRelocatable → Option Relocatable
  | .felt _ => none
  | .relocatable r => some r

/-- `MaybeRelocatable.Add`: felt plus felt, and a pointer plus a felt on either side. -/
def add : MaybeRelocatable → MaybeRelocatable → Except VmError MaybeRelocatable
  | .felt a, .felt b => .ok (.felt (a.add b))
  | .relocatable a, .felt b => .relocatable <$> a.addFelt b
  | .felt a, .relocatable b => .relocatable <$> b.addFelt a
  | .relocatable _, .relocatable _ => .error .relocatableAdd

/-- `MaybeRelocatable.Sub`: felt minus felt, pointer minus felt, pointer minus pointer. -/
def sub : MaybeRelocatable → MaybeRelocatable → Except VmError MaybeRelocatable
  | .felt a, .felt b => .ok (.felt (a.sub b))
  | .relocatable a, .felt b => .relocatable <$> a.subFelt b
  | .relocatable a, .relocatable b => (fun d => .felt (Felt.ofNat d)) <$> a.sub b
  | .felt _, .relocatable _ => .error .subRelocatableFromFelt

/-- `MaybeRelocatable.IsZero`: a felt that is zero; a pointer never is. -/
def isZero : MaybeRelocatable → Bool
  | .felt f => f.isZero
  | .relocatable _ => false

end MaybeRelocatable

/-! ## Adding back what was subtracted -/

/-- Adding back the felt a pointer's offset was lowered by returns the pointer. -/
theorem Relocatable.addFelt_of_subFelt {r r' : Relocatable} {f : Felt} (h : r.subFelt f = .ok r')
    (hr : r.offset < 2 ^ 64) : r'.addFelt f = .ok r := by
  unfold Relocatable.subFelt at h
  dsimp only at h
  split at h
  · rename_i o ho
    simp only [Except.ok.injEq] at h
    subst h
    obtain ⟨ho, -⟩ := Felt.toU64_eq_some ho
    rw [Relocatable.addFelt, ← ho, Felt.sub_add_cancel, Felt.toU64_ofNat hr]
  · cases h

/-- Adding the distance between two pointers of a segment to the lower one gives the higher. -/
theorem Relocatable.addFelt_of_sub {a b : Relocatable} {d : Nat} (h : a.sub b = .ok d)
    (ha : a.offset < 2 ^ 64) : b.addFelt (Felt.ofNat d) = .ok a := by
  unfold Relocatable.sub at h
  split at h
  · cases h
  split at h
  · cases h
  rename_i hseg hlt
  simp only [Except.ok.injEq] at h
  subst h
  have := two_pow_64_lt_prime
  have hfit : b.offset + (a.offset - b.offset) = a.offset := by omega
  rw [Relocatable.addFelt, Felt.add, Felt.val_ofNat_of_lt (by omega), Felt.val_ofNat_of_lt (by omega),
    hfit, Felt.toU64_ofNat ha]
  simp only [Except.ok.injEq]
  cases a; cases b; simp_all

/-- A difference of cell values added back, on either side, gives the minuend. -/
theorem MaybeRelocatable.add_of_sub {x y d : MaybeRelocatable} (h : x.sub y = .ok d)
    (hx : ∀ r, x = .relocatable r → r.offset < 2 ^ 64) : d.add y = .ok x ∧ y.add d = .ok x := by
  cases x with
  | felt a =>
    cases y with
    | felt b =>
      simp only [MaybeRelocatable.sub, Except.ok.injEq] at h
      subst h
      refine ⟨?_, ?_⟩ <;> simp only [MaybeRelocatable.add, Felt.sub_add_cancel, Felt.add_sub_cancel']
    | relocatable b => cases h
  | relocatable a =>
    have ha := hx a rfl
    cases y with
    | felt b =>
      obtain ⟨r', hr', rfl⟩ := map_eq_ok.mp h
      have := Relocatable.addFelt_of_subFelt hr' ha
      exact ⟨by rw [MaybeRelocatable.add, this]; rfl, by rw [MaybeRelocatable.add, this]; rfl⟩
    | relocatable b =>
      obtain ⟨n, hn, rfl⟩ := map_eq_ok.mp h
      have := Relocatable.addFelt_of_sub hn ha
      exact ⟨by rw [MaybeRelocatable.add, this]; rfl, by rw [MaybeRelocatable.add, this]; rfl⟩

end CairoVm
