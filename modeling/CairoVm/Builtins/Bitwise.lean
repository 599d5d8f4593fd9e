import CairoVm.Vm.Step

/-!
# The bitwise builtin

`DeduceMemoryCell` of `BitwiseBuiltinRunner` in the README's walkthrough. An instance is five
cells: the inputs `x` and `y`, then `x & y`, `x ^ y` and `x | y`. An output cell is deduced once
both inputs are felts, and the builtin fails on an input of more than `BITWISE_TOTAL_N_BITS`
bits. The method reads neither the runner's base nor `included`, so the runner is a namespace
here.

A felt's bitwise operations work on its representative and read the result back modulo the
prime. The bound the builtin checks is what makes that reduction void: a deduced output is the
integer operation on the two inputs, exactly, and the builtin deduces one for every output cell
whose inputs are felts within the bound (`deduceMemoryCell_eq_ok_some_iff`).

The builtin keeps no state and only reads memory, which is write-once: a value or an error it
gives for a cell, it gives again in every state a run of the VM reaches later
(`reaches_deduceMemoryCell_stable`).
-/

namespace CairoVm

namespace Felt

/-- Modelled from the spec: `And`, on the little-endian bytes of the representatives, that is
the bitwise and of the representatives, read back as a felt. -/
def and (a b : Felt) : Felt := ofNat (a.val &&& b.val)

/-- Modelled from the spec: `Xor`, on the representatives' bytes. -/
def xor (a b : Felt) : Felt := ofNat (a.val ^^^ b.val)

/-- Modelled from the spec: `Or`, on the representatives' bytes. -/
def or (a b : Felt) : Felt := ofNat (a.val ||| b.val)

theorem two_pow_251_lt_prime : 2 ^ 251 < PRIME := by decide

theorem bits_le_251_iff (a : Felt) : a.bits ≤ 251 ↔ a.val < 2 ^ 251 := Nat.size_le

end Felt

/-! ## `DeduceMemoryCell` -/

namespace BitwiseBuiltinRunner

/-- `BITWISE_CELLS_PER_INSTANCE` -/
def cellsPerInstance : Nat := 5

/-- `BITWISE_TOTAL_N_BITS` -/
def totalNBits : Nat := 251

/-- `BIWISE_INPUT_CELLS_PER_INSTANCE` -/
def inputCellsPerInstance : Nat := 2

/-- The `switch` of `DeduceMemoryCell` on the index: the operation the index names. -/
def deduceOutput (index : Nat) (x y : Felt) : Option MaybeRelocatable :=
  match index with
  | 2 => some (.felt (x.and y))
  | 3 => some (.felt (x.xor y))
  | 4 => some (.felt (x.or y))
  | _ => none

/-- `DeduceMemoryCell`: nothing for an input cell, or while an input is missing or is a pointer;
an error for an input of more than `BITWISE_TOTAL_N_BITS` bits, `x` checked first; otherwise the
operation the index names. The error of `SubUint`, which cannot occur since the index is at most
the offset, is ignored. -/
def deduceMemoryCell (address : Relocatable) (mem : Memory) :
    Except VmError (Option MaybeRelocatable) :=
  let index := address.offset % cellsPerInstance
  if index < inputCellsPerInstance then .ok none
  else
    let xAddr : Relocatable :=
      match address.subUint index with
      | .ok r => r
      | .error _ => ⟨0, 0⟩
    let yAddr := xAddr.addUint 1
    match mem.getFelt xAddr with
    | .error _ => .ok none
    | .ok x =>
      match mem.getFelt yAddr with
      | .error _ => .ok none
      | .ok y =>
        if totalNBits < x.bits then .error (.feltBiggerThanPowerOfTwo x)
        else if totalNBits < y.bits then .error (.feltBiggerThanPowerOfTwo y)
        else .ok (deduceOutput index x y)

/-- What an output cell is for: the operation its index names on the two inputs as
integers. -/
def outputOf (index x y : Nat) : Option Nat :=
  match index with
  | 2 => some (x &&& y)
  | 3 => some (x ^^^ y)
  | 4 => some (x ||| y)
  | _ => none

theorem deduceOutput_eq (index : Nat) (x y : Felt) :
    deduceOutput index x y = (outputOf index x.val y.val).map fun n => .felt (Felt.ofNat n) := by
  match index with
  | 0 | 1 | 2 | 3 | 4 | _ + 5 => rfl

theorem inputCellsPerInstance_le_of_outputOf {index x y n : Nat} (h : outputOf index x y = some n) :
    inputCellsPerInstance ≤ index := by
  match index, h with
  | 2, _ | 3, _ | 4, _ => decide

/-- Inputs below `2 ^ m` give an output below `2 ^ m`. -/
theorem outputOf_lt {index x y n m : Nat} (hx : x < 2 ^ m) (hy : y < 2 ^ m)
    (h : outputOf index x y = some n) : n < 2 ^ m := by
  match index, h with
  | 2, rfl => exact Nat.and_lt_two_pow x hy
  | 3, rfl => exact Nat.xor_lt_two_pow hx hy
  | 4, rfl => exact Nat.or_lt_two_pow hx hy

/-- The address `SubUint(index)` gives: the instance's first input. -/
theorem xAddr_eq (address : Relocatable) :
    (match address.subUint (address.offset % cellsPerInstance) with
      | .ok r => r
      | .error _ => (⟨0, 0⟩ : Relocatable)) =
      ⟨address.segmentIndex, address.offset - address.offset % cellsPerInstance⟩ := by
  rw [Relocatable.subUint, if_neg (Nat.not_lt.mpr (Nat.mod_le _ _))]

/-- `DeduceMemoryCell` on an output cell whose inputs are felts within the bound. -/
theorem deduceMemoryCell_of_getFelt {address : Relocatable} {mem : Memory} {x y : Felt}
    (hidx : inputCellsPerInstance ≤ address.offset % cellsPerInstance)
    (hx : mem.getFelt ⟨address.segmentIndex, address.offset - address.offset % cellsPerInstance⟩ = .ok x)
    (hy : mem.getFelt (Relocatable.addUint ⟨address.segmentIndex,
      address.offset - address.offset % cellsPerInstance⟩ 1) = .ok y)
    (hbx : x.bits ≤ totalNBits) (hby : y.bits ≤ totalNBits) :
    deduceMemoryCell address mem = .ok (deduceOutput (address.offset % cellsPerInstance) x y) := by
  unfold deduceMemoryCell
  dsimp only
  simp only [xAddr_eq, if_neg (Nat.not_lt.mpr hidx), hx, hy, if_neg (Nat.not_lt.mpr hbx),
    if_neg (Nat.not_lt.mpr hby)]

/-- The builtin deduces a value exactly for an output cell whose two inputs are felts of at
most 251 bits, and the value is the integer operation on them, which the prime never reduces. -/
theorem deduceMemoryCell_eq_ok_some_iff {address : Relocatable} {mem : Memory}
    {v : MaybeRelocatable} :
    deduceMemoryCell address mem = .ok (some v) ↔
      ∃ x y : Felt,
        mem.getFelt ⟨address.segmentIndex, address.offset - address.offset % cellsPerInstance⟩ = .ok x ∧
        mem.getFelt (Relocatable.addUint ⟨address.segmentIndex,
          address.offset - address.offset % cellsPerInstance⟩ 1) = .ok y ∧
        x.val < 2 ^ totalNBits ∧ y.val < 2 ^ totalNBits ∧
        ∃ f : Felt, v = .felt f ∧ outputOf (address.offset % cellsPerInstance) x.val y.val = some f.val := by
  constructor
  · intro h
    unfold deduceMemoryCell at h
    dsimp only at h
    rw [xAddr_eq] at h
    split_ifs at h
    · cases h
    split at h
    · cases h
    rename_i x hx
    split at h
    · cases h
    rename_i y hy
    split_ifs at h with hbx hby
    have hxb := (Felt.bits_le_251_iff x).mp (Nat.le_of_not_lt hbx)
    have hyb := (Felt.bits_le_251_iff y).mp (Nat.le_of_not_lt hby)
    rw [deduceOutput_eq] at h
    obtain ⟨n, hn, hv⟩ := Option.map_eq_some'.mp (Except.ok.inj h)
    have hnv : (Felt.ofNat n).val = n :=
      Felt.val_ofNat_of_lt ((outputOf_lt hxb hyb hn).trans Felt.two_pow_251_lt_prime)
    exact ⟨x, y, hx, hy, hxb, hyb, _, hv.symm, hnv.symm ▸ hn⟩
  · rintro ⟨x, y, hx, hy, hxb, hyb, f, rfl, hf⟩
    rw [deduceMemoryCell_of_getFelt (inputCellsPerInstance_le_of_outputOf hf) hx hy
      ((Felt.bits_le_251_iff x).mpr hxb) ((Felt.bits_le_251_iff y).mpr hyb), deduceOutput_eq, hf,
      Option.map_some', Felt.ofNat_val]

/-! ## Along a run -/

/-- Memory only grows, so a value or an error the builtin gives for a cell stays. -/
theorem deduceMemoryCell_extend {m m' : Memory} (h : m.Extends m') {address : Relocatable}
    {r : Except VmError (Option MaybeRelocatable)} (hr : deduceMemoryCell address m = r)
    (hne : r ≠ .ok none) : deduceMemoryCell address m' = r := by
  subst hr
  unfold deduceMemoryCell at *
  dsimp only at *
  split_ifs at hne ⊢
  · exact absurd rfl hne
  cases hx : m.getFelt ⟨address.segmentIndex, address.offset - address.offset % cellsPerInstance⟩ with
  | error => simp only [xAddr_eq, hx, ne_eq, not_true_eq_false] at hne
  | ok x =>
    cases hy : m.getFelt (Relocatable.addUint ⟨address.segmentIndex,
        address.offset - address.offset % cellsPerInstance⟩ 1) with
    | error => simp only [xAddr_eq, hx, hy, ne_eq, not_true_eq_false] at hne
    | ok y => simp only [xAddr_eq, hx, hy, h.getFelt hx, h.getFelt hy]

/-- Along every run of the VM, whatever its builtins, a value or an error the bitwise builtin
gives for a cell is what it gives for that cell in every later state. -/
theorem reaches_deduceMemoryCell_stable {σ : Type} {deduce : BuiltinDeduction σ}
    {st st' : VmState σ} (h : VmState.Reaches deduce st st') {address : Relocatable}
    {r : Except VmError (Option MaybeRelocatable)} (hr : deduceMemoryCell address st.memory = r)
    (hne : r ≠ .ok none) : deduceMemoryCell address st'.memory = r := by
  induction h with
  | refl => exact hr
  | step hs _ ih => exact ih (deduceMemoryCell_extend (VmState.step_memory_extends deduce hs) hr hne)

/-- `12 & 10` at `(2, 2)`, before and after a step of `assertTwoVm` that writes elsewhere. -/
theorem reaches_deduceMemoryCell_stable_and :
    let st : VmState Unit := ⟨{ assertTwoVm with
      segments := { assertTwoVm.segments with
        memory := { assertTwoVm.segments.memory with
          data := assertTwoVm.segments.memory.data ++
            [(⟨2, 0⟩, .felt (Felt.ofNat 12)), (⟨2, 1⟩, .felt (Felt.ofNat 10))]
          numSegments := 3 } } }, [], ()⟩
    let st' : VmState Unit := (st.step .silent).2
    deduceMemoryCell ⟨2, 2⟩ st'.memory = .ok (some (.felt (Felt.ofNat 8))) := by
  intro st st'
  exact @reaches_deduceMemoryCell_stable Unit .silent st st'
    (.step (Prod.ext (by unfold st; rfl) (by unfold st'; dsimp only)) (.refl _)) ⟨2, 2⟩ _
    ((@deduceMemoryCell_of_getFelt _ _ (Felt.ofNat 12) (Felt.ofNat 10) (by decide)
      (by unfold st; rfl) (by unfold st; rfl)
      ((Felt.bits_le_251_iff _).mpr (by decide)) ((Felt.bits_le_251_iff _).mpr (by decide))).trans
      (congrArg Except.ok (by decide)))
    (fun h => by cases h)

end BitwiseBuiltinRunner
end CairoVm
