import CairoVm.Memory

/-!
# The builtin runner interface

The `CairoRunner` reaches its builtins through the `BuiltinRunner` interface, a Go interface
value per builtin, in the order of the layout. Every runner in the repository's files
(pedersen, and range check and bitwise in the README's walkthrough) writes the methods the
runner's initialization calls the same way: `InitializeSegments` takes a new segment as the
base, `InitialStack` is `[base]` when the runner is included and empty otherwise,
`Include` sets the flag, and `AddValidationRule` registers a rule, if the builtin has one,
for its own segment. Those are definitions here.

The other methods differ from builtin to builtin, and only pedersen's are in the files:
`BuiltinImpl` collects them, as functions of the runner's state, and every statement
about the runner quantifies over it. What the runner relies on of `FinalStack` is
`FinalStackContract`, which pedersen's keeps.

The range check's validation rule is the README's; it is what the `assert_nn` hint guards.
-/

namespace CairoVm

/-! ## The range check's rule -/

/-- `RANGE_CHECK_N_PARTS`. Not in the repository's files; the spec gives the range check's
bound, 128 bits (§4.5), of which this and `INNER_RC_BOUND_SHIFT` are the factors. -/
def RANGE_CHECK_N_PARTS : Nat := 8

/-- `INNER_RC_BOUND_SHIFT`, the bits of one part. -/
def INNER_RC_BOUND_SHIFT : Nat := 16

/-- A natural number has at least `RANGE_CHECK_N_PARTS * INNER_RC_BOUND_SHIFT = 128` bits
exactly from 2^127 on: the bound the hints compare bit lengths against. -/
theorem rcBound_le_size_iff (n : Nat) :
    RANGE_CHECK_N_PARTS * INNER_RC_BOUND_SHIFT ≤ Nat.size n ↔ 2 ^ 127 ≤ n :=
  show 127 < Nat.size n ↔ _ from Nat.lt_size

/-- The range check's `ValidationRule`: the cell must hold a felt of at most
`RANGE_CHECK_N_PARTS * INNER_RC_BOUND_SHIFT` bits. -/
def rangeCheckValidationRule : ValidationRule := fun data address =>
  match data.lookup address with
  | none => .error (.valueNotFound address)
  | some (.relocatable _) => .error .notFeltElement
  | some (.felt f) =>
    if f.bits ≤ RANGE_CHECK_N_PARTS * INNER_RC_BOUND_SHIFT then .ok [address]
    else .error .rangeCheckNumOutOfBounds

/-- The rule accepts exactly the felts below 2^128. -/
theorem rangeCheckValidationRule_felt (data : Cells) (address : Relocatable) (f : Felt)
    (h : data.lookup address = some (.felt f)) :
    rangeCheckValidationRule data address =
      if f.val < 2 ^ 128 then .ok [address] else .error .rangeCheckNumOutOfBounds := by
  simp only [rangeCheckValidationRule, h, Felt.bits, RANGE_CHECK_N_PARTS, INNER_RC_BOUND_SHIFT,
    Nat.size_le]

/-! ## Runners -/

/-- The state the `CairoRunner` reads and writes of a builtin runner. -/
structure BuiltinRunner where
  name : String
  base : Relocatable
  included : Bool
  ratio : Nat
  stopPtr : Option Nat

/-- The methods of the `BuiltinRunner` interface whose code is builtin-specific, each a
function of the runner's state: the rule `AddValidationRule` registers, `FinalStack` (the
new pointer and the stop pointer it records), and the accounting hooks. -/
structure BuiltinImpl where
  validationRule : BuiltinRunner → Option ValidationRule
  finalStack : BuiltinRunner → MemorySegmentManager → Relocatable →
    Except VmError (Relocatable × Nat)
  getUsedCellsAndAllocatedSizes : BuiltinRunner → MemorySegmentManager → Nat →
    Except VmError (Nat × Nat)
  getAllocatedMemoryUnits : BuiltinRunner → MemorySegmentManager → Nat → Except VmError Nat
  getRangeCheckUsage : BuiltinRunner → Memory → Option Nat × Option Nat
  getUsedPermRangeCheckLimits : BuiltinRunner → MemorySegmentManager → Nat →
    Except VmError Nat
  getUsedDilutedCheckUnits : BuiltinRunner → Nat → Nat → Nat

namespace BuiltinRunner

/-- `Include` (a keyword in Lean, hence the name). -/
def setInclude (b : BuiltinRunner) (v : Bool) : BuiltinRunner := { b with included := v }

/-- `InitializeSegments`: the base is a new segment. -/
def initializeSegments (b : BuiltinRunner) (segments : MemorySegmentManager) :
    BuiltinRunner × MemorySegmentManager :=
  ({ b with base := segments.addSegment.1 }, segments.addSegment.2)

/-- `InitialStack`. -/
def initialStack (b : BuiltinRunner) : List MaybeRelocatable :=
  if b.included then [.relocatable b.base] else []

/-- `AddValidationRule`: the builtin's rule, if any, for its own segment. -/
def addValidationRule (B : BuiltinImpl) (b : BuiltinRunner) (mem : Memory) : Memory :=
  match B.validationRule b with
  | some rule => mem.addValidationRule b.base.segmentIndex.toNat rule
  | none => mem

end BuiltinRunner

end CairoVm
