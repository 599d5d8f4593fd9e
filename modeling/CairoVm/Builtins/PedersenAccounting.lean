import CairoVm.Builtins.Pedersen
import CairoVm.Builtins.Runner

/-!
# The Pedersen builtin: accounting and the final stack

The methods of `PedersenBuiltinRunner` that the runner calls at the end of a run:
`GetAllocatedMemoryUnits` and `GetUsedCellsAndAllocatedSizes` for the accounting, and
`FinalStack`, with `GetUsedInstances`, for the return values. `utils.SafeDiv` and
`utils.DivCeil` are not in the repository's files and are parameters.

On the dynamic layout's branch (ratio 0) the comment promises "the exact number of instances
it needs (up to a power of 2)". The code floors the used cells to whole instances before it
rounds up, so with one instance per component it allocates fewer cells than are used exactly
when the used size is not a multiple of 3 and its whole instances are already a power of two
(`getUsedCellsAndAllocatedSizes_dynamic`).

`FinalStack` of an included runner pops the stop pointer from the cell below the pointer and
checks it against the instances used; on an error the runner is unchanged
(`finalStack_included_eq_ok`, `finalStack_error`). `GetUsedInstances` reads a used size it
cannot look up as no instance, without an error, so a stop pointer at the segment's start
passes while the used size is still unknown. The runner's view of these methods,
`builtinImpl`, keeps the contract the reading of return values relies on
(`finalStackContract_builtinImpl`).
-/

namespace CairoVm

/-- `PEDERSEN_BUILTIN_NAME` -/
def PEDERSEN_BUILTIN_NAME : String := "pedersen"

namespace PedersenBuiltinRunner

section
variable (safeDiv : Nat → Nat → Except VmError Nat) (divCeil : Nat → Nat → Nat)

/-! ## The methods -/

/-- `GetAllocatedMemoryUnits`. Go panics dividing by a zero `instancesPerComponent`. -/
def getAllocatedMemoryUnits (p : PedersenBuiltinRunner) (segments : MemorySegmentManager)
    (currentStep : Nat) : Except VmError Nat :=
  if p.ratio = 0 then
    match segments.getSegmentUsedSize (toUint p.base.segmentIndex) with
    | .error e => .error e
    | .ok used =>
      let instances := used / cellsPerInstance
      if p.instancesPerComponent = 0 then .error .integerDivideByZero
      else
        let components := nextPowOf2 (instances / p.instancesPerComponent)
        .ok (uintMul (uintMul cellsPerInstance p.instancesPerComponent) components)
  else
    let minStep := uintMul p.ratio p.instancesPerComponent
    if currentStep < minStep then
      .error (.insufficientAllocatedCellsMinStepNotReached minStep PEDERSEN_BUILTIN_NAME)
    else
      match safeDiv currentStep p.ratio with
      | .error e => .error (.builtinMemoryUnits e)
      | .ok value => .ok (uintMul cellsPerInstance value)

/-- `GetUsedCellsAndAllocatedSizes`: the used size and the allocation, and an error when the
allocation is smaller. -/
def getUsedCellsAndAllocatedSizes (p : PedersenBuiltinRunner)
    (segments : MemorySegmentManager) (currentStep : Nat) : Except VmError (Nat × Nat) :=
  match segments.getSegmentUsedSize (toUint p.base.segmentIndex) with
  | .error e => .error e
  | .ok used =>
    match p.getAllocatedMemoryUnits safeDiv segments currentStep with
    | .error e => .error e
    | .ok size =>
      if used > size then
        .error (.insufficientAllocatedCellsWithBuiltinName PEDERSEN_BUILTIN_NAME used size)
      else .ok (used, size)

/-- `GetUsedInstances`. A used size it cannot look up counts as no instance, and its error is
dropped. -/
def getUsedInstances (p : PedersenBuiltinRunner) (segments : MemorySegmentManager) :
    Except VmError Nat :=
  match segments.getSegmentUsedSize (toUint p.base.segmentIndex) with
  | .error _ => .ok 0
  | .ok usedCells => .ok (divCeil usedCells cellsPerInstance)

/-- `FinalStack`: the new pointer, and the runner with the stop pointer it records. -/
def finalStack (p : PedersenBuiltinRunner) (segments : MemorySegmentManager)
    (pointer : Relocatable) : Except VmError Relocatable × PedersenBuiltinRunner :=
  if p.included then
    if pointer.offset = 0 then (.error (.noStopPointer PEDERSEN_BUILTIN_NAME), p)
    else
      let stopPointerAddr : Relocatable := ⟨pointer.segmentIndex, pointer.offset - 1⟩
      match segments.memory.getRelocatable stopPointerAddr with
      | .error e => (.error e, p)
      | .ok stopPointer =>
        if p.base.segmentIndex ≠ stopPointer.segmentIndex then
          (.error (.invalidStopPointerIndex PEDERSEN_BUILTIN_NAME stopPointer p.base), p)
        else
          match p.getUsedInstances divCeil segments with
          | .error e => (.error e, p)
          | .ok numInstances =>
            let used := uintMul numInstances cellsPerInstance
            if stopPointer.offset ≠ used then
              (.error (.invalidStopPointer PEDERSEN_BUILTIN_NAME used stopPointer), p)
            else (.ok stopPointerAddr, { p with stopPtr := some stopPointer.offset })
  else (.ok pointer, { p with stopPtr := some 0 })

/-- The runner package's record of a builtin, read as a Pedersen runner: its fields, an empty
cache, and one instance per component, as `NewPedersenBuiltinRunner` sets. -/
def ofBuiltinRunner (b : BuiltinRunner) : PedersenBuiltinRunner :=
  ⟨b.base, b.included, [], b.ratio, 1, b.stopPtr⟩

/-- Pedersen's methods of the `BuiltinRunner` interface. `AddValidationRule` adds nothing,
and the builtin reports no range-check or diluted usage. -/
def builtinImpl : BuiltinImpl where
  validationRule _ := none
  finalStack b segments pointer :=
    match (ofBuiltinRunner b).finalStack divCeil segments pointer with
    | (.ok q, p) => .ok (q, p.stopPtr.getD 0)
    | (.error e, _) => .error e
  getUsedCellsAndAllocatedSizes b := (ofBuiltinRunner b).getUsedCellsAndAllocatedSizes safeDiv
  getAllocatedMemoryUnits b := (ofBuiltinRunner b).getAllocatedMemoryUnits safeDiv
  getRangeCheckUsage _ _ := (none, none)
  getUsedPermRangeCheckLimits _ _ _ := .ok 0
  getUsedDilutedCheckUnits _ _ _ := 0

/-! ## The dynamic layout's allocation -/

/-- Three cells for each of the next power of two of the whole instances used is fewer than
the used cells exactly when some cells are left over and the whole instances are already a
power of two. -/
theorem three_mul_nextPowOf2_lt_iff (used : Nat) :
    3 * nextPowOf2 (used / 3) < used ↔ used % 3 ≠ 0 ∧ nextPowOf2 (used / 3) = used / 3 := by
  have := le_nextPowOf2 (used / 3)
  omega

/-- On the dynamic branch, with one instance per component, the allocation is three cells
for each of the next power of two of the whole instances used. -/
theorem getAllocatedMemoryUnits_dynamic {p : PedersenBuiltinRunner}
    {segments : MemorySegmentManager} {used : Nat} (currentStep : Nat)
    (hratio : p.ratio = 0) (hipc : p.instancesPerComponent = 1)
    (hused : segments.getSegmentUsedSize (toUint p.base.segmentIndex) = .ok used)
    (hfit : 3 * nextPowOf2 (used / 3) < 2 ^ 64) :
    p.getAllocatedMemoryUnits safeDiv segments currentStep = .ok (3 * nextPowOf2 (used / 3)) := by
  simp only [getAllocatedMemoryUnits, hratio, hused, hipc, if_true, Nat.div_one, uintMul,
    cellsPerInstance, Nat.one_ne_zero, if_false, Nat.mul_one]
  rw [Nat.mod_eq_of_lt (by decide : 3 < 2 ^ 64), Nat.mod_eq_of_lt hfit]

/-- On the dynamic branch, with one instance per component, the accounting fails exactly when
the used size is not a multiple of 3 and its whole instances are already a power of two. -/
theorem getUsedCellsAndAllocatedSizes_dynamic {p : PedersenBuiltinRunner}
    {segments : MemorySegmentManager} {used : Nat} (currentStep : Nat)
    (hratio : p.ratio = 0) (hipc : p.instancesPerComponent = 1)
    (hused : segments.getSegmentUsedSize (toUint p.base.segmentIndex) = .ok used)
    (hfit : 3 * nextPowOf2 (used / 3) < 2 ^ 64) :
    p.getUsedCellsAndAllocatedSizes safeDiv segments currentStep =
      if used % 3 ≠ 0 ∧ nextPowOf2 (used / 3) = used / 3 then
        .error (.insufficientAllocatedCellsWithBuiltinName PEDERSEN_BUILTIN_NAME used
          (3 * nextPowOf2 (used / 3)))
      else .ok (used, 3 * nextPowOf2 (used / 3)) := by
  rw [getUsedCellsAndAllocatedSizes, hused]
  dsimp only
  rw [getAllocatedMemoryUnits_dynamic safeDiv currentStep hratio hipc hused hfit]
  dsimp only
  simp only [gt_iff_lt, three_mul_nextPowOf2_lt_iff]

/-- A new runner of ratio 0 whose segment has 4 used cells: at every step it allocates 3, and
its accounting fails. -/
theorem getUsedCellsAndAllocatedSizes_dynamic_four :
    let p : PedersenBuiltinRunner := { PedersenBuiltinRunner.new 0 with base := ⟨2, 0⟩ }
    let segments := { MemorySegmentManager.empty with
      segmentUsedSizes := fun i => if i = 2 then some 4 else none }
    ∀ currentStep, p.getAllocatedMemoryUnits safeDiv segments currentStep = .ok 3 ∧
      p.getUsedCellsAndAllocatedSizes safeDiv segments currentStep =
        .error (.insufficientAllocatedCellsWithBuiltinName "pedersen" 4 3) := by
  intro p segments currentStep
  have hused : segments.getSegmentUsedSize (toUint p.base.segmentIndex) = .ok 4 := rfl
  exact ⟨getAllocatedMemoryUnits_dynamic safeDiv currentStep rfl rfl hused (by decide),
    getUsedCellsAndAllocatedSizes_dynamic safeDiv currentStep rfl rfl hused (by decide)⟩

/-! ## The final stack -/

theorem getUsedInstances_eq (p : PedersenBuiltinRunner) (segments : MemorySegmentManager) :
    p.getUsedInstances divCeil segments =
      .ok (match segments.segmentUsedSizes (toUint p.base.segmentIndex) with
        | some usedCells => divCeil usedCells cellsPerInstance
        | none => 0) := by
  unfold getUsedInstances MemorySegmentManager.getSegmentUsedSize
  cases segments.segmentUsedSizes (toUint p.base.segmentIndex) <;> rfl

/-- A `FinalStack` that fails leaves the runner as it was. -/
theorem finalStack_error {p p' : PedersenBuiltinRunner} {segments : MemorySegmentManager}
    {pointer : Relocatable} {e : VmError}
    (h : p.finalStack divCeil segments pointer = (.error e, p')) : p' = p := by
  unfold finalStack at h
  split at h
  · split at h
    · cases h; rfl
    dsimp only at h
    split at h
    · cases h; rfl
    split at h
    · cases h; rfl
    split at h
    · cases h; rfl
    split at h
    · cases h; rfl
    · cases h
  · cases h

/-- `FinalStack` of an included runner succeeds exactly when the pointer is past the segment's
start, the cell below it holds a pointer into the runner's segment, and that pointer's offset
is three cells for each instance `GetUsedInstances` counts. It returns the cell's address and
records the offset as the stop pointer. -/
theorem finalStack_included_eq_ok {p p' : PedersenBuiltinRunner}
    {segments : MemorySegmentManager} {pointer q : Relocatable} (hinc : p.included = true) :
    p.finalStack divCeil segments pointer = (.ok q, p') ↔
      0 < pointer.offset ∧ q = ⟨pointer.segmentIndex, pointer.offset - 1⟩ ∧
      ∃ sp n, segments.memory.getRelocatable q = .ok sp ∧
        sp.segmentIndex = p.base.segmentIndex ∧ p.getUsedInstances divCeil segments = .ok n ∧
        sp.offset = uintMul n cellsPerInstance ∧ p' = { p with stopPtr := some sp.offset } := by
  obtain ⟨n, hn⟩ : ∃ n, p.getUsedInstances divCeil segments = .ok n :=
    ⟨_, getUsedInstances_eq divCeil p segments⟩
  unfold finalStack
  rw [if_pos hinc]
  by_cases h0 : pointer.offset = 0
  · simp [h0]
  rw [if_neg h0]
  dsimp only
  rcases hget : segments.memory.getRelocatable ⟨pointer.segmentIndex, pointer.offset - 1⟩
    with e | sp
  · constructor
    · intro h; simp at h
    · rintro ⟨-, rfl, sp, n, hsp, -⟩
      rw [hget] at hsp
      cases hsp
  · simp only [hn, Except.ok.injEq]
    constructor
    · intro h
      split at h
      · cases h
      split at h
      · cases h
      · obtain ⟨hq, rfl⟩ := Prod.mk.inj h
        cases hq
        exact ⟨Nat.pos_of_ne_zero h0, rfl, sp, n, hget, by omega, rfl, by omega, rfl⟩
    · rintro ⟨-, rfl, sp', n', hsp, hseg, rfl, hoff, rfl⟩
      rw [hget, Except.ok.injEq] at hsp
      subst hsp
      rw [if_neg (by omega), if_neg (by omega)]

/-- An included runner whose segment was never sized, with the stop pointer at the start of
its segment: `FinalStack` succeeds, although the used size cannot be looked up. -/
theorem finalStack_unknown_used_size :
    let p : PedersenBuiltinRunner :=
      { PedersenBuiltinRunner.new 8 with base := ⟨2, 0⟩, included := true }
    let segments := { MemorySegmentManager.empty with
      memory := { Memory.empty with data := [(⟨1, 0⟩, .relocatable ⟨2, 0⟩)], numSegments := 3 } }
    segments.getSegmentUsedSize 2 = .error (.segmentUsedSizeUnknown 2) ∧
      p.finalStack divCeil segments ⟨1, 1⟩ = (.ok ⟨1, 0⟩, { p with stopPtr := some 0 }) := by
  intro p segments
  refine ⟨rfl, (finalStack_included_eq_ok divCeil rfl).mpr
    ⟨by decide, rfl, ⟨2, 0⟩, 0, rfl, rfl, ?_, rfl, rfl⟩⟩
  rw [getUsedInstances_eq]
  rfl

end

end PedersenBuiltinRunner

end CairoVm
