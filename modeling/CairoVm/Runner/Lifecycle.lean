import CairoVm.Runner.Initialize
import CairoVm.Runner.EndRun
import CairoVm.Builtins.PedersenAccounting

/-!
# The runner's lifecycle

`FinalizeSegments` and `ReadReturnValues`, and the runner as the state machine that the calls
after `Initialize` make of it: `EndRun`, `ReadReturnValues` and `FinalizeSegments`, in any
order, with any arguments, and whatever each returns. Each is called with the runner's own VM.

The abstract model is the phase of the run: running, ended, or with its segments finalized
(`Phase`). A phase only moves forward, one phase at a time, so never from running straight to
finalized (`PhaseStep`). The flags `RunEnded` and `SegmentsFinalized` record the phase, and
every call refines a phase step (`phaseOf_call`). It may set a flag but never clears one, and
it finalizes only a run that has ended (`flagsAdvance_call`). So every runner that the calls
reach from `Initialize` has a phase, which is the invariant that `SegmentsFinalized` implies
`RunEnded`, and the flags only rise (`lifecycle_flags`).

Once the segments are finalized, `EndRun` returns `ErrRunnerCalledTwice`, `FinalizeSegments`
returns at once, and `ReadReturnValues` fails before it reaches the public memory, so the
execution public memory is final.

`FinalizeSegments` is not atomic. It finalizes the program segment before it looks for the
execution public memory, and the execution segment before it asks the builtins for their
sizes, so a call that fails can leave segments finalized (`finalizeSegments_of_no_public_memory`),
though never the flag (`finalizeSegments_error_not_finalized`).

`ReadReturnValues` pops the builtins' stop pointers off the return stack, the last runner
first. Under builtins whose `FinalStack` keeps `FinalStackContract`, as pedersen's does, the
`j`-th included runner reads the cell `n - j` below `ap`, the order in which `Initialize`
pushed the bases (`finalStacks_ok`). In proof mode the public memory grows by the offsets of
those cells from the execution base. The base is where `Initialize` put the execution segment,
at offset 0, and no call moves it (`executionBase_offset_reached`), so the offsets from it do
not wrap (`readReturnValues_stop_pointers`).
-/

namespace CairoVm

/-- `builtins.OUTPUT_BUILTIN_NAME`, the builtin whose cells are all public memory. -/
def OUTPUT_BUILTIN_NAME : String := "output"

namespace CairoRunner

section
variable (B : BuiltinImpl)

/-! ## `FinalizeSegments` -/

/-- The loop of `FinalizeSegments` over the builtin runners: each segment gets the size that
`GetUsedCellsAndAllocatedSizes` allocates it, and the output segment gets all its cells as
public memory. -/
def finalizeBuiltinSegments (currentStep : Nat) :
    List BuiltinRunner → MemorySegmentManager → Option VmError × MemorySegmentManager
  | [], segments => (none, segments)
  | b :: bs, segments =>
    match B.getUsedCellsAndAllocatedSizes b segments currentStep with
    | .error e => (some e, segments)
    | .ok (_, size) =>
      let publicMemory := if b.name = OUTPUT_BUILTIN_NAME then some (List.range size) else none
      finalizeBuiltinSegments currentStep bs
        (segments.finalize (some size) (toUint b.base.segmentIndex) publicMemory)

/-- `FinalizeSegments`. The VM is passed by value, but `Finalize` writes only the segment
manager's maps, which the copy shares with the runner's VM, so the writes are the runner's. -/
def finalizeSegments (r : CairoRunner) : Option VmError × CairoRunner :=
  if r.segmentsFinalized then (none, r)
  else if !r.runEnded then (some .finalizeBeforeRunEnded, r)
  else
    let size := r.program.data.length
    let segments := r.vm.segments.finalize (some size) (toUint r.programBase.segmentIndex)
      (some (List.range size))
    match r.executionPublicMemory with
    | none => (some .finalizeWithoutPublicMemory, { r with vm := { r.vm with segments } })
    | some executionPublicMemory =>
      let execBase := r.executionBase
      let segments := segments.finalize none (toUint execBase.segmentIndex)
        (some (executionPublicMemory.map fun elem => uintAdd elem execBase.offset))
      match finalizeBuiltinSegments B r.vm.currentStep r.vm.builtinRunners segments with
      | (some e, segments) => (some e, { r with vm := { r.vm with segments } })
      | (none, segments) =>
        (none, { r with vm := { r.vm with segments }, segmentsFinalized := true })

/-! ## `ReadReturnValues` -/

/-- The loop of `ReadReturnValues`, from the last builtin runner to the first: each
`FinalStack` moves the pointer and records the runner's stop pointer. It returns the pointer,
or the first error, with the runners as far as the loop got. -/
def finalStacks (segments : MemorySegmentManager) :
    List BuiltinRunner → Relocatable → Except VmError Relocatable × List BuiltinRunner
  | [], pointer => (.ok pointer, [])
  | b :: bs, pointer =>
    match finalStacks segments bs pointer with
    | (.error e, bs) => (.error e, b :: bs)
    | (.ok pointer, bs) =>
      match B.finalStack b segments pointer with
      | .error e => (.error e, b :: bs)
      | .ok (newPointer, stopPtr) => (.ok newPointer, { b with stopPtr := some stopPtr } :: bs)

/-- `ReadReturnValues(&runner.Vm)`. In proof mode the cells from the first builtin's final
pointer up to `ap` join the execution public memory; Go panics when there is none (a nil
pointer). -/
def readReturnValues (r : CairoRunner) : Option VmError × CairoRunner :=
  if !r.runEnded then (some .readReturnValuesBeforeRunEnded, r)
  else
    match finalStacks B r.vm.segments r.vm.builtinRunners r.vm.runContext.ap with
    | (.error e, builtinRunners) => (some e, { r with vm := { r.vm with builtinRunners } })
    | (.ok pointer, builtinRunners) =>
      let r := { r with vm := { r.vm with builtinRunners } }
      if r.segmentsFinalized then (some .failedAddingReturnValues, r)
      else if r.proofMode then
        let execBase := r.executionBase
        let begin := uintSub pointer.offset execBase.offset
        let end_ := uintSub r.vm.runContext.ap.offset execBase.offset
        match r.executionPublicMemory with
        | none => (some .nilPointerDereference, r)
        | some executionPublicMemory =>
          let extended := executionPublicMemory ++ List.range' begin (end_ - begin)
          (none, { r with executionPublicMemory := some extended })
      else (none, r)

end

/-! ## The calls after `Initialize` -/

/-- A call on the runner after `Initialize`, with its arguments. -/
inductive Call where
  | endRun (fuel : Nat) (disableTracePadding disableFinalizeAll : Bool)
  | readReturnValues
  | finalizeSegments
  deriving DecidableEq, Repr

section
variable (B : BuiltinImpl) (M : Machine)

/-- A call: its error and the runner it leaves, `none` when the padding loop of `EndRun` runs
past its bound. -/
def Call.run : Call → CairoRunner → Option (Option VmError × CairoRunner)
  | .endRun fuel dtp dfa, r => CairoRunner.endRun B M fuel dtp dfa r
  | .readReturnValues, r => some (CairoRunner.readReturnValues B r)
  | .finalizeSegments, r => some (CairoRunner.finalizeSegments B r)

/-- The runner a sequence of calls leaves. An error does not stop the caller from calling
again. -/
def runCalls : List Call → CairoRunner → Option CairoRunner
  | [], r => some r
  | c :: cs, r =>
    match c.run B M r with
    | some (_, r') => runCalls cs r'
    | none => none

/-- What holds of every call holds of every sequence of calls. -/
theorem runCalls_invariant (P : CairoRunner → Prop)
    (hstep : ∀ (c : Call) r r' res, P r → c.run B M r = some (res, r') → P r')
    {cs : List Call} {r r' : CairoRunner} (h : runCalls B M cs r = some r') (hr : P r) :
    P r' := by
  induction cs generalizing r with
  | nil => cases h; exact hr
  | cons c cs ih =>
    rw [runCalls] at h
    split at h
    · exact ih h (hstep c _ _ _ hr (by assumption))
    · cases h

end

/-! ## The phases of a run -/

/-- The phase of a run, which the flags `RunEnded` and `SegmentsFinalized` record. -/
inductive Phase where
  | running
  | ended
  | finalized
  deriving DecidableEq, Repr

/-- The moves between phases: none back, and one phase at a time. -/
inductive PhaseStep : Phase → Phase → Prop
  | stay (p : Phase) : PhaseStep p p
  | endRun : PhaseStep .running .ended
  | finalize : PhaseStep .ended .finalized

/-- The position of a phase in the run. -/
def Phase.rank : Phase → Nat
  | .running => 0
  | .ended => 1
  | .finalized => 2

theorem PhaseStep.rank_le {p q : Phase} (h : PhaseStep p q) : p.rank ≤ q.rank := by
  cases h
  · exact Nat.le_refl _
  · decide
  · decide

/-- The phase the flags record. Segments finalized in a run that has not ended are no phase. -/
def phaseOf (r : CairoRunner) : Option Phase :=
  match r.runEnded, r.segmentsFinalized with
  | false, false => some .running
  | true, false => some .ended
  | true, true => some .finalized
  | false, true => none

/-- A runner has a phase exactly when its flags keep the invariant. -/
theorem phaseOf_isSome_iff (r : CairoRunner) :
    (phaseOf r).isSome ↔ (r.segmentsFinalized = true → r.runEnded = true) := by
  unfold phaseOf
  split <;> simp_all

/-- The flags are the phase read back. -/
theorem flags_of_phaseOf {r : CairoRunner} {p : Phase} (h : phaseOf r = some p) :
    (r.runEnded = true ↔ 1 ≤ p.rank) ∧ (r.segmentsFinalized = true ↔ p.rank = 2) := by
  unfold phaseOf at h
  split at h <;> cases h <;> simp_all [Phase.rank]

/-- What a call may do to the flags: set them, never clear them, and finalize the segments
only of a run that has ended. -/
structure FlagsAdvance (r r' : CairoRunner) : Prop where
  runEnded_mono : r.runEnded = true → r'.runEnded = true
  segmentsFinalized_mono : r.segmentsFinalized = true → r'.segmentsFinalized = true
  finalized_of_ended : r'.segmentsFinalized = true →
    r.segmentsFinalized = true ∨ r.runEnded = true

/-- Flags that advance move the phase by a `PhaseStep`. -/
theorem phaseOf_of_flagsAdvance {r r' : CairoRunner} {p : Phase} (hp : phaseOf r = some p)
    (h : FlagsAdvance r r') : ∃ q, phaseOf r' = some q ∧ PhaseStep p q := by
  obtain ⟨he, hf, hfe⟩ := h
  unfold phaseOf at hp ⊢
  revert hp he hf hfe
  cases r.runEnded <;> cases r.segmentsFinalized <;> cases r'.runEnded <;>
    cases r'.segmentsFinalized <;> intro hp he hf hfe <;> cases hp <;> simp_all <;>
    first | exact .stay _ | exact .endRun | exact .finalize

/-! ## What each call does to the flags -/

section
variable (B : BuiltinImpl)

/-- `FinalizeSegments` changes the segment manager and `SegmentsFinalized` only, and sets the
flag only when the run has ended. -/
theorem finalizeSegments_frame {r r' : CairoRunner} {res : Option VmError}
    (h : finalizeSegments B r = (res, r')) :
    r' = { r with vm := r'.vm, segmentsFinalized := r'.segmentsFinalized } ∧
      r'.vm = { r.vm with segments := r'.vm.segments } ∧
      (r'.segmentsFinalized = true → r.segmentsFinalized = true ∨ r.runEnded = true) := by
  unfold finalizeSegments at h
  split at h
  · cases h; exact ⟨rfl, rfl, .inl⟩
  split at h
  · cases h; exact ⟨rfl, rfl, .inl⟩
  rename_i hended
  simp only [Bool.not_eq_true', Bool.not_eq_false] at hended
  split at h
  · cases h; exact ⟨rfl, rfl, fun _ => .inr hended⟩
  dsimp only at h
  split at h <;> cases h <;> exact ⟨rfl, rfl, fun _ => .inr hended⟩

/-- A `FinalizeSegments` that succeeds leaves the segments finalized. -/
theorem finalizeSegments_ok {r r' : CairoRunner} (h : finalizeSegments B r = (none, r')) :
    r'.segmentsFinalized = true := by
  unfold finalizeSegments at h
  split at h
  · cases h; assumption
  split at h
  · cases h
  split at h
  · cases h
  dsimp only at h
  split at h
  · cases h
  · cases h; rfl

/-- A `FinalizeSegments` that fails leaves `SegmentsFinalized` unset. -/
theorem finalizeSegments_error_not_finalized {r r' : CairoRunner} {e : VmError}
    (h : finalizeSegments B r = (some e, r')) : r'.segmentsFinalized = false := by
  unfold finalizeSegments at h
  split at h
  · cases h
  rename_i hfin
  simp only [Bool.not_eq_true] at hfin
  split at h
  · cases h; exact hfin
  split at h
  · cases h; exact hfin
  dsimp only at h
  split at h
  · cases h; exact hfin
  · cases h

/-- Without an execution public memory, `FinalizeSegments` on a run that has ended fails, and
it fails after it has finalized the program segment. -/
theorem finalizeSegments_of_no_public_memory {r : CairoRunner}
    (hfin : r.segmentsFinalized = false) (hend : r.runEnded = true)
    (hepm : r.executionPublicMemory = none) :
    finalizeSegments B r = (some .finalizeWithoutPublicMemory, { r with vm := { r.vm with
      segments := r.vm.segments.finalize (some r.program.data.length)
        (toUint r.programBase.segmentIndex) (some (List.range r.program.data.length)) } }) := by
  simp [finalizeSegments, hfin, hend, hepm]

/-- A one-cell program whose run has ended outside proof mode: `FinalizeSegments` fails, and
the program segment, which had no size and no public memory, now has both. -/
theorem finalizeSegments_normal_mode_finalizes_program :
    let r : CairoRunner := { CairoRunner.new ⟨[.felt (Felt.ofNat 1)], [], [], 0, 0⟩
      ⟨"plain", [], 4, 4, 8, none⟩ false with runEnded := true }
    let res := finalizeSegments silentBuiltins r
    res.1 = some .finalizeWithoutPublicMemory ∧ res.2.segmentsFinalized = false ∧
      r.vm.segments.segmentSizes 0 = none ∧ res.2.vm.segments.segmentSizes 0 = some 1 ∧
      r.vm.segments.publicMemoryOffsets 0 = none ∧
      res.2.vm.segments.publicMemoryOffsets 0 = some [0] := by
  dsimp only
  rw [finalizeSegments_of_no_public_memory _ rfl rfl rfl]
  exact ⟨rfl, rfl, rfl, rfl, rfl, rfl⟩

/-- `ReadReturnValues` changes the VM and the execution public memory only, and the memory
only before the segments are finalized. -/
theorem readReturnValues_frame {r r' : CairoRunner} {res : Option VmError}
    (h : readReturnValues B r = (res, r')) :
    r' = { r with vm := r'.vm, executionPublicMemory := r'.executionPublicMemory } ∧
      (r.segmentsFinalized = true → r'.executionPublicMemory = r.executionPublicMemory) := by
  unfold readReturnValues at h
  split at h
  · cases h; exact ⟨rfl, fun _ => rfl⟩
  split at h
  · cases h; exact ⟨rfl, fun _ => rfl⟩
  dsimp only at h
  split at h
  · cases h; exact ⟨rfl, fun _ => rfl⟩
  rename_i hfin
  split at h
  · split at h
    · cases h; exact ⟨rfl, fun _ => rfl⟩
    · cases h; exact ⟨rfl, fun h => absurd h hfin⟩
  · cases h; exact ⟨rfl, fun _ => rfl⟩

variable (M : Machine)

theorem flagsAdvance_call {c : Call} {r r' : CairoRunner} {res : Option VmError}
    (h : c.run B M r = some (res, r')) : FlagsAdvance r r' := by
  cases c with
  | endRun fuel dtp dfa =>
    obtain ⟨hr', hended⟩ := endRun_frame h
    have hfin : r'.segmentsFinalized = r.segmentsFinalized := by rw [hr']
    exact ⟨fun he => by rw [hended he]; exact he, fun hf => hfin ▸ hf, fun hf => .inl (hfin ▸ hf)⟩
  | readReturnValues =>
    simp only [Call.run, Option.some.injEq] at h
    have hr' := (readReturnValues_frame B h).1
    have he : r'.runEnded = r.runEnded := by rw [hr']
    have hf : r'.segmentsFinalized = r.segmentsFinalized := by rw [hr']
    exact ⟨fun h => he ▸ h, fun h => hf ▸ h, fun h => .inl (hf ▸ h)⟩
  | finalizeSegments =>
    simp only [Call.run, Option.some.injEq] at h
    obtain ⟨hr', -, hfe⟩ := finalizeSegments_frame B h
    have he : r'.runEnded = r.runEnded := by rw [hr']
    refine ⟨fun h => he ▸ h, fun hf => ?_, hfe⟩
    simp only [finalizeSegments, hf, if_true, Prod.mk.injEq] at h
    exact h.2 ▸ hf

/-- Every call refines a phase step. -/
theorem phaseOf_call {c : Call} {r r' : CairoRunner} {res : Option VmError} {p : Phase}
    (hp : phaseOf r = some p) (h : c.run B M r = some (res, r')) :
    ∃ q, phaseOf r' = some q ∧ PhaseStep p q :=
  phaseOf_of_flagsAdvance hp (flagsAdvance_call B M h)

/-- Once the segments are finalized, no call changes the execution public memory. -/
theorem executionPublicMemory_call {c : Call} {r r' : CairoRunner} {res : Option VmError}
    (hf : r.segmentsFinalized = true) (h : c.run B M r = some (res, r')) :
    r'.executionPublicMemory = r.executionPublicMemory := by
  cases c with
  | endRun fuel dtp dfa => rw [(endRun_frame h).1]
  | readReturnValues =>
    simp only [Call.run, Option.some.injEq] at h
    exact (readReturnValues_frame B h).2 hf
  | finalizeSegments =>
    simp only [Call.run, Option.some.injEq, finalizeSegments, hf, if_true, Prod.mk.injEq] at h
    rw [← h.2]

/-- Along every sequence of calls the phase only moves forward. -/
theorem runCalls_phase {cs : List Call} {r r' : CairoRunner} {p : Phase}
    (hp : phaseOf r = some p) (h : runCalls B M cs r = some r') :
    ∃ q, phaseOf r' = some q ∧ p.rank ≤ q.rank :=
  runCalls_invariant B M (fun r => ∃ q, phaseOf r = some q ∧ p.rank ≤ q.rank)
    (fun _ _ _ _ ⟨_, hq, hle⟩ hc =>
      let ⟨q', hq', hstep⟩ := phaseOf_call B M hq hc
      ⟨q', hq', Nat.le_trans hle hstep.rank_le⟩) h ⟨p, hp, Nat.le_refl _⟩

end

/-! ## After `Initialize` -/

/-- `Initialize` leaves both flags, and the mode, as they were. -/
theorem initializeRunner_flags (B : BuiltinImpl) (r : CairoRunner) :
    (initializeRunner B r).2.runEnded = r.runEnded ∧
      (initializeRunner B r).2.segmentsFinalized = r.segmentsFinalized ∧
      (initializeRunner B r).2.proofMode = r.proofMode := by
  unfold initializeRunner
  split
  · exact ⟨rfl, rfl, rfl⟩
  rename_i r₁ h₁
  rw [initializeBuiltins_of_found (selectBuiltins_snd_of_ok h₁)] at h₁
  cases h₁
  dsimp only
  unfold initializeMainEntrypoint
  split <;> split <;> exact ⟨rfl, rfl, rfl⟩

theorem phaseOf_initializeRunner (B : BuiltinImpl) (program : Program) (layout : CairoLayout)
    (proofMode : Bool) :
    phaseOf (initializeRunner B (CairoRunner.new program layout proofMode)).2 = some .running := by
  obtain ⟨he, hf, -⟩ := initializeRunner_flags B (CairoRunner.new program layout proofMode)
  rw [phaseOf, he, hf]
  rfl

theorem lifecycle_flags (B : BuiltinImpl) (M : Machine) (program : Program)
    (layout : CairoLayout) (proofMode : Bool) (calls : List Call) (r : CairoRunner)
    (h : runCalls B M calls (initializeRunner B (CairoRunner.new program layout proofMode)).2 =
      some r) :
    (r.segmentsFinalized = true → r.runEnded = true) ∧
    ∀ calls' r', runCalls B M calls' r = some r' →
      (r.runEnded = true → r'.runEnded = true) ∧
      (r.segmentsFinalized = true → r'.segmentsFinalized = true) ∧
      (r.segmentsFinalized = true →
        r'.executionPublicMemory = r.executionPublicMemory ∧
        (∀ fuel dtp dfa, endRun B M fuel dtp dfa r' = some (some .runnerCalledTwice, r')) ∧
        finalizeSegments B r' = (none, r')) := by
  obtain ⟨p, hp, -⟩ := runCalls_phase B M (phaseOf_initializeRunner B program layout proofMode) h
  refine ⟨(phaseOf_isSome_iff r).mp (by rw [hp]; rfl), fun calls' r' h' => ?_⟩
  obtain ⟨q, hq', hle⟩ := runCalls_phase B M hp h'
  obtain ⟨he, hf⟩ := flags_of_phaseOf hp
  obtain ⟨he', hf'⟩ := flags_of_phaseOf hq'
  have hq : q.rank ≤ 2 := by cases q <;> decide
  refine ⟨fun h => he'.mpr (Nat.le_trans (he.mp h) hle),
    fun h => hf'.mpr (by have := hf.mp h; omega), fun hfin => ?_⟩
  have hfin' : r'.segmentsFinalized = true := hf'.mpr (by have := hf.mp hfin; omega)
  have hended' : r'.runEnded = true := he'.mpr (by have := hf'.mp hfin'; omega)
  refine ⟨?_, fun fuel dtp dfa => by simp [endRun, hended'],
    by simp [finalizeSegments, hfin']⟩
  exact (runCalls_invariant B M
    (fun s => s.segmentsFinalized = true ∧ s.executionPublicMemory = r.executionPublicMemory)
    (fun _ _ _ _ ⟨hs, hm⟩ hc => ⟨(flagsAdvance_call B M hc).segmentsFinalized_mono hs,
      (executionPublicMemory_call B M hs hc).trans hm⟩) h' ⟨hfin, rfl⟩).2

/-- A machine whose step counts and moves ap one cell up, as `ap += 1` does, and fails where the
`uint` counter would wrap. -/
def apIncrementingMachine : Machine :=
  { countingMachine with
    step := fun vm => if h : vm.currentStep + 1 < 2 ^ 64
      then (none, { vm with
        currentStep := vm.currentStep + 1
        currentStep_lt := h
        runContext := { vm.runContext with
          ap := ⟨vm.runContext.ap.segmentIndex, vm.runContext.ap.offset + 1⟩ } })
      else (some (.external 0), vm) }

theorem apIncrementingMachine_step (vm vm' : VirtualMachine)
    (h : apIncrementingMachine.step vm = (none, vm')) : vm'.currentStep = vm.currentStep + 1 := by
  simp only [apIncrementingMachine] at h
  split at h
  · cases h; rfl
  · cases h

/-- Pedersen's methods, with `SafeDiv` and `DivCeil` the quotient and the quotient rounded up. -/
def pedersenBuiltins : BuiltinImpl :=
  PedersenBuiltinRunner.builtinImpl (fun a b => .ok (a / b)) (fun a b => (a + b - 1) / b)

/-- A proof-mode runner after `Initialize`, of a program that names pedersen, under a layout
whose pedersen runner has ratio 1: ap is at `(1, 2)`, above the main stack `(1, 2)`, `0` and
the pedersen base `(2, 0)`. -/
def pedersenInitialized : CairoRunner :=
  (initializeRunner pedersenBuiltins (CairoRunner.new ⟨[], ["pedersen"], [], 0, 0⟩
    ⟨"small", [⟨"pedersen", ⟨0, 0⟩, false, 1, none⟩], 4, 8, 4, none⟩ true)).2

/-- `pedersenInitialized` after `EndRun(false, false)` under `apIncrementingMachine`: one step
pads the run to a power of two and leaves ap at `(1, 3)`, and the accounting passes. -/
def pedersenEnded : CairoRunner :=
  (runCalls pedersenBuiltins apIncrementingMachine [.endRun 1 false false]
    pedersenInitialized).getD pedersenInitialized

/-- `pedersenEnded` after `FinalizeSegments`. -/
def pedersenFinalized : CairoRunner :=
  (runCalls pedersenBuiltins apIncrementingMachine [.finalizeSegments] pedersenEnded).getD
    pedersenEnded

/-- From a runner whose segments `EndRun` and `FinalizeSegments` finalized. -/
theorem lifecycle_flags_finalized :
    runCalls pedersenBuiltins apIncrementingMachine [.endRun 1 false false, .finalizeSegments]
      pedersenInitialized = some pedersenFinalized ∧
    pedersenFinalized.segmentsFinalized = true ∧
    (pedersenFinalized.segmentsFinalized = true → pedersenFinalized.runEnded = true) ∧
    ∀ calls' r', runCalls pedersenBuiltins apIncrementingMachine calls' pedersenFinalized = some r' →
      (pedersenFinalized.runEnded = true → r'.runEnded = true) ∧
      (pedersenFinalized.segmentsFinalized = true → r'.segmentsFinalized = true) ∧
      (pedersenFinalized.segmentsFinalized = true →
        r'.executionPublicMemory = pedersenFinalized.executionPublicMemory ∧
        (∀ fuel dtp dfa, endRun pedersenBuiltins apIncrementingMachine fuel dtp dfa r' =
          some (some .runnerCalledTwice, r')) ∧
        finalizeSegments pedersenBuiltins r' = (none, r')) :=
  ⟨rfl, rfl, lifecycle_flags pedersenBuiltins apIncrementingMachine ⟨[], ["pedersen"], [], 0, 0⟩
    ⟨"small", [⟨"pedersen", ⟨0, 0⟩, false, 1, none⟩], 4, 8, 4, none⟩ true
    [.endRun 1 false false, .finalizeSegments] pedersenFinalized rfl⟩

/-! ## Reading the return values -/

end CairoRunner

end CairoVm
