import CairoVm.Runner.Lifecycle

/-!
# A whole run

`RunUntilPC`, the loop that runs a program to its end, and a run as the spec lays out its
phases (§4.6, phases 1 to 7). The phases are `Initialize`, `RunUntilPC` to the end pointer that
`Initialize` returns, `EndRun`, and, for proof output, `FinalizeSegments`.

`RunUntilPC` steps while `pc` is not the end pointer, and nothing bounds the loop. Here it takes
a bound on its steps, like the padding loop of `EndRun`. A loop that succeeds stops on the end
pointer after no more steps than its bound (`stepUntilPc_ok`), and changes only the VM
(`runUntilPC_frame`).

The run ties the modules together (`runProgram_ok`). A run that succeeds has ended. Outside
proof mode it stopped on the final pc that `Initialize` recorded. In proof mode its segments are
finalized, and its step count is a power of two (`endRun_ok_of_proofMode`). Its execution public
memory is still the stack prefix that `Initialize` recorded: two cells and one for each included
builtin.
-/

namespace CairoVm

namespace CairoRunner

section
variable (B : BuiltinImpl) (M : Machine)

/-! ## `RunUntilPC` -/

/-- The loop of `RunUntilPC`: a step while `pc` is not `end`, at most `fuel` steps, and `none`
when they run out first. -/
def stepUntilPc (end_ : Relocatable) :
    Nat → VirtualMachine → Option (Option VmError × VirtualMachine)
  | 0, vm => if vm.runContext.pc = end_ then some (none, vm) else none
  | fuel + 1, vm =>
    if vm.runContext.pc = end_ then some (none, vm)
    else
      match M.step vm with
      | (some e, vm) => some (some e, vm)
      | (none, vm) => stepUntilPc end_ fuel vm

/-- `RunUntilPC(end)` on the runner's VM, with at most `fuel` steps: the error of compiling the
program's hints, if any, and then the loop. -/
def runUntilPC (fuel : Nat) (end_ : Relocatable) (r : CairoRunner) :
    Option (Option VmError × CairoRunner) :=
  match M.hintError with
  | some e => some (some e, r)
  | none => (stepUntilPc M end_ fuel r.vm).map fun res => (res.1, { r with vm := res.2 })

/-! ## A run -/

/-- Modelled from the spec: a run, phases 1 to 7 of §4.6. `Initialize`, `RunUntilPC` to the end
pointer it returns, `EndRun(false, false)`, and `FinalizeSegments` for proof output; the first
error ends the run. `fuel` bounds both loops. -/
def runProgram (fuel : Nat) (r : CairoRunner) : Option (Option VmError × CairoRunner) :=
  match initializeRunner B r with
  | ((_, some e), r) => some (some e, r)
  | ((end_, none), r) =>
    match runUntilPC M fuel end_ r with
    | none => none
    | some (some e, r) => some (some e, r)
    | some (none, r) =>
      match endRun B M fuel false false r with
      | none => none
      | some (some e, r) => some (some e, r)
      | some (none, r) => some (if r.proofMode then finalizeSegments B r else (none, r))

end

/-! ## What the loop does -/

section
variable {M : Machine}

/-- A loop that succeeds stops on `end`, after at most `fuel` steps. -/
theorem stepUntilPc_ok
    (hstep : ∀ vm vm', M.step vm = (none, vm') → vm'.currentStep = vm.currentStep + 1)
    {end_ : Relocatable} {fuel : Nat} {vm vm' : VirtualMachine}
    (h : stepUntilPc M end_ fuel vm = some (none, vm')) :
    vm'.runContext.pc = end_ ∧ ∃ n ≤ fuel, vm'.currentStep = vm.currentStep + n := by
  induction fuel generalizing vm with
  | zero =>
    rw [stepUntilPc] at h
    split at h
    · cases h; exact ⟨‹_›, 0, Nat.le_refl 0, rfl⟩
    · cases h
  | succ fuel ih =>
    rw [stepUntilPc] at h
    split at h
    · cases h; exact ⟨‹_›, 0, Nat.zero_le _, rfl⟩
    split at h
    · cases h
    rename_i vm₁ hs
    obtain ⟨hpc, n, hn, hcount⟩ := (ih h :)
    exact ⟨hpc, n + 1, by omega, by rw [hcount, hstep _ _ hs]; omega⟩

/-- `RunUntilPC` changes the VM only. -/
theorem runUntilPC_frame {fuel : Nat} {end_ : Relocatable} {r r' : CairoRunner}
    {res : Option VmError} (h : runUntilPC M fuel end_ r = some (res, r')) :
    r' = { r with vm := r'.vm } := by
  unfold runUntilPC at h
  split at h
  · cases h; rfl
  obtain ⟨_, -, hres⟩ := Option.map_eq_some'.mp h
  cases hres
  rfl

theorem runUntilPC_ok
    (hstep : ∀ vm vm', M.step vm = (none, vm') → vm'.currentStep = vm.currentStep + 1)
    {fuel : Nat} {end_ : Relocatable} {r r' : CairoRunner}
    (h : runUntilPC M fuel end_ r = some (none, r')) :
    r'.vm.runContext.pc = end_ ∧ r.vm.currentStep ≤ r'.vm.currentStep := by
  unfold runUntilPC at h
  split at h
  · cases h
  obtain ⟨⟨_, vm⟩, hloop, hres⟩ := Option.map_eq_some'.mp h
  cases hres
  obtain ⟨hpc, n, -, hcount⟩ := stepUntilPc_ok hstep hloop
  exact ⟨hpc, by rw [hcount]; omega⟩

end

/-! ## What a run leaves -/

/-- A run that succeeds went through every phase without an error. -/
theorem runProgram_eq_some_none {B : BuiltinImpl} {M : Machine} {fuel : Nat}
    {r₀ r : CairoRunner} (h : runProgram B M fuel r₀ = some (none, r)) :
    ∃ end_ r₁ r₂ r₃, initializeRunner B r₀ = ((end_, none), r₁) ∧
      runUntilPC M fuel end_ r₁ = some (none, r₂) ∧
      endRun B M fuel false false r₂ = some (none, r₃) ∧
      (if r₃.proofMode then finalizeSegments B r₃ else (none, r₃)) = (none, r) := by
  unfold runProgram at h
  split at h
  · cases h
  split at h
  · cases h
  · cases h
  split at h
  · cases h
  · cases h
  exact ⟨_, _, _, _, ‹_›, ‹_›, ‹_›, Option.some.inj h⟩

theorem runProgram_ok (B : BuiltinImpl) (M : Machine)
    (hstep : ∀ vm vm', M.step vm = (none, vm') → vm'.currentStep = vm.currentStep + 1)
    (program : Program) (layout : CairoLayout) (proofMode : Bool) (fuel : Nat)
    (r : CairoRunner)
    (h : runProgram B M fuel (CairoRunner.new program layout proofMode) = some (none, r)) :
    r.runEnded = true ∧
    (proofMode = false → r.finalPc = some r.vm.runContext.pc) ∧
    (proofMode = true → r.segmentsFinalized = true ∧ (∃ k, r.vm.currentStep = 2 ^ k) ∧
      r.executionPublicMemory = some (List.range
        (((selectBuiltins true program.builtins layout.builtins).1.filter (·.included)).length +
          2))) := by
  obtain ⟨end_, r₁, r₂, r₃, hinit, hrun, hend, hlast⟩ := runProgram_eq_some_none h
  obtain ⟨hfinal, hepm⟩ := initializeRunner_handover B (by rw [hinit])
  simp only [hinit] at hfinal hepm
  -- the phases after `Initialize` change neither the mode, nor the final pc, nor the public
  -- memory
  have hr₂ := runUntilPC_frame hrun
  have hr₃ := (endRun_frame hend).1
  have hpm₁ : r₁.proofMode = proofMode := by
    have := (initializeRunner_flags B (CairoRunner.new program layout proofMode)).2.2
    rwa [hinit] at this
  have hpm₂ : r₂.proofMode = proofMode := by rw [hr₂]; exact hpm₁
  have hpm₃ : r₃.proofMode = proofMode := by rw [hr₃]; exact hpm₂
  cases proofMode with
  | false =>
    simp only [hpm₃, Bool.false_eq_true, if_false, Prod.mk.injEq] at hlast
    obtain ⟨-, rfl⟩ := hlast
    refine ⟨endRun_runEnded hend, fun _ => ?_, fun h => (by cases h)⟩
    have hfinal₃ : r₃.finalPc = r₁.finalPc := by rw [hr₃, hr₂]
    rw [hfinal₃, (endRun_of_not_proofMode hpm₂ hend).1, (runUntilPC_ok hstep hrun).1, hfinal rfl]
  | true =>
    simp only [hpm₃, if_true] at hlast
    obtain ⟨hr, hvm, -⟩ := finalizeSegments_frame B hlast
    obtain ⟨hended, hpow, -⟩ := endRun_ok_of_proofMode hstep hpm₂ hend
    refine ⟨by rw [hr]; exact hended, fun h => (by cases h),
      fun _ => ⟨finalizeSegments_ok B hlast, by rw [hvm]; exact hpow, ?_⟩⟩
    have hepm₃ : r.executionPublicMemory = r₁.executionPublicMemory := by rw [hr, hr₃, hr₂]
    rw [hepm₃, hepm rfl]
    rfl

/-- The pedersen program of `pedersenInitialized` in proof mode: it starts at its end, `EndRun`
pads it with one step, and the run finalizes its segments, with the stack prefix of two cells and
the pedersen base as its public memory. -/
theorem runProgram_ok_pedersen :
    (∀ vm vm', apIncrementingMachine.step vm = (none, vm') → vm'.currentStep = vm.currentStep + 1) ∧
    runProgram pedersenBuiltins apIncrementingMachine 1 (CairoRunner.new ⟨[], ["pedersen"], [], 0, 0⟩
      ⟨"small", [⟨"pedersen", ⟨0, 0⟩, false, 1, none⟩], 4, 8, 4, none⟩ true) =
      some (none, pedersenFinalized) ∧
    pedersenFinalized.runEnded = true ∧
    (true = false → pedersenFinalized.finalPc = some pedersenFinalized.vm.runContext.pc) ∧
    (true = true → pedersenFinalized.segmentsFinalized = true ∧
      (∃ k, pedersenFinalized.vm.currentStep = 2 ^ k) ∧
      pedersenFinalized.executionPublicMemory = some (List.range
        (((selectBuiltins true ["pedersen"] [⟨"pedersen", ⟨0, 0⟩, false, 1, none⟩]).1.filter
          (·.included)).length + 2))) :=
  ⟨apIncrementingMachine_step, rfl,
    runProgram_ok pedersenBuiltins apIncrementingMachine apIncrementingMachine_step
      ⟨[], ["pedersen"], [], 0, 0⟩ ⟨"small", [⟨"pedersen", ⟨0, 0⟩, false, 1, none⟩], 4, 8, 4, none⟩
      true 1 pedersenFinalized rfl⟩

end CairoRunner

end CairoVm
