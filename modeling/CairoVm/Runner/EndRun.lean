import Mathlib.Algebra.Order.Ring.Nat
import CairoVm.Runner.State

/-!
# Ending a run

`EndRun` and what it calls: the step loops `RunForSteps`, `RunUntilSteps` and
`RunUntilNextPowerOfTwo`, and `CheckUsedCells` with its three accounting checks. `EndRun` is
modelled as it is called on the runner's own VM (`&runner.Vm`), so the VM the loops step is
the one the runner's checks read.

The padding loop of proof mode, `for true`, runs as long as the accounting reports too few
allocated cells; nothing in the code bounds it. `padLoop` and `endRun` take a bound on its
rounds and return `none` when the bound runs out; every result below holds for every bound.

The main result is the padding loop's invariant: after `RunUntilNextPowerOfTwo` the step
count is the next power of two, so a successful `EndRun` in proof mode leaves a power of two
at least the count it started from, with the accounting satisfied (`endRun_proof_mode`).
The `uint` arithmetic of `RunUntilSteps` and `RunForSteps` does not get in the way: the
distance to the next power of two is below 2^63, where the conversion to `int` is exact.

Elsewhere the `uint` arithmetic shows. `RunForSteps` reads its count as an `int`: a run that
returns no error took exactly that many steps below 2^63, none of them started at the final pc
(`RunsSteps`, `runForSteps_runsSteps`), and none at all from 2^63 on. So `RunUntilSteps` to a
target 2^63 or more ahead returns at once (`runUntilSteps_ok`). The memory and diluted checks
subtract in `uint`: when the builtins use more than the steps allocate, the budget wraps to
nearly 2^64 and the check passes (`checkMemoryUsage_eq`, `checkDilutedCheckUsage_eq`).

`CheckRangeCheckUsage` keeps the last minimum and the last maximum a builtin reports, not the
least and the greatest, and returns early when no builtin reports, whatever the VM's own
limits (`lastRangeCheckUsage_eq`, `checkRangeCheckUsage_of_no_report`).
-/

namespace CairoVm

namespace CairoRunner

variable (B : BuiltinImpl) (M : Machine)

/-! ## Stepping -/

/-- The loop of `RunForSteps`: each round checks for the end of the program, then steps. -/
def runSteps (finalPc : Option Relocatable) : Nat → VirtualMachine → Option VmError × VirtualMachine
  | 0, vm => (none, vm)
  | remaining + 1, vm =>
    if finalPc = some vm.runContext.pc then (some (.endOfProgram (remaining + 1)), vm)
    else match M.step vm with
      | (some e, vm) => (some e, vm)
      | (none, vm) => runSteps finalPc remaining vm

/-- `RunForSteps`. The count, a `uint`, is read as an `int`: from 2^63 on it is negative and no
step runs. -/
def runForSteps (r : CairoRunner) (steps : Nat) (vm : VirtualMachine) :
    Option VmError × VirtualMachine :=
  match M.hintError with
  | some e => (some e, vm)
  | none => runSteps M r.finalPc (toGoInt steps).toNat vm

/-- `RunUntilSteps`. -/
def runUntilSteps (r : CairoRunner) (steps : Nat) (vm : VirtualMachine) :
    Option VmError × VirtualMachine :=
  runForSteps M r (uintSub steps vm.currentStep) vm

/-- `RunUntilNextPowerOfTwo`. -/
def runUntilNextPowerOfTwo (r : CairoRunner) (vm : VirtualMachine) :
    Option VmError × VirtualMachine :=
  runUntilSteps M r (nextPowOf2 vm.currentStep) vm

/-! ## The accounting checks -/

/-- The loops summing a builtin quantity in `uint`, stopping at the first error. -/
def sumBuiltins (f : BuiltinRunner → Except VmError Nat) :
    List BuiltinRunner → Nat → Except VmError Nat
  | [], acc => .ok acc
  | b :: bs, acc =>
    match f b with
    | .error e => .error e
    | .ok units => sumBuiltins f bs (uintAdd acc units)

/-- The loop of `CheckUsedCells`: the first error of `GetUsedCellsAndAllocatedSizes`. -/
def checkBuiltinsUsedCells (segments : MemorySegmentManager) (currentStep : Nat) :
    List BuiltinRunner → Option VmError
  | [] => none
  | b :: bs =>
    match B.getUsedCellsAndAllocatedSizes b segments currentStep with
    | .error e => some e
    | .ok _ => checkBuiltinsUsedCells segments currentStep bs

/-- The first loop of `CheckRangeCheckUsage`: a reported minimum replaces the one kept, and so
does a reported maximum. -/
def lastRangeCheckUsage (mem : Memory) (builtins : List BuiltinRunner) : Option Nat × Option Nat :=
  builtins.foldl (fun acc b =>
    ((B.getRangeCheckUsage b mem).1.or acc.1, (B.getRangeCheckUsage b mem).2.or acc.2))
    (none, none)

/-- `CheckRangeCheckUsage`. It reads the builtins, the memory and the limits of the runner's
VM, and the step count and segments of the VM it is given. -/
def checkRangeCheckUsage (r : CairoRunner) (vm : VirtualMachine) : Option VmError :=
  match lastRangeCheckUsage B r.vm.segments.memory r.vm.builtinRunners with
  | (some rcMin, some rcMax) =>
    let rcMax := match r.vm.rcLimitsMax with
      | some limit => if rcMax < toUint limit then toUint limit else rcMax
      | none => rcMax
    let rcMin := match r.vm.rcLimitsMin with
      | some limit => if toUint limit < rcMin then toUint limit else rcMin
      | none => rcMin
    match sumBuiltins (fun b => B.getUsedPermRangeCheckLimits b vm.segments vm.currentStep)
        r.vm.builtinRunners 0 with
    | .error e => some e
    | .ok rcUnitsUsedByBuiltins =>
      let unusedRcUnits :=
        uintSub (uintMul (uintSub r.layout.rcUnits 3) vm.currentStep) rcUnitsUsedByBuiltins
      if unusedRcUnits < uintSub rcMax rcMin then
        some (.insufficientAllocatedCells unusedRcUnits (uintSub rcMax rcMin))
      else none
  | _ => none

/-- `CheckMemoryUsage`. Go panics dividing by a zero `PublicMemoryFraction`. -/
def checkMemoryUsage (r : CairoRunner) (vm : VirtualMachine) : Option VmError :=
  match sumBuiltins (fun b => B.getAllocatedMemoryUnits b vm.segments vm.currentStep)
      vm.builtinRunners 0 with
  | .error e => some e
  | .ok builtinsMemoryUnits =>
    let totalMemoryUnits := uintMul r.layout.memoryUnitsPerStep vm.currentStep
    if r.layout.publicMemoryFraction = 0 then some .integerDivideByZero
    else if totalMemoryUnits % r.layout.publicMemoryFraction ≠ 0 then
      some (.memoryUnitsNotDivisible totalMemoryUnits r.layout.publicMemoryFraction)
    else
      let publicMemoryUnits := totalMemoryUnits / r.layout.publicMemoryFraction
      let instructionMemoryUnits := uintMul 4 vm.currentStep
      let unusedMemoryUnits := uintSub totalMemoryUnits
        (uintAdd (uintAdd publicMemoryUnits instructionMemoryUnits) builtinsMemoryUnits)
      match M.getMemoryHoles vm.segments vm.builtinRunners.length with
      | .error e => some e
      | .ok memoryAddressHoles =>
        if unusedMemoryUnits < memoryAddressHoles then
          some (.insufficientAllocatedCells unusedMemoryUnits memoryAddressHoles)
        else none

/-- `CheckDilutedCheckUsage`. A zero ratio counts as 1, and `1 << NBits` is a `uint` shift. -/
def checkDilutedCheckUsage (r : CairoRunner) (vm : VirtualMachine) : Option VmError :=
  match r.layout.dilutedPoolInstance with
  | none => none
  | some pool =>
    let usedUnits (b : BuiltinRunner) : Except VmError Nat :=
      (fun multiplier => uintMul (B.getUsedDilutedCheckUnits b pool.spacing pool.nBits) multiplier)
        <$> M.safeDiv vm.currentStep (if b.ratio = 0 then 1 else b.ratio)
    match sumBuiltins usedUnits vm.builtinRunners 0 with
    | .error e => some e
    | .ok usedUnitsByBuiltins =>
      let unusedDilutedUnits := uintSub (uintMul pool.unitsPerStep vm.currentStep) usedUnitsByBuiltins
      let dilutedUsageUpperBound := 2 ^ pool.nBits % 2 ^ 64
      if unusedDilutedUnits < dilutedUsageUpperBound then
        some (.insufficientAllocatedCells unusedDilutedUnits dilutedUsageUpperBound)
      else none

/-- `CheckUsedCells`: the builtins' own check, then the three accounting checks, stopping at
the first error. -/
def checkUsedCells (r : CairoRunner) (vm : VirtualMachine) : Option VmError :=
  (checkBuiltinsUsedCells B vm.segments vm.currentStep vm.builtinRunners).or <|
    (checkRangeCheckUsage B r vm).or <| (checkMemoryUsage B M r vm).or <|
      checkDilutedCheckUsage B M r vm

/-! ## `EndRun` -/

/-- The padding loop of `EndRun`, at most `fuel` rounds: an accounting error other than
insufficient allocated cells ends it, and insufficient cells cost one more step and a new
power of two. -/
def padLoop : Nat → CairoRunner → Option (Option VmError × CairoRunner)
  | 0, _ => none
  | fuel + 1, r =>
    match checkUsedCells B M r r.vm with
    | none => some (none, r)
    | some e =>
      if e.isInsufficientAllocatedCells then
        match runForSteps M r 1 r.vm with
        | (some e, vm) => some (some e, { r with vm })
        | (none, vm) =>
          match runUntilNextPowerOfTwo M r vm with
          | (some e, vm) => some (some e, { r with vm })
          | (none, vm) => padLoop fuel { r with vm }
      else some (some e, r)

/-- `EndRun(disableTracePadding, disableFinalizeAll, &runner.Vm, hintProcessor)`, with at most
`fuel` rounds of the padding loop. -/
def endRun (fuel : Nat) (disableTracePadding disableFinalizeAll : Bool) (r : CairoRunner) :
    Option (Option VmError × CairoRunner) :=
  if r.runEnded then some (some .runnerCalledTwice, r)
  else match M.endRun r.vm with
    | some e => some (some e, r)
    | none =>
      if disableFinalizeAll then some (none, r)
      else
        let r := { r with vm := { r.vm with segments := r.vm.segments.computeEffectiveSizes } }
        let padded : Option (Option VmError × CairoRunner) :=
          if r.proofMode && !disableTracePadding then
            match runUntilNextPowerOfTwo M r r.vm with
            | (some e, vm) => some (some e, { r with vm })
            | (none, vm) => padLoop B M fuel { r with vm }
          else some (none, r)
        padded.map fun result => match result.1 with
          | some e => (some e, result.2)
          | none => (none, { result.2 with runEnded := true })

/-! ## Step counts -/

/-- The steps `RunForSteps` should take: `n` steps of the VM, each returning no error and none
started at the final pc. -/
inductive RunsSteps (finalPc : Option Relocatable) : Nat → VirtualMachine → VirtualMachine → Prop
  | done (vm : VirtualMachine) : RunsSteps finalPc 0 vm vm
  | step {n : Nat} {vm vm₁ vm₂ : VirtualMachine} : finalPc ≠ some vm.runContext.pc →
      M.step vm = (none, vm₁) → RunsSteps finalPc n vm₁ vm₂ → RunsSteps finalPc (n + 1) vm vm₂

/-- The loop of `RunForSteps`, when it returns no error, took its `n` steps. -/
theorem runsSteps_of_runSteps {finalPc : Option Relocatable} {n : Nat} {vm vm' : VirtualMachine}
    (h : runSteps M finalPc n vm = (none, vm')) : RunsSteps M finalPc n vm vm' := by
  induction n generalizing vm with
  | zero => cases h; exact .done _
  | succ n ih =>
    rw [runSteps] at h
    split at h
    · cases h
    split at h
    · cases h
    · exact .step ‹_› ‹_› (ih h)

/-- `RunForSteps(n)` that returns no error took `n` steps when `n` is below 2^63, and none from
2^63 on, where `int(n)` is negative. -/
theorem runForSteps_runsSteps {r : CairoRunner} {n : Nat} {vm vm' : VirtualMachine}
    (hn : n < 2 ^ 64) (h : runForSteps M r n vm = (none, vm')) :
    RunsSteps M r.finalPc (if n < 2 ^ 63 then n else 0) vm vm' := by
  rw [runForSteps] at h
  split at h
  · cases h
  · rw [← toNat_toGoInt hn]
    exact runsSteps_of_runSteps M h

/-- From 2^63 steps away on, `RunUntilSteps` returns at once, without a step. -/
theorem runUntilSteps_of_far {r : CairoRunner} {t : Nat} {vm : VirtualMachine}
    (hhint : M.hintError = none) (ht : t < 2 ^ 64) (hfar : vm.currentStep + 2 ^ 63 ≤ t) :
    runUntilSteps M r t vm = (none, vm) := by
  have hd : uintSub t vm.currentStep = t - vm.currentStep := uintSub_of_le (by omega) ht
  rw [runUntilSteps, runForSteps, hhint, hd, toNat_toGoInt (by omega), if_neg (by omega)]
  rfl

section
variable {B M}
  (hstep : ∀ vm vm', M.step vm = (none, vm') → vm'.currentStep = vm.currentStep + 1)
include hstep

theorem RunsSteps.currentStep {finalPc : Option Relocatable} {n : Nat} {vm vm' : VirtualMachine}
    (h : RunsSteps M finalPc n vm vm') : vm'.currentStep = vm.currentStep + n := by
  induction h with
  | done => rfl
  | step _ hs _ ih => rw [ih, hstep _ _ hs]; omega

theorem runSteps_ok {finalPc : Option Relocatable} (n : Nat) {vm vm' : VirtualMachine}
    (h : runSteps M finalPc n vm = (none, vm')) : vm'.currentStep = vm.currentStep + n :=
  (runsSteps_of_runSteps M h).currentStep hstep

theorem runForSteps_ok {r : CairoRunner} {steps : Nat} {vm vm' : VirtualMachine}
    (h : runForSteps M r steps vm = (none, vm')) :
    vm'.currentStep = vm.currentStep + (toGoInt steps).toNat := by
  rw [runForSteps] at h
  split at h
  · cases h
  · exact runSteps_ok hstep _ h

/-- `RunUntilSteps(t)` that returns no error reaches `t` when `t` is ahead by less than 2^63, and
otherwise takes no step. Behind the count, the `uint` distance wraps to 2^64 minus the gap: at
least 2^63 reads as a negative `int`, and less would take the count past 2^64. -/
theorem runUntilSteps_ok {r : CairoRunner} {t : Nat} {vm vm' : VirtualMachine}
    (ht : t < 2 ^ 64) (h : runUntilSteps M r t vm = (none, vm')) :
    vm'.currentStep =
      if vm.currentStep ≤ t ∧ t < vm.currentStep + 2 ^ 63 then t else vm.currentStep := by
  rw [runUntilSteps] at h
  have hd : uintSub t vm.currentStep < 2 ^ 64 := by unfold uintSub; omega
  have hcount := (runForSteps_runsSteps M hd h).currentStep hstep
  have hlt := vm'.currentStep_lt
  have hc := vm.currentStep_lt
  unfold uintSub at hcount
  split at hcount <;> split <;> omega

/-- `RunUntilNextPowerOfTwo` that returns `nil` reaches the next power of two: the distance,
below 2^63, survives the `uint` subtraction and the conversion to `int`. -/
theorem runUntilNextPowerOfTwo_ok {r : CairoRunner} {vm vm' : VirtualMachine}
    (h : runUntilNextPowerOfTwo M r vm = (none, vm')) :
    vm'.currentStep = nextPowOf2 vm.currentStep := by
  rw [runUntilNextPowerOfTwo, runUntilSteps] at h
  have hstepped := runForSteps_ok hstep h
  have hc := vm.currentStep_lt
  have hle := le_nextPowOf2 vm.currentStep
  have h64 := nextPowOf2_le (k := 64) (Nat.le_of_lt hc)
  have hgap : nextPowOf2 vm.currentStep - vm.currentStep < 2 ^ 63 := by
    rcases Nat.lt_or_ge (2 ^ 63) vm.currentStep with hbig | hsmall
    · omega
    · have h63 := nextPowOf2_le hsmall
      rcases Nat.eq_zero_or_pos vm.currentStep with h0 | h0
      · rw [h0, nextPowOf2_zero]; decide
      · omega
  have hsub : uintSub (nextPowOf2 vm.currentStep) vm.currentStep =
      nextPowOf2 vm.currentStep - vm.currentStep := by
    unfold uintSub; omega
  rw [hstepped, hsub, toGoInt_of_lt hgap, Int.toNat_ofNat]
  omega

end

/-! ## The padding loop -/

/-- Each round of the loop that does not end it pads to a new power of two; when it ends
without an error, the accounting passes on the state it ends in. -/
theorem padLoop_ok {B M}
    (hstep : ∀ vm vm', M.step vm = (none, vm') → vm'.currentStep = vm.currentStep + 1)
    (n : Nat) {r r' : CairoRunner} (h : padLoop B M n r = some (none, r'))
    (hpow : ∃ k, r.vm.currentStep = 2 ^ k) :
    (∃ k, r'.vm.currentStep = 2 ^ k) ∧ r.vm.currentStep ≤ r'.vm.currentStep ∧
      checkUsedCells B M r' r'.vm = none ∧ r'.runEnded = r.runEnded := by
  induction n generalizing r with
  | zero => cases h
  | succ n ih =>
    rw [padLoop] at h
    split at h
    · rename_i hcheck
      cases h
      exact ⟨hpow, le_rfl, hcheck, rfl⟩
    · split at h
      · split at h
        · cases h
        · rename_i vm₁ hone
          split at h
          · cases h
          · rename_i vm₂ hpad
            have h₁ := runForSteps_ok hstep hone
            have h₂ := runUntilNextPowerOfTwo_ok hstep hpad
            obtain ⟨hpow', hle, hcheck, hended⟩ :=
              ih h (by rw [h₂]; exact exists_nextPowOf2_eq _)
            refine ⟨hpow', ?_, hcheck, hended⟩
            have := le_nextPowOf2 vm₁.currentStep
            simp only at hle
            omega
      · cases h

/-- `PadRounds n r r'`: from `r`, the first `n` checks of the padding loop report insufficient
allocated cells, and the step and the padding of each of those rounds succeed, so that the loop's
next check is on `r'`. -/
inductive PadRounds (B : BuiltinImpl) (M : Machine) : Nat → CairoRunner → CairoRunner → Prop
  | done (r : CairoRunner) : PadRounds B M 0 r r
  | round {n : Nat} {r r' : CairoRunner} {e : VmError} {vm₁ vm₂ : VirtualMachine} :
      checkUsedCells B M r r.vm = some e → e.isInsufficientAllocatedCells = true →
      runForSteps M r 1 r.vm = (none, vm₁) → runUntilNextPowerOfTwo M r vm₁ = (none, vm₂) →
      PadRounds B M n { r with vm := vm₂ } r' → PadRounds B M (n + 1) r r'

/-- A check that the loop reaches within its bound and that reports an error other than
insufficient allocated cells ends the loop with that error. -/
theorem padLoop_of_padRounds {B M} {n : Nat} {r r' : CairoRunner} (h : PadRounds B M n r r')
    {fuel : Nat} (hn : n < fuel) {e : VmError} (hcheck : checkUsedCells B M r' r'.vm = some e)
    (hins : e.isInsufficientAllocatedCells = false) : padLoop B M fuel r = some (some e, r') := by
  obtain ⟨k, rfl⟩ : ∃ k, fuel = k + 1 := ⟨fuel - 1, by omega⟩
  induction h generalizing k with
  | done => simp [padLoop, hcheck, hins]
  | round hc hi h₁ h₂ _ ih =>
    rw [padLoop, hc]
    simp only [hi, if_true, h₁, h₂]
    obtain ⟨k, rfl⟩ : ∃ j, k = j + 1 := ⟨k - 1, by omega⟩
    exact ih hcheck k (by omega)

/-! ## What `EndRun` leaves alone -/

section
variable {B M}

/-- The padding loop changes the VM only. -/
theorem padLoop_frame {n : Nat} {r r' : CairoRunner} {res : Option VmError}
    (h : padLoop B M n r = some (res, r')) : r' = { r with vm := r'.vm } := by
  induction n generalizing r with
  | zero => cases h
  | succ n ih =>
    rw [padLoop] at h
    split at h
    · cases h; rfl
    split at h
    · split at h
      · cases h; rfl
      split at h
      · cases h; rfl
      · exact (ih h :)
    · cases h; rfl

/-- `EndRun` changes the VM and `RunEnded` only, and a runner whose run has ended not at
all. -/
theorem endRun_frame {fuel : Nat} {dtp dfa : Bool} {r r' : CairoRunner} {res : Option VmError}
    (h : endRun B M fuel dtp dfa r = some (res, r')) :
    r' = { r with vm := r'.vm, runEnded := r'.runEnded } ∧ (r.runEnded = true → r' = r) := by
  rw [endRun] at h
  split at h
  · cases h; exact ⟨rfl, fun _ => rfl⟩
  rename_i hnot
  refine ⟨?_, fun h' => absurd h' hnot⟩
  split at h
  · cases h; rfl
  split at h
  · cases h; rfl
  obtain ⟨⟨err, r₂⟩, hpad, hfin⟩ := Option.map_eq_some'.mp h
  have h₂ : r₂ = { r with vm := r₂.vm } := by
    split at hpad
    · split at hpad
      · cases hpad; rfl
      · exact (padLoop_frame hpad :)
    · cases hpad; rfl
  cases err <;> cases hfin <;> rw [h₂]

end

/-! ## `EndRun` in proof mode -/

theorem checkUsedCells_setRunEnded (r : CairoRunner) (vm : VirtualMachine) (v : Bool) :
    checkUsedCells B M { r with runEnded := v } vm = checkUsedCells B M r vm := rfl

section
variable {B M}

/-- A successful `EndRun` in proof mode: the run has ended, on a power of two no smaller than
the count it started from, with the accounting satisfied. -/
theorem endRun_ok_of_proofMode
    (hstep : ∀ vm vm', M.step vm = (none, vm') → vm'.currentStep = vm.currentStep + 1)
    {r r' : CairoRunner} {fuel : Nat} (hpm : r.proofMode = true)
    (h : endRun B M fuel false false r = some (none, r')) :
    r'.runEnded = true ∧ (∃ k, r'.vm.currentStep = 2 ^ k) ∧
      r.vm.currentStep ≤ r'.vm.currentStep ∧ checkUsedCells B M r' r'.vm = none := by
  rw [endRun] at h
  split at h
  · cases h
  split at h
  · cases h
  simp only [Bool.false_eq_true, if_false, hpm, Bool.not_false, Bool.and_self, if_true] at h
  split at h
  · cases h
  rename_i vm₁ hpad
  obtain ⟨⟨err, r₂⟩, hloop, hfinish⟩ := Option.map_eq_some'.mp h
  cases err with
  | some e => cases hfinish
  | none =>
    cases hfinish
    have h₁ := runUntilNextPowerOfTwo_ok hstep hpad
    obtain ⟨hpow, hle, hcheck, -⟩ :=
      padLoop_ok hstep fuel hloop (by rw [h₁]; exact exists_nextPowOf2_eq _)
    refine ⟨rfl, hpow, ?_, by rw [checkUsedCells_setRunEnded]; exact hcheck⟩
    have := le_nextPowOf2 r.vm.currentStep
    simp only at h₁ hle ⊢
    omega

/-- `EndRun` without its `disableFinalizeAll` succeeds only by ending the run. -/
theorem endRun_runEnded {r r' : CairoRunner} {fuel : Nat} {dtp : Bool}
    (h : endRun B M fuel dtp false r = some (none, r')) : r'.runEnded = true := by
  rw [endRun] at h
  split at h
  · cases h
  split at h
  · cases h
  obtain ⟨⟨err, r₂⟩, -, hfinish⟩ := Option.map_eq_some'.mp h
  cases err with
  | some e => cases hfinish
  | none => cases hfinish; rfl

/-- Outside proof mode `EndRun` takes no step: the registers and the step count stay. -/
theorem endRun_of_not_proofMode {r r' : CairoRunner} {fuel : Nat} {dtp dfa : Bool}
    {res : Option VmError} (hpm : r.proofMode = false)
    (h : endRun B M fuel dtp dfa r = some (res, r')) :
    r'.vm.runContext = r.vm.runContext ∧ r'.vm.currentStep = r.vm.currentStep := by
  rw [endRun] at h
  split at h
  · cases h; exact ⟨rfl, rfl⟩
  split at h
  · cases h; exact ⟨rfl, rfl⟩
  split at h
  · cases h; exact ⟨rfl, rfl⟩
  simp only [hpm, Bool.false_and, Bool.false_eq_true, if_false, Option.map_some'] at h
  cases h
  exact ⟨rfl, rfl⟩

end

/-- In proof mode, `EndRun` returns the first error other than insufficient allocated cells that
a check of its padding loop reports, within the loop's bound. -/
theorem endRun_of_padRounds {B M} {r r₁ : CairoRunner} {fuel n : Nat} {vm₁ : VirtualMachine}
    {e : VmError} (hpm : r.proofMode = true) (hended : r.runEnded = false)
    (hM : M.endRun r.vm = none)
    (hpad : runUntilNextPowerOfTwo M
      { r with vm := { r.vm with segments := r.vm.segments.computeEffectiveSizes } }
      { r.vm with segments := r.vm.segments.computeEffectiveSizes } = (none, vm₁))
    (h : PadRounds B M n { r with vm := vm₁ } r₁) (hn : n < fuel)
    (hcheck : checkUsedCells B M r₁ r₁.vm = some e) (hins : e.isInsufficientAllocatedCells = false) :
    endRun B M fuel false false r = some (some e, r₁) := by
  rw [endRun, if_neg (by simp [hended]), hM]
  dsimp only
  rw [if_neg Bool.false_ne_true, if_pos (by simp [hpm]), hpad]
  dsimp only
  rw [padLoop_of_padRounds h hn hcheck hins]
  rfl

theorem endRun_proof_mode (B : BuiltinImpl) (M : Machine)
    (hstep : ∀ vm vm', M.step vm = (none, vm') → vm'.currentStep = vm.currentStep + 1)
    (r : CairoRunner) (hpm : r.proofMode = true) (fuel : Nat) :
    let r₀ : CairoRunner :=
      { r with vm := { r.vm with segments := r.vm.segments.computeEffectiveSizes } }
    (∀ r', endRun B M fuel false false r = some (none, r') →
      r'.runEnded = true ∧ (∃ k, r'.vm.currentStep = 2 ^ k) ∧
        r.vm.currentStep ≤ r'.vm.currentStep ∧ checkUsedCells B M r' r'.vm = none) ∧
    (∀ vm₁ n r₁ e, r.runEnded = false → M.endRun r.vm = none →
      runUntilNextPowerOfTwo M r₀ r₀.vm = (none, vm₁) → PadRounds B M n { r with vm := vm₁ } r₁ →
      n < fuel → checkUsedCells B M r₁ r₁.vm = some e → e.isInsufficientAllocatedCells = false →
      endRun B M fuel false false r = some (some e, r₁)) ∧
    (r.runEnded = true → endRun B M fuel false false r = some (some .runnerCalledTwice, r)) :=
  ⟨fun _ h => endRun_ok_of_proofMode hstep hpm h,
    fun _ _ _ _ hended hM hpad h hn hcheck hins =>
      endRun_of_padRounds hpm hended hM hpad h hn hcheck hins,
    fun hended => by simp [endRun, hended]⟩

/-- A machine whose step only counts, and fails where the `uint` counter would wrap. -/
def countingMachine : Machine where
  step vm := if h : vm.currentStep + 1 < 2 ^ 64
    then (none, { vm with currentStep := vm.currentStep + 1, currentStep_lt := h })
    else (some (.external 0), vm)
  endRun _ := none
  hintError := none
  getMemoryHoles _ _ := .ok 0
  safeDiv a b := .ok (a / b)

theorem countingMachine_step (vm vm' : VirtualMachine) (h : countingMachine.step vm = (none, vm')) :
    vm'.currentStep = vm.currentStep + 1 := by
  simp only [countingMachine] at h
  split at h
  · cases h; rfl
  · cases h

/-- Builtin methods that report nothing and allocate nothing. -/
def silentBuiltins : BuiltinImpl where
  validationRule _ := none
  finalStack _ _ pointer := .ok (pointer, 0)
  getUsedCellsAndAllocatedSizes _ _ _ := .ok (0, 0)
  getAllocatedMemoryUnits _ _ _ := .ok 0
  getRangeCheckUsage _ _ := (none, none)
  getUsedPermRangeCheckLimits _ _ _ := .ok 0
  getUsedDilutedCheckUnits _ _ _ := 0

/-- A new proof-mode runner of the layout with 8 memory units a step and a public-memory
fraction of 4, under a counting machine: `EndRun` pads to one step, the accounting passes, and
the run ends. -/
theorem endRun_proof_mode_counting :
    let r : CairoRunner := CairoRunner.new ⟨[], [], [], 0, 0⟩ ⟨"plain", [], 4, 8, 4, none⟩ true
    let r₀ : CairoRunner :=
      { r with vm := { r.vm with segments := r.vm.segments.computeEffectiveSizes } }
    (∀ vm vm', countingMachine.step vm = (none, vm') → vm'.currentStep = vm.currentStep + 1) ∧
    r.proofMode = true ∧
    (endRun silentBuiltins countingMachine 1 false false r).map Prod.fst = some none ∧
    (∀ r', endRun silentBuiltins countingMachine 1 false false r = some (none, r') →
      r'.runEnded = true ∧ (∃ k, r'.vm.currentStep = 2 ^ k) ∧
        r.vm.currentStep ≤ r'.vm.currentStep ∧
        checkUsedCells silentBuiltins countingMachine r' r'.vm = none) ∧
    (∀ vm₁ n r₁ e, r.runEnded = false → countingMachine.endRun r.vm = none →
      runUntilNextPowerOfTwo countingMachine r₀ r₀.vm = (none, vm₁) →
      PadRounds silentBuiltins countingMachine n { r with vm := vm₁ } r₁ → n < 1 →
      checkUsedCells silentBuiltins countingMachine r₁ r₁.vm = some e →
      e.isInsufficientAllocatedCells = false →
      endRun silentBuiltins countingMachine 1 false false r = some (some e, r₁)) ∧
    (r.runEnded = true →
      endRun silentBuiltins countingMachine 1 false false r = some (some .runnerCalledTwice, r)) := by
  intro r r₀
  exact ⟨countingMachine_step, rfl, by unfold r; rfl,
    endRun_proof_mode silentBuiltins countingMachine countingMachine_step r rfl 1⟩

/-- On a new VM, under a machine that counts its steps one at a time, `RunUntilSteps(2^63)`
returns no error without a step: the distance 2^63 reads as a negative `int`. -/
theorem runUntilSteps_two_pow_63 :
    let r : CairoRunner := CairoRunner.new ⟨[], [], [], 0, 0⟩ ⟨"plain", [], 4, 4, 8, none⟩ false
    (∀ vm vm', countingMachine.step vm = (none, vm') → vm'.currentStep = vm.currentStep + 1) ∧
    VirtualMachine.new.currentStep = 0 ∧
    runUntilSteps countingMachine r (2 ^ 63) VirtualMachine.new = (none, VirtualMachine.new) ∧
    runForSteps countingMachine r (2 ^ 63) VirtualMachine.new = (none, VirtualMachine.new) := by
  intro r
  have h : runUntilSteps countingMachine r (2 ^ 63) VirtualMachine.new =
      (none, VirtualMachine.new) := runUntilSteps_of_far _ rfl (by decide) (by decide)
  refine ⟨countingMachine_step, rfl, h, ?_⟩
  rwa [runUntilSteps, uintSub_of_le (b := VirtualMachine.new.currentStep) (Nat.zero_le _)
    (by decide)] at h

/-! ## The range-check accounting -/

theorem findSome?_singleton {α β : Type} (f : α → Option β) (a : α) : [a].findSome? f = f a := by
  simp only [List.findSome?_cons, List.findSome?_nil]; split <;> simp_all

/-- Each bound `CheckRangeCheckUsage` keeps is the one the last builtin reporting it reports. -/
theorem lastRangeCheckUsage_eq (mem : Memory) (bs : List BuiltinRunner) :
    lastRangeCheckUsage B mem bs =
      (bs.reverse.findSome? fun b => (B.getRangeCheckUsage b mem).1,
        bs.reverse.findSome? fun b => (B.getRangeCheckUsage b mem).2) := by
  suffices h : ∀ acc : Option Nat × Option Nat, bs.foldl (fun acc b =>
      ((B.getRangeCheckUsage b mem).1.or acc.1, (B.getRangeCheckUsage b mem).2.or acc.2)) acc =
      ((bs.reverse.findSome? fun b => (B.getRangeCheckUsage b mem).1).or acc.1,
        (bs.reverse.findSome? fun b => (B.getRangeCheckUsage b mem).2).or acc.2) by
    simpa using h (none, none)
  induction bs with
  | nil => simp
  | cons b bs ih =>
    intro acc
    rw [List.foldl_cons, ih, List.reverse_cons, List.findSome?_append, List.findSome?_append]
    simp only [Option.or_assoc, findSome?_singleton]

/-- Without a reported minimum or a reported maximum the check passes, whatever the VM's own
offset limits. -/
theorem checkRangeCheckUsage_of_no_report {r : CairoRunner} {vm : VirtualMachine}
    (h : (lastRangeCheckUsage B r.vm.segments.memory r.vm.builtinRunners).1 = none ∨
      (lastRangeCheckUsage B r.vm.segments.memory r.vm.builtinRunners).2 = none) :
    checkRangeCheckUsage B r vm = none := by
  unfold checkRangeCheckUsage
  split
  · rename_i hl; rw [hl] at h; simp at h
  · rfl

/-- Builtin methods under which a builtin named `"range_check"` reports the offsets 0 to 10,
and every other builtin 5 to 6. -/
def twoRangeReports : BuiltinImpl :=
  { silentBuiltins with
    getRangeCheckUsage := fun b _ =>
      if b.name = "range_check" then (some 0, some 10) else (some 5, some 6) }

theorem checkRangeCheckUsage_last_report_or_no_report :
    let vm : VirtualMachine := { VirtualMachine.new with
      currentStep := 5, currentStep_lt := by decide,
      builtinRunners := [⟨"range_check", ⟨2, 0⟩, true, 8, none⟩,
        ⟨"range_check96", ⟨3, 0⟩, true, 8, none⟩] }
    let r := { CairoRunner.new ⟨[], [], [], 0, 0⟩ ⟨"plain", [], 4, 4, 8, none⟩ false with vm }
    let r' := { r with vm := { vm with rcLimitsMin := some 0, rcLimitsMax := some 10 } }
    (vm.builtinRunners.map fun b => twoRangeReports.getRangeCheckUsage b vm.segments.memory) =
        [(some 0, some 10), (some 5, some 6)] ∧
      sumBuiltins (fun b => twoRangeReports.getUsedPermRangeCheckLimits b vm.segments 5)
        vm.builtinRunners 0 = .ok 0 ∧
      ((r.layout.rcUnits : Int) - 3) * vm.currentStep - 0 < 10 - 0 ∧
      checkRangeCheckUsage twoRangeReports r vm = none ∧
    checkRangeCheckUsage silentBuiltins r' vm = none := by
  intro vm r r'
  exact ⟨rfl, rfl, by decide, rfl, checkRangeCheckUsage_of_no_report silentBuiltins (.inl rfl)⟩

/-! ## The memory and diluted accounting -/

/-- A `uint` sum of quantities that are all known, and whose total fits a `uint`, is exact. -/
theorem sumBuiltins_of_ok {f : BuiltinRunner → Except VmError Nat} {g : BuiltinRunner → Nat}
    {bs : List BuiltinRunner} {acc : Nat} (hf : ∀ b ∈ bs, g b < 2 ^ 64 → f b = .ok (g b))
    (hsum : acc + (bs.map g).sum < 2 ^ 64) :
    sumBuiltins f bs acc = .ok (acc + (bs.map g).sum) := by
  induction bs generalizing acc with
  | nil => rfl
  | cons b bs ih =>
    rw [List.map_cons, List.sum_cons] at hsum
    simp only [sumBuiltins, hf b (List.mem_cons_self _ _) (by omega), uintAdd,
      Nat.mod_eq_of_lt (by omega : acc + g b < 2 ^ 64)]
    rw [ih (fun b hb => hf b (List.mem_cons_of_mem _ hb)) (by omega), List.map_cons,
      List.sum_cons, Nat.add_assoc]

/-- The memory the accounting should find unused, over the integers: the units the steps
allocate, less the public memory's, the instructions' and the builtins'. -/
def memoryBudget (unitsPerStep fraction steps builtinUnits : Nat) : Int :=
  ((unitsPerStep * steps : Nat) : Int) - ((unitsPerStep * steps / fraction : Nat) : Int) -
    ((4 * steps : Nat) : Int) - (builtinUnits : Int)

/-- What `CheckMemoryUsage` computes when the builtins' allocations, the holes and every
partial sum are known and fit a `uint`: the integer budget modulo 2^64, so a budget below zero
wraps to nearly 2^64 and covers the holes. -/
theorem checkMemoryUsage_eq {r : CairoRunner} {vm : VirtualMachine}
    {alloc : BuiltinRunner → Nat} {holes : Nat}
    (halloc : ∀ b ∈ vm.builtinRunners,
      B.getAllocatedMemoryUnits b vm.segments vm.currentStep = .ok (alloc b))
    (hholes : M.getMemoryHoles vm.segments vm.builtinRunners.length = .ok holes)
    (hF : 0 < r.layout.publicMemoryFraction)
    (htotal : r.layout.memoryUnitsPerStep * vm.currentStep < 2 ^ 64)
    (hparts : r.layout.memoryUnitsPerStep * vm.currentStep / r.layout.publicMemoryFraction +
      4 * vm.currentStep + (vm.builtinRunners.map alloc).sum < 2 ^ 64) :
    let total := r.layout.memoryUnitsPerStep * vm.currentStep
    let unused := (memoryBudget r.layout.memoryUnitsPerStep r.layout.publicMemoryFraction
      vm.currentStep (vm.builtinRunners.map alloc).sum % 2 ^ 64).toNat
    checkMemoryUsage B M r vm =
      if total % r.layout.publicMemoryFraction ≠ 0 then
        some (.memoryUnitsNotDivisible total r.layout.publicMemoryFraction)
      else if unused < holes then some (.insufficientAllocatedCells unused holes) else none := by
  unfold checkMemoryUsage memoryBudget
  have hmul : uintMul r.layout.memoryUnitsPerStep vm.currentStep =
      r.layout.memoryUnitsPerStep * vm.currentStep := Nat.mod_eq_of_lt htotal
  have hU : 0 + (vm.builtinRunners.map alloc).sum < 2 ^ 64 :=
    lt_of_le_of_lt (by omega) (lt_of_le_of_lt (Nat.le_add_left _ _) hparts)
  rw [hmul, sumBuiltins_of_ok (fun b hb _ => halloc b hb) hU, Nat.zero_add]
  dsimp only
  generalize r.layout.memoryUnitsPerStep * vm.currentStep = T at *
  generalize T / r.layout.publicMemoryFraction = P at *
  generalize (vm.builtinRunners.map alloc).sum = U at *
  have hfour : uintMul 4 vm.currentStep = 4 * vm.currentStep := Nat.mod_eq_of_lt (by omega)
  -- the `uint` sum of the three parts is exact, and only the difference wraps
  have hsum : uintAdd (uintAdd P (4 * vm.currentStep)) U = P + 4 * vm.currentStep + U := by
    unfold uintAdd
    rw [Nat.mod_eq_of_lt (show P + 4 * vm.currentStep < 2 ^ 64 by omega),
      Nat.mod_eq_of_lt hparts]
  have hint : (T : Int) - (P + 4 * vm.currentStep + U : Nat) =
      T - P - (4 * vm.currentStep : Nat) - U := by push_cast; omega
  rw [if_neg (Nat.pos_iff_ne_zero.mp hF), hfour, hholes, hsum, uintSub, hint]

/-- The diluted units the builtins should use, over the integers: each builtin's units times
its instances, the step count over its ratio (at least 1). -/
def dilutedUsage (pool : DilutedPool) (steps : Nat) (bs : List BuiltinRunner) : Nat :=
  (bs.map fun b => B.getUsedDilutedCheckUnits b pool.spacing pool.nBits * (steps / max b.ratio 1)).sum

/-- What `CheckDilutedCheckUsage` computes when `SafeDiv` divides, the pool's units and the
builtins' usage fit a `uint`, and `1 << NBits` does not overflow: the integer budget modulo
2^64, so usage above the pool's units wraps to nearly 2^64 and passes. -/
theorem checkDilutedCheckUsage_eq {r : CairoRunner} {vm : VirtualMachine} {pool : DilutedPool}
    (hpool : r.layout.dilutedPoolInstance = some pool)
    (hdiv : ∀ a b, 0 < b → M.safeDiv a b = .ok (a / b))
    (hcap : pool.unitsPerStep * vm.currentStep < 2 ^ 64)
    (hused : dilutedUsage B pool vm.currentStep vm.builtinRunners < 2 ^ 64)
    (hbits : pool.nBits < 64) :
    let unused := ((((pool.unitsPerStep * vm.currentStep : Nat) : Int) -
      (dilutedUsage B pool vm.currentStep vm.builtinRunners : Int)) % 2 ^ 64).toNat
    checkDilutedCheckUsage B M r vm =
      if unused < 2 ^ pool.nBits then some (.insufficientAllocatedCells unused (2 ^ pool.nBits))
      else none := by
  have hunits : ∀ b ∈ vm.builtinRunners,
      B.getUsedDilutedCheckUnits b pool.spacing pool.nBits * (vm.currentStep / max b.ratio 1) <
        2 ^ 64 →
      (fun m => uintMul (B.getUsedDilutedCheckUnits b pool.spacing pool.nBits) m) <$>
        M.safeDiv vm.currentStep (if b.ratio = 0 then 1 else b.ratio) =
      .ok (B.getUsedDilutedCheckUnits b pool.spacing pool.nBits * (vm.currentStep / max b.ratio 1)) := by
    intro b _ hlt
    have hr : (if b.ratio = 0 then 1 else b.ratio) = max b.ratio 1 := by split <;> omega
    rw [hr, hdiv _ _ (by omega)]
    show Except.ok (uintMul _ _) = _
    unfold uintMul
    rw [Nat.mod_eq_of_lt hlt]
  have hbound : 2 ^ pool.nBits % 2 ^ 64 = 2 ^ pool.nBits :=
    Nat.mod_eq_of_lt (Nat.pow_lt_pow_right (by decide) hbits)
  unfold checkDilutedCheckUsage
  rw [hpool]
  dsimp only
  rw [sumBuiltins_of_ok hunits (by rw [Nat.zero_add]; exact hused), Nat.zero_add, hbound]
  unfold uintSub uintMul
  rw [Nat.mod_eq_of_lt hcap]
  rfl

/-- Builtin methods under which every builtin allocates 10 memory units and uses 20 diluted
units, and reports nothing else. -/
def overdrawingBuiltins : BuiltinImpl :=
  { silentBuiltins with
    getAllocatedMemoryUnits := fun _ _ _ => .ok 10
    getUsedDilutedCheckUnits := fun _ _ _ => 20 }

/-- One step of a layout with 8 memory units a step, a public memory fraction of 8 and one
builtin allocating 10 units: the budget is `8 - 1 - 4 - 10 = -7`, below the 0 holes, and
`CheckMemoryUsage` passes. -/
theorem checkMemoryUsage_overdrawn :
    let vm : VirtualMachine := { VirtualMachine.new with
      currentStep := 1, currentStep_lt := by decide,
      builtinRunners := [⟨"pedersen", ⟨2, 0⟩, true, 1, none⟩] }
    let r := { CairoRunner.new ⟨[], [], [], 0, 0⟩ ⟨"plain", [], 4, 8, 8, none⟩ false with vm }
    countingMachine.getMemoryHoles vm.segments vm.builtinRunners.length = .ok 0 ∧
    (vm.builtinRunners.map fun b =>
      overdrawingBuiltins.getAllocatedMemoryUnits b vm.segments vm.currentStep) = [.ok 10] ∧
    memoryBudget r.layout.memoryUnitsPerStep r.layout.publicMemoryFraction vm.currentStep 10 = -7 ∧
    checkMemoryUsage overdrawingBuiltins countingMachine r vm = none :=
  ⟨rfl, rfl, by decide, rfl⟩

/-- One step of a layout whose diluted pool has 16 units a step and `NBits = 16`, with one
builtin of ratio 1 using 20 units: the budget is `16 - 20 = -4`, below 2^16, and
`CheckDilutedCheckUsage` passes. -/
theorem checkDilutedCheckUsage_overdrawn :
    let vm : VirtualMachine := { VirtualMachine.new with
      currentStep := 1, currentStep_lt := by decide,
      builtinRunners := [⟨"bitwise", ⟨2, 0⟩, true, 1, none⟩] }
    let r := { CairoRunner.new ⟨[], [], [], 0, 0⟩
      ⟨"plain", [], 4, 8, 8, some ⟨16, 4, 16⟩⟩ false with vm }
    ((16 * vm.currentStep : Nat) : Int) -
        dilutedUsage overdrawingBuiltins ⟨16, 4, 16⟩ vm.currentStep vm.builtinRunners = -4 ∧
    checkDilutedCheckUsage overdrawingBuiltins countingMachine r vm = none :=
  ⟨by decide, rfl⟩

end CairoRunner

end CairoVm
