import CairoVm.Vm.Operands

/-!
# The step

`Step` of the README's walkthrough fetches the word at pc, decodes it and runs it:
`RunInstruction` computes the operands, checks the opcode's assertions, appends the
registers to the trace, updates the registers and counts the step. A failure at any point
ends the step with what was already done in place: the cells the operands' deductions wrote,
the trace entry, and the registers updated before the failing one.

What a step can do is said once (`step_cases`, `runInstruction_cases`), and over every run
of steps the VM keeps these invariants, each proved for one step and carried along the run by
induction on `Reaches`:

* memory is write-once: no step, successful or not, changes or removes a cell
  (`Reaches.memory_extends`), every property of memory that `Insert` keeps is kept
  (`Reaches.memoryInvariant`), and each step the trace records writes three cells at most
  (`Reaches.writesAtMost`);
* no segment is added, and a cell a run adds lies in an allocated segment, or a temporary one
  (`Reaches.cells_allocated`);
* `ap` never leaves its segment (`Reaches.ap_segmentIndex`);
* the trace only grows, by one entry for each counted step (`Reaches.trace_append`), and what it
  records is the registers of the states the run steps from, in order (`Reaches.trace_states`).
  A step that fails counts nothing, and it leaves one entry behind when it failed while
  updating the registers (`step_trace_of_error`);
* offsets stay Go `uint`s: from registers and memory values below 2^64, with builtins that
  deduce such values, every register and memory value stays below 2^64 (`Reaches.fits`), and
  every property of memory and the builtins' own state that adding cells and deducing keep
  holds all along (`Reaches.builtinInvariant`).

An `assert_eq` whose assertion passes has res, recomputed from the operands, equal to dst, also
when the operands' deductions filled res in (`computeOperands_assertEq`).

`UpdateRegisters` is not in the repository's files: following the spec (§4.3) it updates
fp, ap and pc in that order, each from the registers as the earlier updates leave them, so
that a call's new fp is the old ap plus 2.
-/

namespace CairoVm

/-! ## Register updates -/

/-- `UpdatePc`. -/
def updatePc (rc : RunContext) (i : Instruction) (operands : Operands) : Except VmError Relocatable :=
  match i.pcUpdate with
  | .regular => .ok ⟨rc.pc.segmentIndex, uintAdd rc.pc.offset i.size⟩
  | .jump =>
    match operands.res with
    | none => .error .unconstrainedResJump
    | some res =>
      match res.getRelocatable with
      | some r => .ok r
      | none => .error .jumpResNotRelocatable
  | .jumpRel =>
    match operands.res with
    | none => .error .unconstrainedResJumpRel
    | some res =>
      match res.getFelt with
      | some f => rc.pc.addFelt f
      | none => .error .jumpRelResNotFelt
  | .jnz =>
    if operands.dst.isZero then .ok ⟨rc.pc.segmentIndex, uintAdd rc.pc.offset i.size⟩
    else rc.pc.addMaybeRelocatable operands.op1

/-- `UpdateFp`: a call's fp is the old ap's offset plus 2, kept in fp's segment; a return's
is dst, a pointer, or fp plus dst, a felt. -/
def updateFp (rc : RunContext) (i : Instruction) (operands : Operands) : Except VmError Relocatable :=
  match i.fpUpdate with
  | .apPlus2 => .ok ⟨rc.fp.segmentIndex, uintAdd rc.ap.offset 2⟩
  | .dst =>
    match operands.dst with
    | .relocatable r => .ok r
    | .felt f => rc.fp.addFelt f
  | .regular => .ok rc.fp

/-- `UpdateAp`. -/
def updateAp (rc : RunContext) (i : Instruction) (operands : Operands) : Except VmError Relocatable :=
  match i.apUpdate with
  | .add =>
    match operands.res with
    | none => .error .unconstrainedResAdd
    | some res => rc.ap.addMaybeRelocatable res
  | .add1 => .ok ⟨rc.ap.segmentIndex, uintAdd rc.ap.offset 1⟩
  | .add2 => .ok ⟨rc.ap.segmentIndex, uintAdd rc.ap.offset 2⟩
  | .regular => .ok rc.ap

/-- Modelled from the spec: `UpdateRegisters` updates fp, then ap, then pc, and stops at the
first failure with the registers updated so far (§4.3). -/
def updateRegisters (rc : RunContext) (i : Instruction) (operands : Operands) :
    Option VmError × RunContext :=
  match updateFp rc i operands with
  | .error e => (some e, rc)
  | .ok fp =>
    let rc := { rc with fp := fp }
    match updateAp rc i operands with
    | .error e => (some e, rc)
    | .ok ap =>
      let rc := { rc with ap := ap }
      match updatePc rc i operands with
      | .error e => (some e, rc)
      | .ok pc => (none, { rc with pc := pc })

theorem updateAp_segmentIndex {rc : RunContext} {i : Instruction} {operands : Operands}
    {ap : Relocatable} (h : updateAp rc i operands = .ok ap) : ap.segmentIndex = rc.ap.segmentIndex := by
  unfold updateAp at h
  split at h
  · split at h
    · cases h
    · exact Relocatable.addMaybeRelocatable_segmentIndex h
  all_goals cases h; rfl

/-- Updating the registers never moves ap to another segment, whether it succeeds or not. -/
theorem updateRegisters_ap_segmentIndex (rc : RunContext) (i : Instruction) (operands : Operands) :
    (updateRegisters rc i operands).2.ap.segmentIndex = rc.ap.segmentIndex := by
  unfold updateRegisters
  split
  · rfl
  dsimp only
  split
  · rfl
  · have := updateAp_segmentIndex ‹_›
    split <;> exact this

section
variable {rc : RunContext} (hrc : rc.Fits) {i : Instruction} {operands : Operands}
  (hops : operands.Fits)
include hrc hops

omit hrc in
theorem updatePc_fits {pc : Relocatable} (h : updatePc rc i operands = .ok pc) : pc.offset < 2 ^ 64 := by
  unfold updatePc at h
  split at h
  · cases h; exact Relocatable.addUint_offset_lt _ _
  · split at h
    · cases h
    · split at h
      · rename_i res hres _ _ hr
        cases res with
        | felt => cases hr
        | relocatable => cases hr; cases h; exact hops.2.1 _ hres
      · cases h
  · split at h
    · cases h
    · split at h
      · exact Relocatable.addFelt_offset_lt h
      · cases h
  · split at h
    · cases h; exact Relocatable.addUint_offset_lt _ _
    · exact Relocatable.addMaybeRelocatable_offset_lt h

theorem updateFp_fits {fp : Relocatable} (h : updateFp rc i operands = .ok fp) : fp.offset < 2 ^ 64 := by
  unfold updateFp at h
  split at h
  · cases h; exact Relocatable.addUint_offset_lt _ _
  · split at h
    · rename_i hd
      cases h
      have := hops.1
      rw [hd] at this
      exact this
    · exact Relocatable.addFelt_offset_lt h
  · cases h; exact hrc.2.2

omit hops in
theorem updateAp_fits {ap : Relocatable} (h : updateAp rc i operands = .ok ap) : ap.offset < 2 ^ 64 := by
  unfold updateAp at h
  split at h
  · split at h
    · cases h
    · exact Relocatable.addMaybeRelocatable_offset_lt h
  · cases h; exact Relocatable.addUint_offset_lt _ _
  · cases h; exact Relocatable.addUint_offset_lt _ _
  · cases h; exact hrc.2.1

/-- The registers stay in `uint` range, whether the update succeeds or not. -/
theorem updateRegisters_fits : (updateRegisters rc i operands).2.Fits := by
  unfold updateRegisters
  split
  · exact hrc
  rename_i fp hfp
  have hrc₁ : RunContext.Fits { rc with fp := fp } := ⟨hrc.1, hrc.2.1, updateFp_fits hrc hops hfp⟩
  dsimp only
  split
  · exact hrc₁
  rename_i ap hap
  have hrc₂ : RunContext.Fits { rc with fp := fp, ap := ap } :=
    ⟨hrc.1, updateAp_fits hrc₁ hap, hrc₁.2.2⟩
  split
  · exact hrc₂
  · exact ⟨updatePc_fits hops ‹_›, hrc₂.2⟩

end

/-! ## Assertions -/

/-- `OpcodeAssertions`: an `assert_eq` needs a res equal to dst; a call needs op0 to be the
return pc and dst the frame pointer, where a felt dst reads as the pointer `(0, 0)`. -/
def opcodeAssertions (rc : RunContext) (i : Instruction) (operands : Operands) : Option VmError :=
  match i.opcode with
  | .assertEq =>
    match operands.res with
    | none => some .unconstrainedResAssertEq
    | some res => if res ≠ operands.dst then some .diffAssertValues else none
  | .call =>
    if operands.op0 ≠ .relocatable (rc.pc.addUint i.size) then some .cantWriteReturnPc
    else if rc.fp ≠ operands.dst.getRelocatable.getD ⟨0, 0⟩ then some .cantWriteReturnFp
    else none
  | _ => none

/-- For an `assert_eq` whose assertion passes, res recomputed from the operands is `dst`, also
when res was the one `DeduceOp0` deduced and `ComputeRes` never ran. A deduced op0 takes
`dst`'s pointer below 2^64 and, under a multiplicative res, op1 a unit of the field. -/
theorem computeOperands_assertEq {σ : Type} (deduce : BuiltinDeduction σ) {st st' : VmState σ}
    {i : Instruction} {operands : Operands} (hi : i.opcode = .assertEq)
    (h : st.computeOperands deduce i = (.ok operands, st'))
    (hassert : opcodeAssertions st.vm.runContext i operands = none)
    (hdst : ∀ r, operands.dst = .relocatable r → r.offset < 2 ^ 64)
    (hunit : i.resLogic = .mul → ∀ f, operands.op1 = .felt f → Nat.Coprime f.val PRIME) :
    computeRes i operands.op0 operands.op1 = .ok (some operands.dst) := by
  have hres : operands.res = some operands.dst := by
    simp only [opcodeAssertions, hi] at hassert
    split at hassert
    · cases hassert
    · rw [‹operands.res = _›]
      simpa using hassert
  obtain ⟨_, _, _, res₀, _, _, -, -, -, h0, h1, hr, hd⟩ := VmState.computeOperands_ok deduce h
  cases res₀ with
  | none => exact hres ▸ hr
  | some r =>
    -- res came from `DeduceOp0`, which read `dst` and op1 from memory
    have hded := VmState.op0OrDeductions_res deduce h0
    obtain ⟨d, o, hdo, ho⟩ := deduceOp0_some_res hded
    rw [ho] at h1 hded
    rw [hdo] at hded
    obtain rfl : o = operands.op1 := by cases h1; rfl
    obtain rfl : d = operands.dst := by
      rcases hd with ⟨hd, -⟩ | ⟨hd, -⟩ <;> rw [hdo] at hd <;> cases hd
      rfl
    exact (deduceOp0_computeRes hi hded hdst hunit).2

/-- `[ap] = 0; ap++`, whose op1 is the felt 0. -/
theorem computeOperands_assertEq_imm :
    computeRes ⟨0, -1, 1, .ap, .fp, .imm, .op1, .regular, .add1, .regular, .assertEq⟩
      (.felt (Felt.ofNat 0)) (.felt (Felt.ofNat 0)) = .ok (some (.felt (Felt.ofNat 0))) :=
  @computeOperands_assertEq Unit (fun _ _ _ s => .ok (none, s))
    ⟨{ VirtualMachine.new with
      runContext := ⟨⟨0, 0⟩, ⟨1, 1⟩, ⟨1, 1⟩⟩
      segments := { MemorySegmentManager.empty with
        memory := { Memory.empty with
          data := [(⟨0, 1⟩, .felt (Felt.ofNat 0)), (⟨1, 0⟩, .felt (Felt.ofNat 0))]
          numSegments := 2 } } }, [], ()⟩ _
    ⟨0, -1, 1, .ap, .fp, .imm, .op1, .regular, .add1, .regular, .assertEq⟩
    ⟨.felt (Felt.ofNat 0), some (.felt (Felt.ofNat 0)), .felt (Felt.ofNat 0), .felt (Felt.ofNat 0)⟩
    rfl rfl rfl (fun _ h => nomatch h) (fun h => nomatch h)

/-! ## A VM to step -/

/-- A VM at `[ap] = 2; ap++` (`0x480680017fff8000`, its immediate after it), with
`ap = fp = (1, 2)` above two cells of segment 1. -/
def assertTwoVm : VirtualMachine :=
  { VirtualMachine.new with
    runContext := ⟨⟨0, 0⟩, ⟨1, 2⟩, ⟨1, 2⟩⟩
    segments := { MemorySegmentManager.empty with
      memory := { Memory.empty with
        data := [(⟨0, 0⟩, .felt (Felt.ofNat 0x480680017fff8000)), (⟨0, 1⟩, .felt (Felt.ofNat 2)),
          (⟨1, 0⟩, .felt (Felt.ofNat 0)), (⟨1, 1⟩, .felt (Felt.ofNat 0))]
        numSegments := 2 } } }

/-- `assertTwoVm` after its step: 2 written at `(1, 2)`, ap one cell up, pc past the
immediate. -/
def assertTwoNextVm : VirtualMachine :=
  { assertTwoVm with
    runContext := ⟨⟨0, 2⟩, ⟨1, 3⟩, ⟨1, 2⟩⟩
    currentStep := 1, currentStep_lt := by decide
    segments := { assertTwoVm.segments with
      memory := { assertTwoVm.segments.memory with
        data := (⟨1, 2⟩, .felt (Felt.ofNat 2)) :: assertTwoVm.segments.memory.data } } }

/-! ## Running an instruction -/

namespace VmState

variable {σ : Type}

/-- The registers set to `rc`. -/
def setRunContext (st : VmState σ) (rc : RunContext) : VmState σ :=
  { st with vm := { st.vm with runContext := rc } }

/-- `CurrentStep++`, wrapping at 2^64. -/
def incrementStep (st : VmState σ) : VmState σ :=
  { st with vm := { st.vm with
      currentStep := (st.vm.currentStep + 1) % 2 ^ 64
      currentStep_lt := Nat.mod_lt _ (by decide) } }

/-- Go's `uint` offsets: registers and memory values below 2^64. -/
def Fits (st : VmState σ) : Prop := st.vm.runContext.Fits ∧ st.memory.Fits

/-- The registers as a trace entry. -/
def traceEntry (st : VmState σ) : TraceEntry :=
  ⟨st.vm.runContext.pc, st.vm.runContext.ap, st.vm.runContext.fp⟩

/-- The registers appended to the trace. -/
def appendTrace (st : VmState σ) : VmState σ := { st with trace := st.trace ++ [st.traceEntry] }

@[simp] theorem setRunContext_memory (st : VmState σ) (rc : RunContext) :
    (st.setRunContext rc).memory = st.memory := rfl

@[simp] theorem setRunContext_runContext (st : VmState σ) (rc : RunContext) :
    (st.setRunContext rc).vm.runContext = rc := rfl

@[simp] theorem setRunContext_trace (st : VmState σ) (rc : RunContext) :
    (st.setRunContext rc).trace = st.trace := rfl

@[simp] theorem setRunContext_currentStep (st : VmState σ) (rc : RunContext) :
    (st.setRunContext rc).vm.currentStep = st.vm.currentStep := rfl

@[simp] theorem incrementStep_memory (st : VmState σ) : st.incrementStep.memory = st.memory := rfl

@[simp] theorem incrementStep_runContext (st : VmState σ) :
    st.incrementStep.vm.runContext = st.vm.runContext := rfl

@[simp] theorem incrementStep_trace (st : VmState σ) : st.incrementStep.trace = st.trace := rfl

@[simp] theorem incrementStep_currentStep (st : VmState σ) :
    st.incrementStep.vm.currentStep = (st.vm.currentStep + 1) % 2 ^ 64 := rfl

@[simp] theorem appendTrace_memory (st : VmState σ) : st.appendTrace.memory = st.memory := rfl

@[simp] theorem appendTrace_runContext (st : VmState σ) :
    st.appendTrace.vm.runContext = st.vm.runContext := rfl

@[simp] theorem appendTrace_currentStep (st : VmState σ) :
    st.appendTrace.vm.currentStep = st.vm.currentStep := rfl

@[simp] theorem appendTrace_trace (st : VmState σ) : st.appendTrace.trace = st.trace ++ [st.traceEntry] :=
  rfl

@[simp] theorem appendTrace_traceEntry (st : VmState σ) : st.appendTrace.traceEntry = st.traceEntry := rfl

@[simp] theorem setRunContext_traceEntry (st : VmState σ) (rc : RunContext) :
    (st.setRunContext rc).traceEntry = ⟨rc.pc, rc.ap, rc.fp⟩ := rfl

section
variable (deduce : BuiltinDeduction σ)

/-- `RunInstruction`: operands, assertions, the trace entry, the registers, the count. -/
def runInstruction (st : VmState σ) (i : Instruction) : Option VmError × VmState σ :=
  match st.computeOperands deduce i with
  | (.error e, st) => (some e, st)
  | (.ok operands, st) =>
    match opcodeAssertions st.vm.runContext i operands with
    | some e => (some e, st)
    | none =>
      match updateRegisters st.vm.runContext i operands with
      | (some e, rc) => (some e, st.appendTrace.setRunContext rc)
      | (none, rc) => (none, (st.appendTrace.setRunContext rc).incrementStep)

/-- `Step`: the word at pc must be a felt that fits 64 bits and decodes. -/
def step (st : VmState σ) : Option VmError × VmState σ :=
  let pc := st.vm.runContext.pc
  match st.memory.get pc with
  | .error _ => (some (.failedToFetchInstruction pc), st)
  | .ok (.relocatable _) => (some .wrongInstructionEncoding, st)
  | .ok (.felt f) =>
    match f.toU64 with
    | none => (some (.feltToU64 f), st)
    | some w =>
      match decodeInstruction w with
      | .error e => (some e, st)
      | .ok i => st.runInstruction deduce i

/-- The states a VM reaches by successful steps. -/
inductive Reaches : VmState σ → VmState σ → Prop
  | refl (st : VmState σ) : Reaches st st
  | step {st st' st'' : VmState σ} : st.step deduce = (none, st') → Reaches st' st'' →
      Reaches st st''

/-! ## What a step can do -/

/-- Running an instruction ends in one of three ways. It fails while computing the operands
or checking the assertions, with only what computing the operands did. Or it updates the
registers after appending the trace entry, and counts the step when the update succeeds. -/
theorem runInstruction_cases {st st' : VmState σ} {i : Instruction} {e : Option VmError}
    (h : st.runInstruction deduce i = (e, st')) :
    ∃ r st₁, st.computeOperands deduce i = (r, st₁) ∧ OperandsFrame st st₁ ∧ ((e.isSome ∧ st' = st₁) ∨
      ∃ operands rc, r = .ok operands ∧ updateRegisters st.vm.runContext i operands = (e, rc) ∧
        ((e.isSome ∧ st' = st₁.appendTrace.setRunContext rc) ∨
          (e = none ∧ st' = (st₁.appendTrace.setRunContext rc).incrementStep))) := by
  unfold runInstruction at h
  have hf := computeOperands_frame deduce st i
  split at h <;> rename_i hc <;> rw [hc] at hf
  · cases h
    exact ⟨_, _, hc, hf, .inl ⟨rfl, rfl⟩⟩
  refine ⟨_, _, hc, hf, ?_⟩
  split at h
  · cases h
    exact .inl ⟨rfl, rfl⟩
  rw [← hf.runContext]
  split at h <;> rename_i hu <;> cases h
  · exact .inr ⟨_, _, rfl, hu, .inl ⟨rfl, rfl⟩⟩
  · exact .inr ⟨_, _, rfl, hu, .inr ⟨rfl, rfl⟩⟩

/-- A step fails on fetching or decoding the instruction with the state untouched, or runs
the instruction. -/
theorem step_cases {st st' : VmState σ} {e : Option VmError} (h : st.step deduce = (e, st')) :
    (e.isSome ∧ st' = st) ∨ ∃ i, st.runInstruction deduce i = (e, st') := by
  unfold step at h
  dsimp only at h
  split at h
  · cases h; exact .inl ⟨rfl, rfl⟩
  · cases h; exact .inl ⟨rfl, rfl⟩
  split at h
  · cases h; exact .inl ⟨rfl, rfl⟩
  split at h
  · cases h; exact .inl ⟨rfl, rfl⟩
  · exact .inr ⟨_, h⟩

/-- No step changes a cell, whether it succeeds or fails. -/
theorem step_memory_extends {st st' : VmState σ} {e : Option VmError} (h : st.step deduce = (e, st')) :
    st.memory.Extends st'.memory := by
  obtain ⟨-, rfl⟩ | ⟨i, h⟩ := step_cases deduce h
  · exact .refl _
  obtain ⟨_, st₁, -, hf, ⟨-, rfl⟩ | ⟨_, _, -, -, ⟨-, rfl⟩ | ⟨-, rfl⟩⟩⟩ := runInstruction_cases deduce h
  all_goals exact hf.memory

/-- A step changes memory only through `Insert`. -/
theorem step_memoryInvariant {J : Memory → Prop} (hJ : ∀ m a v, J m → J (m.insert a v).2)
    {st st' : VmState σ} {e : Option VmError} (h : st.step deduce = (e, st')) (hj : J st.memory) :
    J st'.memory := by
  obtain ⟨-, rfl⟩ | ⟨i, h⟩ := step_cases deduce h
  · exact hj
  obtain ⟨_, st₁, -, hf, ⟨-, rfl⟩ | ⟨_, _, -, -, ⟨-, rfl⟩ | ⟨-, rfl⟩⟩⟩ := runInstruction_cases deduce h
  all_goals exact hf.memoryInvariant hJ hj

/-- A step writes three cells at most. -/
theorem step_writesAtMost {st st' : VmState σ} {e : Option VmError} (h : st.step deduce = (e, st')) :
    WritesAtMost st st' 3 := by
  obtain ⟨-, rfl⟩ | ⟨i, h⟩ := step_cases deduce h
  · exact .refl _ 3
  obtain ⟨_, st₁, hc, -, ⟨-, rfl⟩ | ⟨_, _, -, -, ⟨-, rfl⟩ | ⟨-, rfl⟩⟩⟩ := runInstruction_cases deduce h
  all_goals
    have hw := computeOperands_writesAtMost deduce st i
    rw [hc] at hw
    exact hw

theorem step_ap_segmentIndex {st st' : VmState σ} {e : Option VmError} (h : st.step deduce = (e, st')) :
    st'.vm.runContext.ap.segmentIndex = st.vm.runContext.ap.segmentIndex := by
  obtain ⟨-, rfl⟩ | ⟨i, h⟩ := step_cases deduce h
  · rfl
  obtain ⟨_, st₁, -, hf, ⟨-, rfl⟩ | ⟨operands, _, -, hu, ⟨-, rfl⟩ | ⟨-, rfl⟩⟩⟩ := runInstruction_cases deduce h
  · rw [hf.runContext]
  all_goals
    have := updateRegisters_ap_segmentIndex st.vm.runContext i operands
    rw [hu] at this
    exact this

/-- A successful step appends the registers it started from and counts itself. -/
theorem step_trace_of_ok {st st' : VmState σ} (h : st.step deduce = (none, st')) :
    st'.trace = st.trace ++ [st.traceEntry] ∧
      st'.vm.currentStep = (st.vm.currentStep + 1) % 2 ^ 64 := by
  obtain ⟨⟨⟩, -⟩ | ⟨i, h⟩ := step_cases deduce h
  obtain ⟨_, st₁, -, hf, ⟨⟨⟩, -⟩ | ⟨_, _, -, -, ⟨⟨⟩, -⟩ | ⟨-, rfl⟩⟩⟩ := runInstruction_cases deduce h
  simp [traceEntry, hf.trace, hf.runContext, hf.currentStep]

/-- A step that fails counts nothing, and leaves at most the trace entry of the instruction it
failed on. -/
theorem step_trace_of_error {st st' : VmState σ} {err : VmError} (h : st.step deduce = (some err, st')) :
    st'.vm.currentStep = st.vm.currentStep ∧
      (st'.trace = st.trace ∨ st'.trace = st.trace ++ [st.traceEntry]) := by
  obtain ⟨-, rfl⟩ | ⟨i, h⟩ := step_cases deduce h
  · exact ⟨rfl, .inl rfl⟩
  obtain ⟨_, st₁, -, hf, ⟨-, rfl⟩ | ⟨_, _, -, -, ⟨-, rfl⟩ | ⟨⟨⟩, -⟩⟩⟩ := runInstruction_cases deduce h
  · exact ⟨hf.currentStep, .inl hf.trace⟩
  · simp [traceEntry, hf.trace, hf.runContext, hf.currentStep]

/-- `jmp abs 5`: the pc update fails on a felt target after the trace entry is written. -/
theorem step_trace_of_error_jump :
    let st : VmState Unit := ⟨{ VirtualMachine.new with
      runContext := ⟨⟨0, 0⟩, ⟨1, 2⟩, ⟨1, 2⟩⟩
      segments := { MemorySegmentManager.empty with
        memory := { Memory.empty with
          data := [(⟨0, 0⟩, .felt (Felt.ofNat 0x008780017fff7ffe)), (⟨0, 1⟩, .felt (Felt.ofNat 5)),
            (⟨1, 0⟩, .felt (Felt.ofNat 0)), (⟨1, 1⟩, .felt (Felt.ofNat 0))]
          numSegments := 2 } } }, [], ()⟩
    let st' : VmState Unit := (st.step fun _ _ _ s => .ok (none, s)).2
    st'.vm.currentStep = st.vm.currentStep ∧
      (st'.trace = st.trace ∨ st'.trace = st.trace ++ [st.traceEntry]) :=
  @step_trace_of_error Unit (fun _ _ _ s => .ok (none, s)) _ _ .jumpResNotRelocatable rfl

/-- From registers and memory values that fit, a step, successful or not, keeps them fitting
and keeps every builtin invariant, when the builtins deduce values that fit. -/
theorem step_fits (hd : DeductionFits deduce) {st st' : VmState σ} {e : Option VmError}
    (h : st.step deduce = (e, st')) (hst : st.Fits) :
    st'.vm.runContext.Fits ∧ FitsFrame deduce st st' := by
  obtain ⟨-, rfl⟩ | ⟨i, h⟩ := step_cases deduce h
  · exact ⟨hst.1, .refl hst.2⟩
  obtain ⟨_, st₁, hc, hf, ⟨-, rfl⟩ | ⟨operands, rc, rfl, hu, ⟨-, rfl⟩ | ⟨-, rfl⟩⟩⟩ :=
    runInstruction_cases deduce h
  all_goals obtain ⟨f, hops⟩ := computeOperands_fits deduce hd hst.1 hst.2 hc
  · exact ⟨hf.runContext ▸ hst.1, f⟩
  all_goals
    have hrc := updateRegisters_fits hst.1 (i := i) (hops _ rfl)
    rw [hu] at hrc
    exact ⟨hrc, f.memory, f.builtins⟩

/-! ## Runs -/

theorem assertTwo_step : (⟨assertTwoVm, [], ()⟩ : VmState Unit).step .silent =
    (none, ⟨assertTwoNextVm, [⟨⟨0, 0⟩, ⟨1, 2⟩, ⟨1, 2⟩⟩], ()⟩) := rfl

/-- The run of one step of `assertTwoVm`. -/
theorem assertTwo_reaches : Reaches .silent (⟨assertTwoVm, [], ()⟩ : VmState Unit)
    ⟨assertTwoNextVm, [⟨⟨0, 0⟩, ⟨1, 2⟩, ⟨1, 2⟩⟩], ()⟩ :=
  .step assertTwo_step (.refl _)

/-- Write-once memory: every cell of a state holds the same value in every state a run
reaches from it. -/
theorem Reaches.memory_extends {st st' : VmState σ} (h : Reaches deduce st st') :
    st.memory.Extends st'.memory := by
  induction h with
  | refl => exact .refl _
  | step hs _ ih => exact (step_memory_extends deduce hs).trans ih

theorem Reaches.memory_extends_assertTwo :
    assertTwoVm.segments.memory.Extends assertTwoNextVm.segments.memory :=
  Reaches.memory_extends .silent assertTwo_reaches

/-- Every property of memory that `Insert` keeps holds along a run from a state where it
holds. -/
theorem Reaches.memoryInvariant {J : Memory → Prop} (hJ : ∀ m a v, J m → J (m.insert a v).2)
    {st st' : VmState σ} (h : Reaches deduce st st') (hj : J st.memory) : J st'.memory := by
  induction h with
  | refl => exact hj
  | step hs _ ih => exact ih (step_memoryInvariant deduce hJ hs hj)

/-- Along every run, memory changes at three addresses at most for each step the trace
records: the cells of its dst, op0 and op1. -/
theorem Reaches.writesAtMost {st st' : VmState σ} (h : Reaches deduce st st') :
    ∃ l : List TraceEntry, st'.trace = st.trace ++ l ∧ WritesAtMost st st' (3 * l.length) := by
  induction h with
  | refl st => exact ⟨[], (List.append_nil _).symm, .refl st _⟩
  | @step st₀ _ _ hs _ ih =>
    obtain ⟨l, hl, hw⟩ := ih
    have hlen : 3 + 3 * l.length ≤ 3 * ([st₀.traceEntry] ++ l).length := by
      rw [List.length_append, List.length_singleton]
      omega
    exact ⟨[st₀.traceEntry] ++ l, by rw [hl, (step_trace_of_ok deduce hs).1, List.append_assoc],
      ((step_writesAtMost deduce hs).trans hw).mono hlen⟩

theorem Reaches.writesAtMost_assertTwo :
    ∃ l : List TraceEntry, [⟨⟨0, 0⟩, ⟨1, 2⟩, ⟨1, 2⟩⟩] = [] ++ l ∧
      WritesAtMost (⟨assertTwoVm, [], ()⟩ : VmState Unit)
        ⟨assertTwoNextVm, [⟨⟨0, 0⟩, ⟨1, 2⟩, ⟨1, 2⟩⟩], ()⟩ (3 * l.length) :=
  Reaches.writesAtMost .silent assertTwo_reaches

/-- The VM adds no segment, and writes only into allocated segments, or temporary ones of
negative index, which `Insert` does not refuse: along every run, a cell memory did not hold
lies in a segment below `numSegments`. -/
theorem Reaches.cells_allocated {st st' : VmState σ} (h : Reaches deduce st st') :
    st'.memory.numSegments = st.memory.numSegments ∧
      ∀ a, (st'.memory.data.lookup a).isSome →
        (st.memory.data.lookup a).isSome ∨ a.segmentIndex < st.memory.numSegments := by
  refine h.memoryInvariant deduce (J := fun m => m.numSegments = st.memory.numSegments ∧
    ∀ a, (m.data.lookup a).isSome → (st.memory.data.lookup a).isSome ∨
      a.segmentIndex < st.memory.numSegments) ?_ ⟨rfl, fun _ => .inl⟩
  rintro m addr v ⟨hn, hm⟩
  refine ⟨(Memory.insert_numSegments m addr v).trans hn, fun a ha => ?_⟩
  rcases Memory.lookup_insert_isSome ha with ha | ⟨rfl, hseg⟩
  · exact hm a ha
  · exact .inr (hn ▸ hseg)

theorem Reaches.cells_allocated_assertTwo :
    assertTwoNextVm.segments.memory.numSegments = assertTwoVm.segments.memory.numSegments ∧
      ∀ a, (assertTwoNextVm.segments.memory.data.lookup a).isSome →
        (assertTwoVm.segments.memory.data.lookup a).isSome ∨
          a.segmentIndex < assertTwoVm.segments.memory.numSegments :=
  Reaches.cells_allocated .silent assertTwo_reaches

/-- Offsets stay Go `uint`s: along a run from registers and memory values below 2^64, with
builtins that deduce such values, every register and memory value stays below 2^64. -/
theorem Reaches.fits (hd : DeductionFits deduce) {st st' : VmState σ} (h : Reaches deduce st st')
    (hst : st.Fits) : st'.Fits := by
  induction h with
  | refl => exact hst
  | step hs _ ih =>
    have := step_fits deduce hd hs hst
    exact ih ⟨this.1, this.2.memory⟩

theorem Reaches.fits_assertTwo :
    (⟨assertTwoNextVm, [⟨⟨0, 0⟩, ⟨1, 2⟩, ⟨1, 2⟩⟩], ()⟩ : VmState Unit).Fits :=
  Reaches.fits .silent (fun h => by cases h) assertTwo_reaches
    ⟨⟨by decide, by decide, by decide⟩, Memory.fits_of_cells (by simp [VmState.memory, assertTwoVm, MaybeRelocatable.Fits])⟩

/-- Every builtin invariant holds along a run from a state where it holds and offsets fit. -/
theorem Reaches.builtinInvariant (hd : DeductionFits deduce) {I : Memory → σ → Prop}
    (hI : BuiltinInvariant deduce I) {st st' : VmState σ} (h : Reaches deduce st st')
    (hst : st.Fits) (hi : I st.memory st.builtins) : I st'.memory st'.builtins := by
  induction h with
  | refl => exact hi
  | step hs _ ih =>
    have := step_fits deduce hd hs hst
    exact ih ⟨this.1, this.2.memory⟩ (this.2.builtins hI hi)

/-- A run never moves ap to another segment. -/
theorem Reaches.ap_segmentIndex {st st' : VmState σ} (h : Reaches deduce st st') :
    st'.vm.runContext.ap.segmentIndex = st.vm.runContext.ap.segmentIndex := by
  induction h with
  | refl => rfl
  | step hs _ ih => exact ih.trans (step_ap_segmentIndex deduce hs)

theorem Reaches.ap_segmentIndex_assertTwo :
    assertTwoNextVm.runContext.ap.segmentIndex = assertTwoVm.runContext.ap.segmentIndex :=
  Reaches.ap_segmentIndex .silent assertTwo_reaches

/-- A run only appends to the trace, and counts one step for each entry it appends, the count
wrapping at 2^64. -/
theorem Reaches.trace_append {st st' : VmState σ} (h : Reaches deduce st st') :
    ∃ l : List TraceEntry, st'.trace = st.trace ++ l ∧
      st'.vm.currentStep = (st.vm.currentStep + l.length) % 2 ^ 64 := by
  induction h with
  | refl st => exact ⟨[], by simp, by simpa using (Nat.mod_eq_of_lt st.vm.currentStep_lt).symm⟩
  | step hs _ ih =>
    obtain ⟨l, hl, hc⟩ := ih
    obtain ⟨ht, hc'⟩ := step_trace_of_ok deduce hs
    refine ⟨[_] ++ l, by rw [hl, ht, List.append_assoc], ?_⟩
    rw [hc, hc', List.length_append, List.length_singleton]
    omega

theorem Reaches.trace_append_assertTwo :
    ∃ l : List TraceEntry, [⟨⟨0, 0⟩, ⟨1, 2⟩, ⟨1, 2⟩⟩] = [] ++ l ∧
      assertTwoNextVm.currentStep = (assertTwoVm.currentStep + l.length) % 2 ^ 64 :=
  Reaches.trace_append .silent assertTwo_reaches

/-- The trace is the run's history of registers: the entries a run appends are the registers of
the states it steps from, in order, each stepping successfully to the next and the last to the
run's end. -/
theorem Reaches.trace_states {st st' : VmState σ} (h : Reaches deduce st st') :
    ∃ sts : List (VmState σ), st'.trace = st.trace ++ sts.map traceEntry ∧
      ((sts = [] ∧ st' = st) ∨
        ∃ rest, sts = st :: rest ∧ List.Chain (fun s t => s.step deduce = (none, t)) st (rest ++ [st'])) := by
  induction h with
  | refl st => exact ⟨[], by simp, .inl ⟨rfl, rfl⟩⟩
  | @step st st₁ st' hs _ ih =>
    obtain ⟨sts, ht, hc⟩ := ih
    refine ⟨st :: sts, by rw [ht, (step_trace_of_ok deduce hs).1]; simp, .inr ⟨sts, rfl, ?_⟩⟩
    rcases hc with ⟨rfl, rfl⟩ | ⟨rest, rfl, hc⟩
    · exact .cons hs .nil
    · exact .cons hs hc

theorem Reaches.trace_states_assertTwo :
    ∃ sts : List (VmState Unit), [⟨⟨0, 0⟩, ⟨1, 2⟩, ⟨1, 2⟩⟩] = [] ++ sts.map traceEntry ∧
      ((sts = [] ∧ (⟨assertTwoNextVm, [⟨⟨0, 0⟩, ⟨1, 2⟩, ⟨1, 2⟩⟩], ()⟩ : VmState Unit) =
          ⟨assertTwoVm, [], ()⟩) ∨
        ∃ rest, sts = ⟨assertTwoVm, [], ()⟩ :: rest ∧
          List.Chain (fun s t => s.step .silent = (none, t)) ⟨assertTwoVm, [], ()⟩
            (rest ++ [⟨assertTwoNextVm, [⟨⟨0, 0⟩, ⟨1, 2⟩, ⟨1, 2⟩⟩], ()⟩])) :=
  Reaches.trace_states .silent assertTwo_reaches

end

end VmState

end CairoVm
