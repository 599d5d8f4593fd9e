import CairoVm.Vm.Step

/-!
# Calls and returns

A Cairo function is entered by `call` and left by `ret`. The `call` writes the caller's frame
below the callee's: its dst, `[ap]`, must be fp and its op0, `[ap + 1]`, the return pc, both
deduced when the cells are free (`DeduceDst`, `DeduceOp0`) and checked by `OpcodeAssertions`.
`UpdateFp` then moves fp to ap plus 2, assigning only the offset, so fp keeps its segment. The
`ret` reads the two cells back from `[fp - 2]` and `[fp - 1]`.

What a successful `RunInstruction` went through is said once (`runInstruction_of_none`,
`updateRegisters_of_none`), and from it:

* a `call` that runs leaves the caller's fp and the return pc in the two cells, also when it
  deduced them, since `Insert` writes a free cell of an allocated segment whatever error it
  then returns (`runInstruction_call`). `OpcodeAssertions` reads a felt dst as the pointer
  `(0, 0)`, so a felt at `[ap]` passes against an fp of `(0, 0)`, which is excluded;
* a `ret` that runs where the two cells hold pointers takes them as fp and pc
  (`runInstruction_ret`);
* memory is write-once, so the frame outlives every run of the callee, and a `ret` run at the
  callee's frame returns to the caller's pc with the caller's fp (`call_ret`). The frame is
  where `ret` looks for it only when fp and ap share a segment.
-/

namespace CairoVm

/-- A `call` whose frame is the two cells at ap (`call rel` or `call abs` to an immediate):
dst is `[ap]`, op0 `[ap + 1]`, op1 the immediate, and fp moves to ap plus 2. -/
structure Instruction.IsCall (i : Instruction) : Prop where
  opcode : i.opcode = .call
  dstReg : i.dstReg = .ap
  off0 : i.off0 = 0
  op0Reg : i.op0Reg = .ap
  off1 : i.off1 = 1
  op1Addr : i.op1Addr = .imm
  off2 : i.off2 = 1
  fpUpdate : i.fpUpdate = .apPlus2

/-- `ret`: dst is `[fp - 2]`, op1 `[fp - 1]` and res is op1; pc jumps to res and fp takes
dst. -/
structure Instruction.IsRet (i : Instruction) : Prop where
  opcode : i.opcode = .ret
  dstReg : i.dstReg = .fp
  off0 : i.off0 = -2
  op1Addr : i.op1Addr = .fp
  off2 : i.off2 = -1
  resLogic : i.resLogic = .op1
  pcUpdate : i.pcUpdate = .jump
  fpUpdate : i.fpUpdate = .dst

/-! ## Frame addresses -/

theorem Relocatable.addOffset_ofNat (r : Relocatable) (n : Nat) (h : r.offset + n < 2 ^ 64) :
    r.addOffset n = .ok ⟨r.segmentIndex, r.offset + n⟩ := by
  rw [Relocatable.addOffset, if_neg (by omega), Int.toNat_ofNat, Relocatable.addUint, uintAdd,
    Nat.mod_eq_of_lt h]

theorem Relocatable.addOffset_neg (r : Relocatable) (n : Nat) (hn : 0 < n) (h : n ≤ r.offset) :
    r.addOffset (-n) = .ok ⟨r.segmentIndex, r.offset - n⟩ := by
  rw [Relocatable.addOffset, if_pos (by omega), Int.natAbs_neg, Int.natAbs_ofNat,
    Relocatable.subUint, if_neg (by omega)]

/-! ## What a successful instruction went through -/

/-- A call's assertions: op0 is the return pc, and dst, read as a pointer with a felt as
`(0, 0)`, is fp. -/
theorem opcodeAssertions_call {rc : RunContext} {i : Instruction} {operands : Operands}
    (hi : i.opcode = .call) (h : opcodeAssertions rc i operands = none) :
    operands.op0 = .relocatable (rc.pc.addUint i.size) ∧
      operands.dst.getRelocatable.getD ⟨0, 0⟩ = rc.fp := by
  unfold opcodeAssertions at h
  rw [hi] at h
  split_ifs at h with h0 h1
  exact ⟨not_not.mp h0, (not_not.mp h1).symm⟩

/-- Outside `assert_eq`, `DeduceOp0` deduces no res. -/
theorem deduceOp0_res_of_ne_assertEq {rc : RunContext} {i : Instruction}
    {dst op1 op0 : Option MaybeRelocatable} {r : MaybeRelocatable} (hi : i.opcode ≠ .assertEq) :
    deduceOp0 rc i dst op1 ≠ .ok (op0, some r) := by
  unfold deduceOp0
  split <;> simp_all

/-- A successful update of the registers: fp, then ap from the new fp, then pc. -/
theorem updateRegisters_of_none {rc rc' : RunContext} {i : Instruction} {operands : Operands}
    (h : updateRegisters rc i operands = (none, rc')) :
    updateFp rc i operands = .ok rc'.fp ∧ updateAp { rc with fp := rc'.fp } i operands = .ok rc'.ap ∧
      updatePc { rc with fp := rc'.fp, ap := rc'.ap } i operands = .ok rc'.pc := by
  unfold updateRegisters at h
  split at h
  · cases h
  dsimp only at h
  split at h
  · cases h
  split at h
  · cases h
  · cases h
    exact ⟨‹_›, ‹_›, ‹_›⟩

namespace VmState
variable {σ : Type} (deduce : BuiltinDeduction σ)

/-- What a successful `RunInstruction` went through. -/
theorem runInstruction_of_none {st st' : VmState σ} {i : Instruction}
    (h : st.runInstruction deduce i = (none, st')) :
    ∃ operands st₁ rc, st.computeOperands deduce i = (.ok operands, st₁) ∧
      opcodeAssertions st.vm.runContext i operands = none ∧
      updateRegisters st.vm.runContext i operands = (none, rc) ∧
      st'.memory = st₁.memory ∧ st'.vm.runContext = rc := by
  unfold runInstruction at h
  have hf := computeOperands_frame deduce st i
  split at h <;> rename_i hc <;> rw [hc] at hf
  · cases h
  split at h
  · cases h
  rename_i ha
  rw [hf.runContext] at ha h
  split at h <;> rename_i hu
  · cases h
  · cases h
    exact ⟨_, _, _, hc, ha, hu, rfl, rfl⟩

/-- Operands memory holds are returned as they are, and outside `assert_eq` res is what
`ComputeRes` makes of the operands. -/
theorem computeOperands_of_held {st st' : VmState σ} {i : Instruction} {operands : Operands}
    (h : st.computeOperands deduce i = (.ok operands, st')) {dstAddr op1Addr : Relocatable}
    (hdst : st.vm.runContext.computeDstAddr i = .ok dstAddr)
    (hop1 : ∀ op0, st.vm.runContext.computeOp1Addr i op0 = .ok op1Addr)
    {d o : MaybeRelocatable} (hd : st.memory.data.lookup dstAddr = some d)
    (ho : st.memory.data.lookup op1Addr = some o) (hi : i.opcode ≠ .assertEq) :
    operands.dst = d ∧ operands.op1 = o ∧ computeRes i operands.op0 o = .ok operands.res := by
  obtain ⟨dstAddr', _, op1Addr', res₀, _, _, hdst', -, hop1', h0, h1, hres, hdv⟩ :=
    computeOperands_ok deduce h
  obtain rfl := Except.ok.inj (hdst.symm.trans hdst')
  obtain rfl := Except.ok.inj ((hop1 _).symm.trans hop1')
  rw [Memory.get_toOption _ op1Addr, ho] at h1
  rw [Memory.get_toOption, hd] at hdv
  obtain rfl : o = operands.op1 := by cases h1; rfl
  refine ⟨?_, rfl, ?_⟩
  · rcases hdv with ⟨hdv, -⟩ | ⟨hdv, -⟩ <;> cases hdv
    rfl
  · cases res₀ with
    | some r => exact absurd (op0OrDeductions_res deduce h0) (deduceOp0_res_of_ne_assertEq hi)
    | none => exact hres

/-! ## The frame -/

/-- A `call` that runs leaves the caller's fp at `[ap]` and the return pc at `[ap + 1]`, and
moves fp to ap plus 2, in fp's segment. -/
theorem runInstruction_call {st st' : VmState σ} {c : Instruction} (hc : c.IsCall)
    (h : st.runInstruction deduce c = (none, st')) (hfp : st.vm.runContext.fp ≠ ⟨0, 0⟩)
    (hap : st.vm.runContext.ap.offset + 2 < 2 ^ 64)
    (hpc : st.vm.runContext.pc.segmentIndex ≠ st.vm.runContext.ap.segmentIndex)
    (hseg : st.vm.runContext.ap.segmentIndex < st.memory.numSegments) :
    st'.memory.data.lookup st.vm.runContext.ap = some (.relocatable st.vm.runContext.fp) ∧
      st'.memory.data.lookup ⟨st.vm.runContext.ap.segmentIndex, st.vm.runContext.ap.offset + 1⟩ =
        some (.relocatable (st.vm.runContext.pc.addUint c.size)) ∧
      st'.vm.runContext.fp =
        ⟨st.vm.runContext.fp.segmentIndex, st.vm.runContext.ap.offset + 2⟩ := by
  obtain ⟨operands, st₁, rc, hco, ha, hu, hmem, hrc⟩ := runInstruction_of_none deduce h
  have hdst : st.vm.runContext.computeDstAddr c = .ok st.vm.runContext.ap := by
    rw [RunContext.computeDstAddr, RunContext.computeRegAddr, hc.dstReg, hc.off0, RunContext.register]
    exact Relocatable.addOffset_ofNat _ 0 (by omega)
  have hop0 : st.vm.runContext.computeOp0Addr c =
      .ok ⟨st.vm.runContext.ap.segmentIndex, st.vm.runContext.ap.offset + 1⟩ := by
    rw [RunContext.computeOp0Addr, RunContext.computeRegAddr, hc.op0Reg, hc.off1, RunContext.register]
    exact Relocatable.addOffset_ofNat _ 1 (by omega)
  have hop1 : ∀ op0, st.vm.runContext.computeOp1Addr c op0 = .ok (st.vm.runContext.pc.addUint 1) := by
    intro op0
    simp only [RunContext.computeOp1Addr, hc.op1Addr, hc.off2, if_true]
    rfl
  have hne : ∀ {a b : Relocatable}, a.segmentIndex ≠ b.segmentIndex → a ≠ b :=
    fun h e => h (congrArg Relocatable.segmentIndex e)
  have ld := computeOperands_lookup_dst deduce hco hdst hop0 (hop1 _)
    (fun e => by simpa using congrArg Relocatable.offset e) (hne (Ne.symm hpc)) hseg
  have l0 := computeOperands_lookup_op0 deduce hco hop0 hseg
  obtain ⟨hop0v, hdstv⟩ := opcodeAssertions_call hc.opcode ha
  have hdstr : operands.dst = .relocatable st.vm.runContext.fp := by
    cases hd : operands.dst with
    | felt f => rw [hd] at hdstv; exact absurd hdstv.symm hfp
    | relocatable r => rw [hd] at hdstv; exact congrArg _ hdstv
  obtain ⟨hfpu, -, -⟩ := updateRegisters_of_none hu
  rw [updateFp, hc.fpUpdate] at hfpu
  refine ⟨?_, ?_, ?_⟩
  · rw [hmem, ld, hdstr]
  · rw [hmem, l0, hop0v]
  · rw [hrc, ← Except.ok.inj hfpu, uintAdd, Nat.mod_eq_of_lt (by omega)]

/-- A `ret` that runs where memory holds pointers at `[fp - 2]` and `[fp - 1]` takes the first
as fp and jumps to the second. -/
theorem runInstruction_ret {st st' : VmState σ} {r : Instruction} (hr : r.IsRet)
    (h : st.runInstruction deduce r = (none, st')) (hfp : 2 ≤ st.vm.runContext.fp.offset)
    {fp pc : Relocatable}
    (hd : st.memory.data.lookup
      ⟨st.vm.runContext.fp.segmentIndex, st.vm.runContext.fp.offset - 2⟩ = some (.relocatable fp))
    (ho : st.memory.data.lookup
      ⟨st.vm.runContext.fp.segmentIndex, st.vm.runContext.fp.offset - 1⟩ = some (.relocatable pc)) :
    st'.vm.runContext.pc = pc ∧ st'.vm.runContext.fp = fp := by
  obtain ⟨operands, st₁, rc, hco, -, hu, -, hrc⟩ := runInstruction_of_none deduce h
  have hdst : st.vm.runContext.computeDstAddr r =
      .ok ⟨st.vm.runContext.fp.segmentIndex, st.vm.runContext.fp.offset - 2⟩ := by
    rw [RunContext.computeDstAddr, RunContext.computeRegAddr, hr.dstReg, hr.off0, RunContext.register]
    exact Relocatable.addOffset_neg _ 2 (by decide) hfp
  have hop1 : ∀ op0, st.vm.runContext.computeOp1Addr r op0 =
      .ok ⟨st.vm.runContext.fp.segmentIndex, st.vm.runContext.fp.offset - 1⟩ := by
    intro op0
    simp only [RunContext.computeOp1Addr, hr.op1Addr, hr.off2]
    exact Relocatable.addOffset_neg _ 1 (by decide) (by omega)
  obtain ⟨hdv, -, hres⟩ := computeOperands_of_held deduce hco hdst hop1 hd ho
    (by rw [hr.opcode]; decide)
  rw [computeRes, hr.resLogic] at hres
  obtain ⟨hfpu, -, hpcu⟩ := updateRegisters_of_none hu
  rw [updateFp, hr.fpUpdate, hdv] at hfpu
  rw [updatePc, hr.pcUpdate, ← Except.ok.inj hres] at hpcu
  exact ⟨hrc ▸ (Except.ok.inj hpcu).symm, hrc ▸ (Except.ok.inj hfpu).symm⟩

/-- The calling convention, across any run of the callee. A `call` that runs writes the
caller's fp and the return pc below the new frame; memory is write-once, so a `ret` that runs
later at that frame, after any steps of the callee that end with fp back there, jumps to the
return pc and restores the caller's fp. -/
theorem call_ret {st₀ st₁ st₂ st₃ : VmState σ} {c r : Instruction} (hc : c.IsCall) (hr : r.IsRet)
    (hcall : st₀.runInstruction deduce c = (none, st₁)) (hrun : Reaches deduce st₁ st₂)
    (hframe : st₂.vm.runContext.fp = st₁.vm.runContext.fp)
    (hret : st₂.runInstruction deduce r = (none, st₃))
    (hfp : st₀.vm.runContext.fp.segmentIndex = st₀.vm.runContext.ap.segmentIndex)
    (hfp0 : st₀.vm.runContext.fp ≠ ⟨0, 0⟩) (hap : st₀.vm.runContext.ap.offset + 2 < 2 ^ 64)
    (hpc : st₀.vm.runContext.pc.segmentIndex ≠ st₀.vm.runContext.ap.segmentIndex)
    (hseg : st₀.vm.runContext.ap.segmentIndex < st₀.memory.numSegments) :
    st₃.vm.runContext.pc = st₀.vm.runContext.pc.addUint c.size ∧
      st₃.vm.runContext.fp = st₀.vm.runContext.fp := by
  obtain ⟨ld, l0, hfp₁⟩ := runInstruction_call deduce hc hcall hfp0 hap hpc hseg
  have hext : st₁.memory.Extends st₂.memory :=
    hrun.memoryInvariant deduce (J := fun m => st₁.memory.Extends m)
      (fun m a v h => h.trans (Memory.extends_insert m a v)) (Memory.Extends.refl _)
  have hfp₂ : st₂.vm.runContext.fp =
      ⟨st₀.vm.runContext.ap.segmentIndex, st₀.vm.runContext.ap.offset + 2⟩ := by
    rw [hframe, hfp₁, hfp]
  refine runInstruction_ret deduce hr hret (by rw [hfp₂]; exact Nat.le_add_left 2 _) ?_ ?_ <;> rw [hfp₂]
  · exact hext _ _ ld
  · exact hext _ _ l0

/-- `call rel 3` from `(0, 0)`, one step of the callee (`[ap] = 2; ap++` at `(0, 3)`), and
`ret`. -/
theorem call_ret_rel :
    let st₀ : VmState Unit := ⟨{ VirtualMachine.new with
      runContext := ⟨⟨0, 0⟩, ⟨1, 2⟩, ⟨1, 2⟩⟩
      segments := { MemorySegmentManager.empty with
        memory := { Memory.empty with
          data := [(⟨0, 1⟩, .felt (Felt.ofNat 3)), (⟨0, 3⟩, .felt (Felt.ofNat 0x480680017fff8000)),
            (⟨0, 4⟩, .felt (Felt.ofNat 2))]
          numSegments := 2 } } }, [], ()⟩
    let c : Instruction := ⟨0, 1, 1, .ap, .ap, .imm, .op1, .jumpRel, .add2, .apPlus2, .call⟩
    let r : Instruction := ⟨-2, -1, -1, .fp, .fp, .fp, .op1, .jump, .regular, .dst, .ret⟩
    let st₁ : VmState Unit := (st₀.runInstruction .silent c).2
    let st₂ : VmState Unit := (st₁.step .silent).2
    let st₃ : VmState Unit := (st₂.runInstruction .silent r).2
    st₃.vm.runContext.pc = st₀.vm.runContext.pc.addUint c.size ∧
      st₃.vm.runContext.fp = st₀.vm.runContext.fp := by
  intro st₀ c r st₁ st₂ st₃
  exact @call_ret Unit .silent st₀ st₁ st₂ st₃ c r
    ⟨rfl, rfl, rfl, rfl, rfl, rfl, rfl, rfl⟩ ⟨rfl, rfl, rfl, rfl, rfl, rfl, rfl, rfl⟩
    (Prod.ext (by unfold st₀ c; rfl) (by unfold st₁; dsimp only))
    (.step (Prod.ext (by unfold st₁ st₀ c; rfl) (by unfold st₂; dsimp only)) (.refl _))
    (by unfold st₂ st₁ st₀ c; rfl)
    (Prod.ext (by unfold st₂ st₁ st₀ c r; rfl) (by unfold st₃; dsimp only))
    (by unfold st₀; decide) (by unfold st₀; decide) (by unfold st₀; decide)
    (by unfold st₀; decide) (by unfold st₀; decide)

end VmState

end CairoVm
