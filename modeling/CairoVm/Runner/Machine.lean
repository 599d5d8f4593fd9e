import CairoVm.Runner.Run
import CairoVm.Vm.Step

/-!
# The runner over the modelled VM

The runner reaches the VM through `Machine.step`, since the `Step` it calls, with the hint
processor, is not in the repository's files. The README's `Step` is, and it is the machine of a
program without hints (`VmState.vmStep`), for builtins that keep no state of their own. The
runner's VM has no trace field: the trace sits beside it in `VmState`.

That is sound because `Step` writes the trace and never reads it: from another trace, every
function of the step fails or not alike and leaves the same VM and builtins
(`computeOperands_withTrace`, `step_withTrace`). So a successful step of the machine is one of
the VM from whatever trace the run has built (`vmStep_step`), and a successful `RunUntilPC` over
the modelled VM is a run of the VM, ending at the end pointer, that changes nothing of the
runner but its VM (`runUntilPC_reaches`). Every invariant the VM keeps along its runs holds of
the runner's VM across `RunUntilPC`.
-/

namespace CairoVm

/-! ## The trace is never read -/

namespace VmState
variable {σ : Type} (deduce : BuiltinDeduction σ)

/-- `st` with the trace `t`. -/
def withTrace (st : VmState σ) (t : List TraceEntry) : VmState σ := { st with trace := t }

theorem computeOp0Deductions_withTrace (st : VmState σ) (t : List TraceEntry) (a : Relocatable)
    (i : Instruction) (dst op1 : Option MaybeRelocatable) :
    (st.withTrace t).computeOp0Deductions deduce a i dst op1 =
      ((st.computeOp0Deductions deduce a i dst op1).1,
        (st.computeOp0Deductions deduce a i dst op1).2.withTrace t) := by
  unfold computeOp0Deductions
  dsimp only [withTrace, VmState.deduceMemoryCell, VmState.memory]
  split
  · rfl
  · split <;> rfl

theorem computeOp1Deductions_withTrace (st : VmState σ) (t : List TraceEntry) (a : Relocatable)
    (i : Instruction) (dst op0 : Option MaybeRelocatable) :
    (st.withTrace t).computeOp1Deductions deduce a i dst op0 =
      ((st.computeOp1Deductions deduce a i dst op0).1,
        (st.computeOp1Deductions deduce a i dst op0).2.withTrace t) := by
  unfold computeOp1Deductions
  dsimp only [withTrace, VmState.deduceMemoryCell, VmState.memory]
  split
  · rfl
  · split <;> rfl

theorem op0OrDeductions_withTrace (st : VmState σ) (t : List TraceEntry) (a : Relocatable)
    (i : Instruction) (dst op0Op op1Op : Option MaybeRelocatable) :
    (st.withTrace t).op0OrDeductions deduce a i dst op0Op op1Op =
      ((st.op0OrDeductions deduce a i dst op0Op op1Op).1,
        (st.op0OrDeductions deduce a i dst op0Op op1Op).2.withTrace t) := by
  unfold op0OrDeductions
  split
  · rfl
  · exact computeOp0Deductions_withTrace deduce st t a i dst op1Op

theorem op1OrDeductions_withTrace (st : VmState σ) (t : List TraceEntry) (a : Relocatable)
    (i : Instruction) (dst op0Op op1Op : Option MaybeRelocatable) :
    (st.withTrace t).op1OrDeductions deduce a i dst op0Op op1Op =
      ((st.op1OrDeductions deduce a i dst op0Op op1Op).1,
        (st.op1OrDeductions deduce a i dst op0Op op1Op).2.withTrace t) := by
  unfold op1OrDeductions
  split
  · rfl
  · exact computeOp1Deductions_withTrace deduce st t a i dst op0Op

theorem computeOperands_withTrace (st : VmState σ) (t : List TraceEntry) (i : Instruction) :
    (st.withTrace t).computeOperands deduce i =
      ((st.computeOperands deduce i).1, (st.computeOperands deduce i).2.withTrace t) := by
  unfold computeOperands
  have hm : (st.withTrace t).memory = st.memory := rfl
  have hrc : (st.withTrace t).vm.runContext = st.vm.runContext := rfl
  simp only [hm, hrc]
  split
  · rfl
  split
  · rfl
  split
  · rfl
  rw [op0OrDeductions_withTrace]
  rcases h0 : st.op0OrDeductions deduce _ i _ _ _ with ⟨_ | ⟨op0, res⟩, st₁⟩
  · rfl
  dsimp only
  rw [op1OrDeductions_withTrace]
  rcases h1 : st₁.op1OrDeductions deduce _ i _ _ _ with ⟨_ | op1, st₂⟩
  · rfl
  dsimp only
  split
  · rfl
  split
  · rfl
  · split <;> rfl

/-- The trace is written, never read: a run of an instruction from another trace fails or not
alike and leaves the same VM and builtins. -/
theorem runInstruction_withTrace (st : VmState σ) (t : List TraceEntry) (i : Instruction) :
    ((st.withTrace t).runInstruction deduce i).1 = (st.runInstruction deduce i).1 ∧
      ((st.withTrace t).runInstruction deduce i).2.vm = (st.runInstruction deduce i).2.vm ∧
      ((st.withTrace t).runInstruction deduce i).2.builtins = (st.runInstruction deduce i).2.builtins := by
  unfold runInstruction
  rw [computeOperands_withTrace]
  rcases st.computeOperands deduce i with ⟨_ | operands, st₁⟩
  · exact ⟨rfl, rfl, rfl⟩
  dsimp only [withTrace]
  split
  · exact ⟨rfl, rfl, rfl⟩
  split <;> exact ⟨rfl, rfl, rfl⟩

theorem step_withTrace (st : VmState σ) (t : List TraceEntry) :
    ((st.withTrace t).step deduce).1 = (st.step deduce).1 ∧
      ((st.withTrace t).step deduce).2.vm = (st.step deduce).2.vm ∧
      ((st.withTrace t).step deduce).2.builtins = (st.step deduce).2.builtins := by
  unfold step
  have hm : (st.withTrace t).memory = st.memory := rfl
  have hrc : (st.withTrace t).vm.runContext = st.vm.runContext := rfl
  simp only [hm, hrc]
  split
  · exact ⟨rfl, rfl, rfl⟩
  · exact ⟨rfl, rfl, rfl⟩
  split
  · exact ⟨rfl, rfl, rfl⟩
  split
  · exact ⟨rfl, rfl, rfl⟩
  · exact runInstruction_withTrace deduce st t _

end VmState

/-- The runner's `Machine.step` as the modelled VM's `Step`, for builtins that keep no state of
their own: the VM steps with its trace kept apart. -/
def VmState.vmStep (deduce : BuiltinDeduction Unit) (vm : VirtualMachine) :
    Option VmError × VirtualMachine :=
  let r := (⟨vm, [], ()⟩ : VmState Unit).step deduce
  (r.1, r.2.vm)

namespace CairoRunner

variable (deduce : BuiltinDeduction Unit)

/-! ## `RunUntilPC` over the VM -/

/-- A successful step of the machine is a successful step of the VM, from any trace. -/
theorem vmStep_step {vm vm' : VirtualMachine} (h : VmState.vmStep deduce vm = (none, vm'))
    (t : List TraceEntry) :
    ∃ t', (⟨vm, t, ()⟩ : VmState Unit).step deduce = (none, ⟨vm', t', ()⟩) := by
  obtain ⟨h1, h2, -⟩ := VmState.step_withTrace deduce ⟨vm, [], ()⟩ t
  have he : ((⟨vm, [], ()⟩ : VmState Unit).step deduce).1 = none := congrArg Prod.fst h
  have hv : ((⟨vm, [], ()⟩ : VmState Unit).step deduce).2.vm = vm' := congrArg Prod.snd h
  exact ⟨_, Prod.ext (h1.trans he) (congrArg (fun v => (⟨v, _, ()⟩ : VmState Unit)) (h2.trans hv))⟩

/-- `RunUntilPC`'s loop over the modelled VM is a run of the VM: from the VM it starts with,
whatever the trace, successful steps reach the VM it returns, which is at the end pointer. -/
theorem stepUntilPc_reaches {M : Machine} (hM : M.step = VmState.vmStep deduce)
    {end_ : Relocatable} {fuel : Nat} {vm vm' : VirtualMachine}
    (h : stepUntilPc M end_ fuel vm = some (none, vm')) (t : List TraceEntry) :
    vm'.runContext.pc = end_ ∧ ∃ t', VmState.Reaches deduce ⟨vm, t, ()⟩ ⟨vm', t', ()⟩ := by
  induction fuel generalizing vm t with
  | zero =>
    rw [stepUntilPc] at h
    split at h
    · cases h; exact ⟨‹_›, t, .refl _⟩
    · cases h
  | succ fuel ih =>
    rw [stepUntilPc] at h
    split at h
    · cases h; exact ⟨‹_›, t, .refl _⟩
    rw [hM] at h
    split at h
    · cases h
    rename_i vm₁ hs
    obtain ⟨t₁, hs'⟩ := vmStep_step deduce hs t
    obtain ⟨hpc, t', hr⟩ := ih h t₁
    exact ⟨hpc, t', .step hs' hr⟩

/-- `RunUntilPC` over the modelled VM: a successful call changes nothing of the runner but its
VM, which is at the end pointer and which successful steps of the VM reach from the runner's VM,
whatever the trace. -/
theorem runUntilPC_reaches {M : Machine} (hM : M.step = VmState.vmStep deduce) {fuel : Nat}
    {end_ : Relocatable} {r r' : CairoRunner} (h : runUntilPC M fuel end_ r = some (none, r'))
    (t : List TraceEntry) :
    r' = { r with vm := r'.vm } ∧ r'.vm.runContext.pc = end_ ∧
      ∃ t', VmState.Reaches deduce ⟨r.vm, t, ()⟩ ⟨r'.vm, t', ()⟩ := by
  unfold runUntilPC at h
  split at h
  · cases h
  obtain ⟨⟨_, vm⟩, hloop, hres⟩ := Option.map_eq_some'.mp h
  cases hres
  exact ⟨rfl, stepUntilPc_reaches deduce hM hloop t⟩

/-- `RunUntilPC((0, 2))` from `assertTwoVm`: one step of the VM. -/
theorem runUntilPC_reaches_assertTwo :
    let r : CairoRunner :=
      { CairoRunner.new ⟨[], [], [], 0, 2⟩ ⟨"plain", [], 4, 8, 4, none⟩ false with vm := assertTwoVm }
    let r' : CairoRunner := { r with vm := assertTwoNextVm }
    r' = { r with vm := r'.vm } ∧ r'.vm.runContext.pc = ⟨0, 2⟩ ∧
      ∃ t', VmState.Reaches .silent ⟨r.vm, [], ()⟩ ⟨r'.vm, t', ()⟩ := by
  intro r r'
  exact @runUntilPC_reaches .silent
    ⟨VmState.vmStep .silent, fun _ => none, none, fun _ _ => .ok 0, fun _ _ => .ok 0⟩ rfl 1 ⟨0, 2⟩
    r r' (by unfold r' r; rfl) []

end CairoRunner

end CairoVm
