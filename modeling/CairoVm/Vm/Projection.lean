import CairoVm.Vm.Step

/-!
# Projecting the builtins' state

`Step` reaches the builtins' own state only through their deductions: it hands the state to
`DeduceMemoryCell` and keeps what comes back. So a VM whose builtins keep more state than the
code's, and deduce as the code's do on the part the code keeps, steps as the code's VM does on
that part (`step_mapBuiltins`). The extra state is ghost state: it records the run without
changing it, and every run of the code's VM lifts to a run of the richer one from any extension
of its first state (`Reaches.lift`).

The pedersen runner's deductions, with a log of the offsets they deduced, are such a richer
state (`PedersenBuiltinRunner.loggedDeduction`).
-/

namespace CairoVm

namespace VmState

variable {σ τ : Type}

/-- The state with the builtins' state mapped by `f`. -/
def mapBuiltins (f : τ → σ) (st : VmState τ) : VmState σ := ⟨st.vm, st.trace, f st.builtins⟩

@[simp] theorem mapBuiltins_vm (f : τ → σ) (st : VmState τ) : (st.mapBuiltins f).vm = st.vm := rfl

@[simp] theorem mapBuiltins_trace (f : τ → σ) (st : VmState τ) :
    (st.mapBuiltins f).trace = st.trace := rfl

@[simp] theorem mapBuiltins_builtins (f : τ → σ) (st : VmState τ) :
    (st.mapBuiltins f).builtins = f st.builtins := rfl

@[simp] theorem mapBuiltins_memory (f : τ → σ) (st : VmState τ) :
    (st.mapBuiltins f).memory = st.memory := rfl

section
variable {deduce : BuiltinDeduction σ} {deduce' : BuiltinDeduction τ} {f : τ → σ}
  (hf : ∀ b a m s, (fun r => (r.1, f r.2)) <$> deduce' b a m s = deduce b a m (f s))
include hf

theorem deduceMemoryCell_mapBuiltins (st : VmState τ) (a : Relocatable) :
    (st.mapBuiltins f).deduceMemoryCell deduce a =
      (fun r => (r.1, f r.2)) <$> st.deduceMemoryCell deduce' a := by
  unfold deduceMemoryCell
  simp only [mapBuiltins_vm, mapBuiltins_memory, mapBuiltins_builtins]
  split
  · exact (hf _ _ _ _).symm
  · rfl

theorem computeOp0Deductions_mapBuiltins (st : VmState τ) (a : Relocatable) (i : Instruction)
    (dst op1 : Option MaybeRelocatable) :
    (st.mapBuiltins f).computeOp0Deductions deduce a i dst op1 =
      Prod.map id (mapBuiltins f) (st.computeOp0Deductions deduce' a i dst op1) := by
  unfold computeOp0Deductions
  rw [deduceMemoryCell_mapBuiltins hf]
  rcases st.deduceMemoryCell deduce' a with _ | ⟨_ | op0, s⟩
  · rfl
  · simp only [Functor.map, Except.map, mapBuiltins_vm]
    rcases deduceOp0 st.vm.runContext i dst op1 with _ | ⟨_ | op0, res⟩ <;> rfl
  · rfl

theorem computeOp1Deductions_mapBuiltins (st : VmState τ) (a : Relocatable) (i : Instruction)
    (dst op0 : Option MaybeRelocatable) :
    (st.mapBuiltins f).computeOp1Deductions deduce a i dst op0 =
      Prod.map id (mapBuiltins f) (st.computeOp1Deductions deduce' a i dst op0) := by
  unfold computeOp1Deductions
  rw [deduceMemoryCell_mapBuiltins hf]
  rcases st.deduceMemoryCell deduce' a with _ | ⟨_ | op1, s⟩
  · rfl
  · simp only [Functor.map, Except.map]
    rcases deduceOp1 i dst op0 with _ | ⟨_ | op1, res⟩ <;> rfl
  · rfl

theorem op0OrDeductions_mapBuiltins (st : VmState τ) (a : Relocatable) (i : Instruction)
    (dst op0Op op1Op : Option MaybeRelocatable) :
    (st.mapBuiltins f).op0OrDeductions deduce a i dst op0Op op1Op =
      Prod.map id (mapBuiltins f) (st.op0OrDeductions deduce' a i dst op0Op op1Op) := by
  unfold op0OrDeductions
  split
  · rfl
  · exact computeOp0Deductions_mapBuiltins hf st a i dst op1Op

theorem op1OrDeductions_mapBuiltins (st : VmState τ) (a : Relocatable) (i : Instruction)
    (dst op0Op op1Op : Option MaybeRelocatable) :
    (st.mapBuiltins f).op1OrDeductions deduce a i dst op0Op op1Op =
      Prod.map id (mapBuiltins f) (st.op1OrDeductions deduce' a i dst op0Op op1Op) := by
  unfold op1OrDeductions
  split
  · rfl
  · exact computeOp1Deductions_mapBuiltins hf st a i dst op0Op

theorem computeOperands_mapBuiltins (st : VmState τ) (i : Instruction) :
    (st.mapBuiltins f).computeOperands deduce i =
      Prod.map id (mapBuiltins f) (st.computeOperands deduce' i) := by
  unfold computeOperands
  simp only [mapBuiltins_vm, mapBuiltins_memory]
  split
  · rfl
  split
  · rfl
  split
  · rfl
  rw [op0OrDeductions_mapBuiltins hf]
  rcases st.op0OrDeductions deduce' _ i _ _ _ with ⟨_ | ⟨op0, res⟩, st₁⟩
  · rfl
  dsimp only [Prod.map, id]
  rw [op1OrDeductions_mapBuiltins hf]
  rcases st₁.op1OrDeductions deduce' _ i _ _ _ with ⟨_ | op1, st₂⟩
  · rfl
  dsimp only [Prod.map, id]
  split
  · rfl
  split
  · rfl
  · split <;> rfl

theorem runInstruction_mapBuiltins (st : VmState τ) (i : Instruction) :
    (st.mapBuiltins f).runInstruction deduce i =
      Prod.map id (mapBuiltins f) (st.runInstruction deduce' i) := by
  unfold runInstruction
  rw [computeOperands_mapBuiltins hf]
  rcases st.computeOperands deduce' i with ⟨_ | operands, st₁⟩
  · rfl
  dsimp only [Prod.map, id, mapBuiltins_vm]
  split
  · rfl
  split <;> rfl

/-- A step over a richer builtin state is the code's step on the part the code keeps. -/
theorem step_mapBuiltins (st : VmState τ) :
    (st.mapBuiltins f).step deduce = Prod.map id (mapBuiltins f) (st.step deduce') := by
  unfold step
  simp only [mapBuiltins_vm, mapBuiltins_memory]
  split
  · rfl
  · rfl
  split
  · rfl
  split
  · rfl
  · exact runInstruction_mapBuiltins hf st _

/-- A run of the code's VM lifts to a run over the richer state from any state that projects
to its first one. -/
theorem Reaches.lift {st st' : VmState σ} (h : Reaches deduce st st') {ls : VmState τ}
    (hls : ls.mapBuiltins f = st) : ∃ ls', Reaches deduce' ls ls' ∧ ls'.mapBuiltins f = st' := by
  induction h generalizing ls with
  | refl => exact ⟨ls, .refl _, hls⟩
  | step hs _ ih =>
    subst hls
    rw [step_mapBuiltins hf] at hs
    obtain ⟨ls', hr, rfl⟩ := ih (congrArg Prod.snd hs)
    exact ⟨ls', .step (Prod.ext (congrArg Prod.fst hs :) rfl) hr, rfl⟩

end

end VmState

end CairoVm
