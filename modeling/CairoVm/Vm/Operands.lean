import CairoVm.Vm.Instruction
import CairoVm.Runner.State

/-!
# Operands

`ComputeOperands` of the README's walkthrough, in the version that consults the builtins:
it computes the three operand addresses, reads what memory holds there, and fills each
missing operand, first by the auto-deduction of the builtin that owns the address's segment
and then from the other operands (`DeduceOp0`, `DeduceOp1`), writing a deduced operand back
into memory. `res` comes from a deduction or from `ComputeRes`, and a missing `dst` from
`DeduceDst`.

The code ignores the error of every `Insert` it makes, and passes op1's deduction the op0 it
read from memory, not the one it deduced. `ComputeOp1Deductions` assigns the res that
`DeduceOp1` deduces to its own parameter, so that res is lost and `ComputeRes` recomputes it.

A builtin's `DeduceMemoryCell` may read and write a state of its own (pedersen's verified
addresses, poseidon's cache): `BuiltinDeduction σ` is the builtins' deductions over a state
`σ`, which every result here quantifies over, and `VmState σ` carries it beside the VM and
the trace.

For an `assert_eq`, an operand deduced from the others satisfies the instruction: recomputing
res from the operands gives `dst` back (`deduceOp0_computeRes`, `deduceOp1_computeRes`), for a
multiplicative res whenever the divisor is a unit of the field.

What a successful computation went through is said once (`computeOperands_ok`). Computing
the operands only adds cells to memory, through `Insert`, and changes the builtins' own state
(`computeOperands_frame`); it writes three cells at most, op0's, op1's and dst's
(`computeOperands_writesAtMost`). Although the errors of `Insert` are ignored, when the three
addresses are distinct cells of allocated segments, memory afterwards holds at each of them the
operand returned for it (`computeOperands_lookup`).

Offsets are Go `uint`s, natural numbers here: from registers and memory values below 2^64, and
builtins that deduce such values, every address, operand and written value stays below 2^64, and
every property of memory and the builtins' state that adding cells and deducing keep
(`BuiltinInvariant`) is kept (`computeOperands_fits`).
-/

namespace CairoVm

/-! ## The VM as the step sees it -/

/-- `TraceEntry`, the registers before a step. -/
structure TraceEntry where
  pc : Relocatable
  ap : Relocatable
  fp : Relocatable
  deriving DecidableEq

/-- `Operands`, the instruction's operands once computed; `res` is absent under an
unconstrained res logic. -/
structure Operands where
  dst : MaybeRelocatable
  res : Option MaybeRelocatable
  op0 : MaybeRelocatable
  op1 : MaybeRelocatable

/-- The builtins' `DeduceMemoryCell`: given the runner whose segment holds the address, the
memory and the builtins' own state, a value (or none) and the state after. -/
def BuiltinDeduction (σ : Type) :=
  BuiltinRunner → Relocatable → Memory → σ → Except VmError (Option MaybeRelocatable × σ)

/-- Builtins that deduce nothing and keep no state. -/
def BuiltinDeduction.silent : BuiltinDeduction Unit := fun _ _ _ s => .ok (none, s)

/-- The `VirtualMachine` with the trace its step appends to and the builtins' own state. -/
structure VmState (σ : Type) where
  vm : VirtualMachine
  trace : List TraceEntry
  builtins : σ

namespace VmState

variable {σ : Type}

/-- The memory. -/
def memory (st : VmState σ) : Memory := st.vm.segments.memory

/-- An `Insert` whose error the code ignores: the memory as `Insert` leaves it. -/
def insert (st : VmState σ) (addr : Relocatable) (v : MaybeRelocatable) : VmState σ :=
  { st with vm := { st.vm with segments :=
      { st.vm.segments with memory := (st.memory.insert addr v).2 } } }

@[simp] theorem insert_memory (st : VmState σ) (addr : Relocatable) (v : MaybeRelocatable) :
    (st.insert addr v).memory = (st.memory.insert addr v).2 := rfl

@[simp] theorem insert_runContext (st : VmState σ) (addr : Relocatable) (v : MaybeRelocatable) :
    (st.insert addr v).vm.runContext = st.vm.runContext := rfl

@[simp] theorem insert_currentStep (st : VmState σ) (addr : Relocatable) (v : MaybeRelocatable) :
    (st.insert addr v).vm.currentStep = st.vm.currentStep := rfl

@[simp] theorem insert_trace (st : VmState σ) (addr : Relocatable) (v : MaybeRelocatable) :
    (st.insert addr v).trace = st.trace := rfl

@[simp] theorem insert_builtinRunners (st : VmState σ) (addr : Relocatable) (v : MaybeRelocatable) :
    (st.insert addr v).vm.builtinRunners = st.vm.builtinRunners := rfl

end VmState

/-! ## Operand addresses -/

/-- The value of a register. -/
def RunContext.register (rc : RunContext) : Register → Relocatable
  | .ap => rc.ap
  | .fp => rc.fp

/-- A base plus a signed offset: `SubUint(|off|)` below zero, `AddUint(off)` otherwise. -/
def Relocatable.addOffset (base : Relocatable) (off : Int) : Except VmError Relocatable :=
  if off < 0 then base.subUint off.natAbs else .ok (base.addUint off.toNat)

/-- The body `ComputeDstAddr` and `ComputeOp0Addr` share: a register plus an offset. -/
def RunContext.computeRegAddr (rc : RunContext) (reg : Register) (off : Int) :
    Except VmError Relocatable :=
  (rc.register reg).addOffset off

/-- `ComputeDstAddr`: `DstReg + Off0`. -/
def RunContext.computeDstAddr (rc : RunContext) (i : Instruction) : Except VmError Relocatable :=
  rc.computeRegAddr i.dstReg i.off0

/-- `ComputeOp0Addr`: `Op0Reg + Off1`. -/
def RunContext.computeOp0Addr (rc : RunContext) (i : Instruction) : Except VmError Relocatable :=
  rc.computeRegAddr i.op0Reg i.off1

/-- `ComputeOp1Addr`: `Off2` from fp, from ap, from pc for an immediate (whose `Off2` must
be 1), or from the pointer op0 holds. -/
def RunContext.computeOp1Addr (rc : RunContext) (i : Instruction) (op0 : Option MaybeRelocatable) :
    Except VmError Relocatable := do
  let base ← match i.op1Addr with
    | .fp => pure rc.fp
    | .ap => pure rc.ap
    | .imm => if i.off2 = 1 then pure rc.pc else throw .unknownOp0
    | .op0 =>
      match op0 with
      | none => throw .op0Unknown
      | some v =>
        match v.getRelocatable with
        | some r => pure r
        | none => throw .addressNotRelocatable
  base.addOffset i.off2

/-! ## Deductions and `res` -/

/-- `DeduceOp0`: a call's op0 is the return pc; an `assert_eq` with an additive res has op0
`dst - op1`, and with a multiplicative one `dst / op1` when both are felts and `op1` is not
zero. The second component is the res deduced with it. -/
def deduceOp0 (rc : RunContext) (i : Instruction) (dst op1 : Option MaybeRelocatable) :
    Except VmError (Option MaybeRelocatable × Option MaybeRelocatable) :=
  match i.opcode with
  | .call => .ok (some (.relocatable ⟨rc.pc.segmentIndex, uintAdd rc.pc.offset i.size⟩), none)
  | .assertEq =>
    match i.resLogic, dst, op1 with
    | .add, some d, some o => (fun op0 => (some op0, some d)) <$> d.sub o
    | .mul, some d, some o =>
      match d.getFelt, o.getFelt with
      | some df, some of =>
        if of.isZero then .ok (none, none) else .ok (some (.felt (df.div of)), some d)
      | _, _ => .ok (none, none)
    | _, _, _ => .ok (none, none)
  | _ => .ok (none, none)

/-- `DeduceOp1`: for an `assert_eq`, op1 is `dst` under an op1 res, `dst - op0` under an
additive one, and `dst / op0` under a multiplicative one. The multiplicative case reads `dst`
and `op0` without the nil checks of the others, and panics when either is missing. -/
def deduceOp1 (i : Instruction) (dst op0 : Option MaybeRelocatable) :
    Except VmError (Option MaybeRelocatable × Option MaybeRelocatable) :=
  if i.opcode = .assertEq then
    match i.resLogic with
    | .op1 => .ok (dst, dst)
    | .add =>
      match op0, dst with
      | some o, some d => (fun op1 => (some op1, some d)) <$> d.sub o
      | _, _ => .ok (none, none)
    | .mul =>
      match dst, op0 with
      | some d, some o =>
        match d.getFelt, o.getFelt with
        | some df, some of =>
          if of.isZero then .ok (none, none) else .ok (some (.felt (df.div of)), some d)
        | _, _ => .ok (none, none)
      | _, _ => .error .nilPointerDereference
    | .unconstrained => .ok (none, none)
  else .ok (none, none)

/-- `ComputeRes`: op1, the sum, or the product of two felts; nothing when unconstrained. -/
def computeRes (i : Instruction) (op0 op1 : MaybeRelocatable) :
    Except VmError (Option MaybeRelocatable) :=
  match i.resLogic with
  | .op1 => .ok (some op1)
  | .add => some <$> op0.add op1
  | .mul =>
    match op0.getFelt, op1.getFelt with
    | some a, some b => .ok (some (.felt (a.mul b)))
    | _, _ => .error .computeResRelocatableMul
  | .unconstrained => .ok none

/-- `DeduceDst`: an `assert_eq`'s dst is res, a call's is the frame pointer. -/
def deduceDst (rc : RunContext) (i : Instruction) (res : Option MaybeRelocatable) :
    Option MaybeRelocatable :=
  match i.opcode with
  | .assertEq => res
  | .call => some (.relocatable rc.fp)
  | _ => none

/-! ## Computing the operands -/

section
variable {σ : Type} (deduce : BuiltinDeduction σ)

/-- The VM's `DeduceMemoryCell`: the deduction of the first builtin runner whose base lies in
the address's segment, none when no runner's does. -/
def VmState.deduceMemoryCell (st : VmState σ) (addr : Relocatable) :
    Except VmError (Option MaybeRelocatable × σ) :=
  match st.vm.builtinRunners.find? (fun b => b.base.segmentIndex = addr.segmentIndex) with
  | some b => deduce b addr st.memory st.builtins
  | none => .ok (none, st.builtins)

/-- `ComputeOp0Deductions`: the builtin's deduction, else `DeduceOp0`; the deduced op0 is
inserted, and a missing one is an error. Also the res `DeduceOp0` deduced. -/
def VmState.computeOp0Deductions (st : VmState σ) (op0Addr : Relocatable) (i : Instruction)
    (dst op1 : Option MaybeRelocatable) :
    Except VmError (MaybeRelocatable × Option MaybeRelocatable) × VmState σ :=
  match st.deduceMemoryCell deduce op0Addr with
  | .error e => (.error e, st)
  | .ok (op0, s) =>
    let st := { st with builtins := s }
    let deduced : Except VmError (Option MaybeRelocatable × Option MaybeRelocatable) :=
      match op0 with
      | some v => .ok (some v, none)
      | none => deduceOp0 st.vm.runContext i dst op1
    match deduced with
    | .error e => (.error e, st)
    | .ok (some op0, res) => (.ok (op0, res), st.insert op0Addr op0)
    | .ok (none, _) => (.error .failedToDeduceOp0, st)

/-- `ComputeOp1Deductions`: the builtin's deduction, else `DeduceOp1`; the deduced op1 is
inserted, and a missing one is an error. The res `DeduceOp1` deduces is assigned to the
function's own copy of `res` and is not returned. -/
def VmState.computeOp1Deductions (st : VmState σ) (op1Addr : Relocatable) (i : Instruction)
    (dst op0 : Option MaybeRelocatable) : Except VmError MaybeRelocatable × VmState σ :=
  match st.deduceMemoryCell deduce op1Addr with
  | .error e => (.error e, st)
  | .ok (op1, s) =>
    let st := { st with builtins := s }
    let deduced : Except VmError (Option MaybeRelocatable) :=
      match op1 with
      | some v => .ok (some v)
      | none => Prod.fst <$> deduceOp1 i dst op0
    match deduced with
    | .error e => (.error e, st)
    | .ok (some op1) => (.ok op1, st.insert op1Addr op1)
    | .ok none => (.error .failedToDeduceOp1, st)

/-- The `if op0_op != nil` of `ComputeOperands`: op0 as memory holds it, else its
deductions. -/
def VmState.op0OrDeductions (st : VmState σ) (op0Addr : Relocatable) (i : Instruction)
    (dst op0Op op1Op : Option MaybeRelocatable) :
    Except VmError (MaybeRelocatable × Option MaybeRelocatable) × VmState σ :=
  match op0Op with
  | some v => (.ok (v, none), st)
  | none => st.computeOp0Deductions deduce op0Addr i dst op1Op

/-- The `if op1_op != nil` of `ComputeOperands`: op1 as memory holds it, else its
deductions, which are handed the op0 read from memory. -/
def VmState.op1OrDeductions (st : VmState σ) (op1Addr : Relocatable) (i : Instruction)
    (dst op0Op op1Op : Option MaybeRelocatable) : Except VmError MaybeRelocatable × VmState σ :=
  match op1Op with
  | some v => (.ok v, st)
  | none => st.computeOp1Deductions deduce op1Addr i dst op0Op

/-- `ComputeOperands`: the addresses, the values memory holds, the deductions of the missing
ones in the order op0, op1, res, dst, and a panic when dst stays missing. -/
def VmState.computeOperands (st : VmState σ) (i : Instruction) : Except VmError Operands × VmState σ :=
  let rc := st.vm.runContext
  match rc.computeDstAddr i with
  | .error _ => (.error .failedToComputeDstAddr, st)
  | .ok dstAddr =>
    let dst := (st.memory.get dstAddr).toOption
    match rc.computeOp0Addr i with
    | .error e => (.error (.failedToComputeOp0Addr e), st)
    | .ok op0Addr =>
      let op0Op := (st.memory.get op0Addr).toOption
      match rc.computeOp1Addr i op0Op with
      | .error e => (.error (.failedToComputeOp1Addr e), st)
      | .ok op1Addr =>
        let op1Op := (st.memory.get op1Addr).toOption
        match st.op0OrDeductions deduce op0Addr i dst op0Op op1Op with
        | (.error e, st) => (.error e, st)
        | (.ok (op0, res), st) =>
          match st.op1OrDeductions deduce op1Addr i dst op0Op op1Op with
          | (.error e, st) => (.error e, st)
          | (.ok op1, st) =>
            let res : Except VmError (Option MaybeRelocatable) :=
              match res with
              | some r => .ok (some r)
              | none => computeRes i op0 op1
            match res with
            | .error e => (.error e, st)
            | .ok res =>
              match dst with
              | some d => (.ok ⟨d, res, op0, op1⟩, st)
              | none =>
                match deduceDst rc i res with
                | some d => (.ok ⟨d, res, op0, op1⟩, st.insert dstAddr d)
                | none => (.error .nilPointerDereference, st)

end

/-! ## What computing the operands changes -/

namespace VmState

variable {σ : Type}

/-- What computing the operands may change: the memory, only through `Insert`, and the
builtins' own state. -/
structure OperandsFrame (st st' : VmState σ) : Prop where
  runContext : st'.vm.runContext = st.vm.runContext
  currentStep : st'.vm.currentStep = st.vm.currentStep
  trace : st'.trace = st.trace
  builtinRunners : st'.vm.builtinRunners = st.vm.builtinRunners
  /-- Every property of memory that `Insert` keeps is kept. -/
  memoryInvariant : ∀ {J : Memory → Prop}, (∀ m a v, J m → J (m.insert a v).2) → J st.memory →
    J st'.memory

theorem OperandsFrame.refl (st : VmState σ) : OperandsFrame st st :=
  ⟨rfl, rfl, rfl, rfl, fun _ h => h⟩

theorem OperandsFrame.trans {st₁ st₂ st₃ : VmState σ} (h₁ : OperandsFrame st₁ st₂)
    (h₂ : OperandsFrame st₂ st₃) : OperandsFrame st₁ st₃ :=
  ⟨h₂.runContext.trans h₁.runContext, h₂.currentStep.trans h₁.currentStep, h₂.trace.trans h₁.trace,
    h₂.builtinRunners.trans h₁.builtinRunners, fun hJ h => h₂.memoryInvariant hJ (h₁.memoryInvariant hJ h)⟩

theorem OperandsFrame.insert (st : VmState σ) (addr : Relocatable) (v : MaybeRelocatable) :
    OperandsFrame st (st.insert addr v) :=
  ⟨rfl, rfl, rfl, rfl, fun hJ h => hJ _ _ _ h⟩

theorem OperandsFrame.builtins (st : VmState σ) (s : σ) : OperandsFrame st { st with builtins := s } :=
  ⟨rfl, rfl, rfl, rfl, fun _ h => h⟩

/-- Memory only gains cells. -/
theorem OperandsFrame.memory {st st' : VmState σ} (f : OperandsFrame st st') :
    st.memory.Extends st'.memory :=
  f.memoryInvariant (fun _ _ _ h => h.trans (Memory.extends_insert _ _ _)) (Memory.Extends.refl _)

/-- No segment is added. -/
theorem OperandsFrame.numSegments {st st' : VmState σ} (f : OperandsFrame st st') :
    st'.memory.numSegments = st.memory.numSegments :=
  f.memoryInvariant (J := fun m => m.numSegments = st.memory.numSegments)
    (fun m a v h => (Memory.insert_numSegments m a v).trans h) rfl

/-- From `st` to `st'`, memory changed at `n` addresses at most. -/
def WritesAtMost (st st' : VmState σ) (n : Nat) : Prop :=
  ∃ S : List Relocatable, S.length ≤ n ∧ ∀ a, a ∉ S → st'.memory.data.lookup a = st.memory.data.lookup a

theorem WritesAtMost.refl (st : VmState σ) (n : Nat) : WritesAtMost st st n :=
  ⟨[], Nat.zero_le _, fun _ _ => rfl⟩

theorem WritesAtMost.trans {st₁ st₂ st₃ : VmState σ} {n m : Nat} (h₁ : WritesAtMost st₁ st₂ n)
    (h₂ : WritesAtMost st₂ st₃ m) : WritesAtMost st₁ st₃ (n + m) := by
  obtain ⟨S, hS, h₁⟩ := h₁
  obtain ⟨T, hT, h₂⟩ := h₂
  refine ⟨S ++ T, by rw [List.length_append]; omega, fun a ha => ?_⟩
  rw [List.mem_append, not_or] at ha
  rw [h₂ a ha.2, h₁ a ha.1]

theorem WritesAtMost.mono {st st' : VmState σ} {n m : Nat} (h : WritesAtMost st st' n) (hnm : n ≤ m) :
    WritesAtMost st st' m :=
  let ⟨S, hS, h⟩ := h
  ⟨S, hS.trans hnm, h⟩

theorem WritesAtMost.insert (st : VmState σ) (addr : Relocatable) (v : MaybeRelocatable) :
    WritesAtMost st (st.insert addr v) 1 :=
  ⟨[addr], le_refl _, fun _ ha => Memory.lookup_insert_of_ne _ _ fun h => ha (List.mem_singleton.mpr h)⟩

theorem WritesAtMost.builtins (st : VmState σ) (s : σ) (n : Nat) :
    WritesAtMost st { st with builtins := s } n :=
  .refl st n

section
variable (deduce : BuiltinDeduction σ)

theorem computeOp0Deductions_frame (st : VmState σ) (a : Relocatable) (i : Instruction)
    (dst op1 : Option MaybeRelocatable) :
    OperandsFrame st (st.computeOp0Deductions deduce a i dst op1).2 := by
  unfold computeOp0Deductions
  split
  · exact .refl st
  · dsimp only
    split
    · exact .builtins st _
    · exact (OperandsFrame.builtins st _).trans (.insert _ _ _)
    · exact .builtins st _

theorem computeOp1Deductions_frame (st : VmState σ) (a : Relocatable) (i : Instruction)
    (dst op0 : Option MaybeRelocatable) :
    OperandsFrame st (st.computeOp1Deductions deduce a i dst op0).2 := by
  unfold computeOp1Deductions
  split
  · exact .refl st
  · dsimp only
    split
    · exact .builtins st _
    · exact (OperandsFrame.builtins st _).trans (.insert _ _ _)
    · exact .builtins st _

theorem op0OrDeductions_frame {st st' : VmState σ} {a : Relocatable} {i : Instruction}
    {dst op0Op op1Op : Option MaybeRelocatable} {r : Except VmError (MaybeRelocatable × Option MaybeRelocatable)}
    (h : st.op0OrDeductions deduce a i dst op0Op op1Op = (r, st')) : OperandsFrame st st' := by
  unfold op0OrDeductions at h
  split at h
  · cases h; exact .refl st
  · simpa only [h] using computeOp0Deductions_frame deduce st a i dst op1Op

theorem op1OrDeductions_frame {st st' : VmState σ} {a : Relocatable} {i : Instruction}
    {dst op0Op op1Op : Option MaybeRelocatable} {r : Except VmError MaybeRelocatable}
    (h : st.op1OrDeductions deduce a i dst op0Op op1Op = (r, st')) : OperandsFrame st st' := by
  unfold op1OrDeductions at h
  split at h
  · cases h; exact .refl st
  · simpa only [h] using computeOp1Deductions_frame deduce st a i dst op0Op

theorem computeOperands_frame (st : VmState σ) (i : Instruction) :
    OperandsFrame st (st.computeOperands deduce i).2 := by
  unfold computeOperands
  dsimp only
  split
  · exact .refl st
  split
  · exact .refl st
  split
  · exact .refl st
  split
  · exact op0OrDeductions_frame deduce ‹_›
  rename_i h
  have f₁ := op0OrDeductions_frame deduce h
  split
  · exact f₁.trans (op1OrDeductions_frame deduce ‹_›)
  rename_i h
  have f₂ := f₁.trans (op1OrDeductions_frame deduce h)
  split
  · exact f₂
  split
  · exact f₂
  split
  · exact f₂.trans (.insert _ _ _)
  · exact f₂

/-- What a successful `ComputeOperands` went through: the three addresses, op0 and op1 as
memory holds them or deduced, res as deduced with op0 or computed, and dst as memory holds it,
or deduced and inserted. -/
theorem computeOperands_ok {st st' : VmState σ} {i : Instruction} {operands : Operands}
    (h : st.computeOperands deduce i = (.ok operands, st')) :
    ∃ dstAddr op0Addr op1Addr res₀ st₁ st₂,
      st.vm.runContext.computeDstAddr i = .ok dstAddr ∧
      st.vm.runContext.computeOp0Addr i = .ok op0Addr ∧
      st.vm.runContext.computeOp1Addr i (st.memory.get op0Addr).toOption = .ok op1Addr ∧
      st.op0OrDeductions deduce op0Addr i (st.memory.get dstAddr).toOption
        (st.memory.get op0Addr).toOption (st.memory.get op1Addr).toOption =
          (.ok (operands.op0, res₀), st₁) ∧
      st₁.op1OrDeductions deduce op1Addr i (st.memory.get dstAddr).toOption
        (st.memory.get op0Addr).toOption (st.memory.get op1Addr).toOption = (.ok operands.op1, st₂) ∧
      (match res₀ with
        | some r => (.ok (some r) : Except VmError (Option MaybeRelocatable))
        | none => computeRes i operands.op0 operands.op1) = .ok operands.res ∧
      (((st.memory.get dstAddr).toOption = some operands.dst ∧ st' = st₂) ∨
        ((st.memory.get dstAddr).toOption = none ∧
          deduceDst st.vm.runContext i operands.res = some operands.dst ∧
          st' = st₂.insert dstAddr operands.dst)) := by
  unfold computeOperands at h
  dsimp only at h
  split at h
  · cases h
  split at h
  · cases h
  split at h
  · cases h
  split at h
  · cases h
  rename_i h0
  split at h
  · cases h
  rename_i h1
  split at h
  · cases h
  rename_i hres
  split at h
  · cases h
    exact ⟨_, _, _, _, _, _, ‹_›, ‹_›, ‹_›, h0, h1, hres, .inl ⟨‹_›, rfl⟩⟩
  · split at h
    · cases h
      exact ⟨_, _, _, _, _, _, ‹_›, ‹_›, ‹_›, h0, h1, hres, .inr ⟨‹_›, ‹_›, rfl⟩⟩
    · cases h

/-! ## How many cells computing the operands writes -/

theorem computeOp0Deductions_writesAtMost (st : VmState σ) (a : Relocatable) (i : Instruction)
    (dst op1 : Option MaybeRelocatable) :
    WritesAtMost st (st.computeOp0Deductions deduce a i dst op1).2 1 := by
  unfold computeOp0Deductions
  split
  · exact .refl st 1
  · dsimp only
    split
    · exact .builtins st _ 1
    · exact (WritesAtMost.builtins st _ 0).trans (.insert _ _ _)
    · exact .builtins st _ 1

theorem computeOp1Deductions_writesAtMost (st : VmState σ) (a : Relocatable) (i : Instruction)
    (dst op0 : Option MaybeRelocatable) :
    WritesAtMost st (st.computeOp1Deductions deduce a i dst op0).2 1 := by
  unfold computeOp1Deductions
  split
  · exact .refl st 1
  · dsimp only
    split
    · exact .builtins st _ 1
    · exact (WritesAtMost.builtins st _ 0).trans (.insert _ _ _)
    · exact .builtins st _ 1

theorem op0OrDeductions_writesAtMost {st st' : VmState σ} {a : Relocatable} {i : Instruction}
    {dst op0Op op1Op : Option MaybeRelocatable} {r : Except VmError (MaybeRelocatable × Option MaybeRelocatable)}
    (h : st.op0OrDeductions deduce a i dst op0Op op1Op = (r, st')) : WritesAtMost st st' 1 := by
  unfold op0OrDeductions at h
  split at h
  · cases h; exact .refl st 1
  · simpa only [h] using computeOp0Deductions_writesAtMost deduce st a i dst op1Op

theorem op1OrDeductions_writesAtMost {st st' : VmState σ} {a : Relocatable} {i : Instruction}
    {dst op0Op op1Op : Option MaybeRelocatable} {r : Except VmError MaybeRelocatable}
    (h : st.op1OrDeductions deduce a i dst op0Op op1Op = (r, st')) : WritesAtMost st st' 1 := by
  unfold op1OrDeductions at h
  split at h
  · cases h; exact .refl st 1
  · simpa only [h] using computeOp1Deductions_writesAtMost deduce st a i dst op0Op

/-- Computing the operands writes at most three cells: op0's, op1's and dst's. -/
theorem computeOperands_writesAtMost (st : VmState σ) (i : Instruction) :
    WritesAtMost st (st.computeOperands deduce i).2 3 := by
  unfold computeOperands
  dsimp only
  split
  · exact .refl st 3
  split
  · exact .refl st 3
  split
  · exact .refl st 3
  split
  · exact (op0OrDeductions_writesAtMost deduce ‹_›).mono (by decide)
  rename_i h
  have f₁ := op0OrDeductions_writesAtMost deduce h
  split
  · exact (f₁.trans (op1OrDeductions_writesAtMost deduce ‹_›)).mono (by decide)
  rename_i h
  have f₂ := f₁.trans (op1OrDeductions_writesAtMost deduce h)
  split
  · exact f₂.mono (by decide)
  split
  · exact f₂.mono (by decide)
  split
  · exact f₂.trans (.insert _ _ _)
  · exact f₂.mono (by decide)

/-! ## Where a deduced res comes from -/

/-- Of the deductions, only `DeduceOp0` hands back a res. -/
theorem computeOp0Deductions_res {st st' : VmState σ} {a : Relocatable} {i : Instruction}
    {dst op1 : Option MaybeRelocatable} {op0 r : MaybeRelocatable}
    (h : st.computeOp0Deductions deduce a i dst op1 = (.ok (op0, some r), st')) :
    deduceOp0 st.vm.runContext i dst op1 = .ok (some op0, some r) := by
  unfold computeOp0Deductions at h
  split at h
  · cases h
  dsimp only at h
  split at h
  · cases h
  · rename_i hd
    simp only [Prod.mk.injEq, Except.ok.injEq] at h
    obtain ⟨⟨rfl, rfl⟩, -⟩ := h
    split at hd
    · cases hd
    · exact hd
  · cases h

theorem op0OrDeductions_res {st st' : VmState σ} {a : Relocatable} {i : Instruction}
    {dst op0Op op1Op : Option MaybeRelocatable} {op0 r : MaybeRelocatable}
    (h : st.op0OrDeductions deduce a i dst op0Op op1Op = (.ok (op0, some r), st')) :
    deduceOp0 st.vm.runContext i dst op1Op = .ok (some op0, some r) := by
  unfold op0OrDeductions at h
  split at h
  · cases h
  · exact computeOp0Deductions_res deduce h

/-! ## What memory holds after computing the operands -/

/-- A deduction writes at its own address only. -/
theorem computeOp0Deductions_lookup_of_ne (st : VmState σ) (a : Relocatable) (i : Instruction)
    (dst op1 : Option MaybeRelocatable) {b : Relocatable} (hb : b ≠ a) :
    (st.computeOp0Deductions deduce a i dst op1).2.memory.data.lookup b = st.memory.data.lookup b := by
  unfold computeOp0Deductions
  split
  · rfl
  · dsimp only
    split
    · rfl
    · exact Memory.lookup_insert_of_ne _ _ hb
    · rfl

theorem computeOp1Deductions_lookup_of_ne (st : VmState σ) (a : Relocatable) (i : Instruction)
    (dst op0 : Option MaybeRelocatable) {b : Relocatable} (hb : b ≠ a) :
    (st.computeOp1Deductions deduce a i dst op0).2.memory.data.lookup b = st.memory.data.lookup b := by
  unfold computeOp1Deductions
  split
  · rfl
  · dsimp only
    split
    · rfl
    · exact Memory.lookup_insert_of_ne _ _ hb
    · rfl

theorem op0OrDeductions_lookup_of_ne {st st' : VmState σ} {a : Relocatable} {i : Instruction}
    {dst op0Op op1Op : Option MaybeRelocatable} {r : Except VmError (MaybeRelocatable × Option MaybeRelocatable)}
    (h : st.op0OrDeductions deduce a i dst op0Op op1Op = (r, st')) {b : Relocatable} (hb : b ≠ a) :
    st'.memory.data.lookup b = st.memory.data.lookup b := by
  unfold op0OrDeductions at h
  split at h
  · cases h; rfl
  · simpa only [h] using computeOp0Deductions_lookup_of_ne deduce st a i dst op1Op hb

theorem op1OrDeductions_lookup_of_ne {st st' : VmState σ} {a : Relocatable} {i : Instruction}
    {dst op0Op op1Op : Option MaybeRelocatable} {r : Except VmError MaybeRelocatable}
    (h : st.op1OrDeductions deduce a i dst op0Op op1Op = (r, st')) {b : Relocatable} (hb : b ≠ a) :
    st'.memory.data.lookup b = st.memory.data.lookup b := by
  unfold op1OrDeductions at h
  split at h
  · cases h; rfl
  · simpa only [h] using computeOp1Deductions_lookup_of_ne deduce st a i dst op0Op hb

/-- A deduced op0 at a free cell of an allocated segment is written there. -/
theorem computeOp0Deductions_lookup {st st' : VmState σ} {a : Relocatable} {i : Instruction}
    {dst op1 : Option MaybeRelocatable} {op0 : MaybeRelocatable} {res : Option MaybeRelocatable}
    (h : st.computeOp0Deductions deduce a i dst op1 = (.ok (op0, res), st'))
    (hseg : a.segmentIndex < st.memory.numSegments) (hfree : st.memory.data.lookup a = none) :
    st'.memory.data.lookup a = some op0 := by
  unfold computeOp0Deductions at h
  split at h
  · cases h
  dsimp only at h
  split at h
  · cases h
  · simp only [Prod.mk.injEq, Except.ok.injEq] at h
    obtain ⟨⟨rfl, rfl⟩, rfl⟩ := h
    exact Memory.lookup_insert_self_of_free _ hseg hfree
  · cases h

theorem computeOp1Deductions_lookup {st st' : VmState σ} {a : Relocatable} {i : Instruction}
    {dst op0 : Option MaybeRelocatable} {op1 : MaybeRelocatable}
    (h : st.computeOp1Deductions deduce a i dst op0 = (.ok op1, st'))
    (hseg : a.segmentIndex < st.memory.numSegments) (hfree : st.memory.data.lookup a = none) :
    st'.memory.data.lookup a = some op1 := by
  unfold computeOp1Deductions at h
  split at h
  · cases h
  dsimp only at h
  split at h
  · cases h
  · simp only [Prod.mk.injEq, Except.ok.injEq] at h
    obtain ⟨rfl, rfl⟩ := h
    exact Memory.lookup_insert_self_of_free _ hseg hfree
  · cases h

/-- Op0, as memory holds it or deduced at a free cell, is what memory then holds at its
address. -/
theorem op0OrDeductions_lookup {st st' : VmState σ} {a : Relocatable} {i : Instruction}
    {dst op0Op op1Op : Option MaybeRelocatable} {op0 : MaybeRelocatable} {res : Option MaybeRelocatable}
    (h : st.op0OrDeductions deduce a i dst op0Op op1Op = (.ok (op0, res), st'))
    (hop : op0Op = st.memory.data.lookup a) (hseg : a.segmentIndex < st.memory.numSegments) :
    st'.memory.data.lookup a = some op0 := by
  unfold op0OrDeductions at h
  split at h
  · cases h
    exact hop.symm
  · exact computeOp0Deductions_lookup deduce h hseg hop.symm

theorem op1OrDeductions_lookup {st st' : VmState σ} {a : Relocatable} {i : Instruction}
    {dst op0Op op1Op : Option MaybeRelocatable} {op1 : MaybeRelocatable}
    (h : st.op1OrDeductions deduce a i dst op0Op op1Op = (.ok op1, st'))
    (hop : op1Op = st.memory.data.lookup a) (hseg : a.segmentIndex < st.memory.numSegments) :
    st'.memory.data.lookup a = some op1 := by
  unfold op1OrDeductions at h
  split at h
  · cases h
    exact hop.symm
  · exact computeOp1Deductions_lookup deduce h hseg hop.symm

/-- After the operand deductions, computing the operands only adds cells: the dst it deduces
is inserted. -/
theorem computeOperands_extends {st st' st₂ : VmState σ} {i : Instruction} {dstAddr : Relocatable}
    {operands : Operands}
    (hd : ((st.memory.get dstAddr).toOption = some operands.dst ∧ st' = st₂) ∨
      ((st.memory.get dstAddr).toOption = none ∧
        deduceDst st.vm.runContext i operands.res = some operands.dst ∧
        st' = st₂.insert dstAddr operands.dst)) :
    OperandsFrame st₂ st' := by
  rcases hd with ⟨-, rfl⟩ | ⟨-, -, rfl⟩
  · exact .refl _
  · exact .insert _ _ _

/-- Op0, held or deduced, is in memory at its address after a successful `ComputeOperands`,
when that cell's segment is allocated: a cell once written keeps its value. -/
theorem computeOperands_lookup_op0 {st st' : VmState σ} {i : Instruction} {operands : Operands}
    (h : st.computeOperands deduce i = (.ok operands, st')) {op0Addr : Relocatable}
    (hop0 : st.vm.runContext.computeOp0Addr i = .ok op0Addr)
    (hseg : op0Addr.segmentIndex < st.memory.numSegments) :
    st'.memory.data.lookup op0Addr = some operands.op0 := by
  obtain ⟨_, op0Addr', _, _, _, _, -, hop0', -, h0, h1, -, hd⟩ := computeOperands_ok deduce h
  obtain rfl := Except.ok.inj (hop0.symm.trans hop0')
  have l0 := op0OrDeductions_lookup deduce h0 (Memory.get_toOption _ _) hseg
  exact ((op1OrDeductions_frame deduce h1).trans (computeOperands_extends hd)).memory _ _ l0

/-- Op1, held or deduced, is in memory at its address after a successful `ComputeOperands`,
when that cell is not op0's and its segment is allocated. -/
theorem computeOperands_lookup_op1 {st st' : VmState σ} {i : Instruction} {operands : Operands}
    (h : st.computeOperands deduce i = (.ok operands, st')) {op0Addr op1Addr : Relocatable}
    (hop0 : st.vm.runContext.computeOp0Addr i = .ok op0Addr)
    (hop1 : st.vm.runContext.computeOp1Addr i (st.memory.get op0Addr).toOption = .ok op1Addr)
    (h01 : op0Addr ≠ op1Addr) (hseg : op1Addr.segmentIndex < st.memory.numSegments) :
    st'.memory.data.lookup op1Addr = some operands.op1 := by
  obtain ⟨_, op0Addr', op1Addr', _, _, _, -, hop0', hop1', h0, h1, -, hd⟩ :=
    computeOperands_ok deduce h
  obtain rfl := Except.ok.inj (hop0.symm.trans hop0')
  obtain rfl := Except.ok.inj (hop1.symm.trans hop1')
  have l1 := op1OrDeductions_lookup deduce h1
    ((Memory.get_toOption _ _).trans (op0OrDeductions_lookup_of_ne deduce h0 h01.symm).symm)
    ((op0OrDeductions_frame deduce h0).numSegments ▸ hseg)
  exact (computeOperands_extends hd).memory _ _ l1

/-- Dst, held or deduced, is in memory at its address after a successful `ComputeOperands`,
when that cell is neither op0's nor op1's and its segment is allocated. -/
theorem computeOperands_lookup_dst {st st' : VmState σ} {i : Instruction} {operands : Operands}
    (h : st.computeOperands deduce i = (.ok operands, st')) {dstAddr op0Addr op1Addr : Relocatable}
    (hdst : st.vm.runContext.computeDstAddr i = .ok dstAddr)
    (hop0 : st.vm.runContext.computeOp0Addr i = .ok op0Addr)
    (hop1 : st.vm.runContext.computeOp1Addr i (st.memory.get op0Addr).toOption = .ok op1Addr)
    (hd0 : dstAddr ≠ op0Addr) (hd1 : dstAddr ≠ op1Addr)
    (hseg : dstAddr.segmentIndex < st.memory.numSegments) :
    st'.memory.data.lookup dstAddr = some operands.dst := by
  obtain ⟨dstAddr', op0Addr', op1Addr', _, st₁, st₂, hdst', hop0', hop1', h0, h1, -, hd⟩ :=
    computeOperands_ok deduce h
  obtain rfl := Except.ok.inj (hdst.symm.trans hdst')
  obtain rfl := Except.ok.inj (hop0.symm.trans hop0')
  obtain rfl := Except.ok.inj (hop1.symm.trans hop1')
  have hdst₂ : st₂.memory.data.lookup dstAddr = (st.memory.get dstAddr).toOption :=
    ((op1OrDeductions_lookup_of_ne deduce h1 hd1).trans
      (op0OrDeductions_lookup_of_ne deduce h0 hd0)).trans (Memory.get_toOption _ _).symm
  rcases hd with ⟨hd, rfl⟩ | ⟨hd, -, rfl⟩
  · exact hdst₂.trans hd
  · refine Memory.lookup_insert_self_of_free _ ?_ (hdst₂.trans hd)
    rw [(op1OrDeductions_frame deduce h1).numSegments, (op0OrDeductions_frame deduce h0).numSegments]
    exact hseg

/-- What a successful `ComputeOperands` returns is what memory then holds at the three operand
addresses, when they are distinct cells of allocated segments: an operand memory held stays, and
a deduced one is written, since an `Insert` at a free cell of an allocated segment writes even
when the segment's rule rejects it. -/
theorem computeOperands_lookup {st st' : VmState σ} {i : Instruction} {operands : Operands}
    (h : st.computeOperands deduce i = (.ok operands, st')) {dstAddr op0Addr op1Addr : Relocatable}
    (hdst : st.vm.runContext.computeDstAddr i = .ok dstAddr)
    (hop0 : st.vm.runContext.computeOp0Addr i = .ok op0Addr)
    (hop1 : st.vm.runContext.computeOp1Addr i (st.memory.get op0Addr).toOption = .ok op1Addr)
    (h01 : op0Addr ≠ op1Addr) (hd0 : dstAddr ≠ op0Addr) (hd1 : dstAddr ≠ op1Addr)
    (hseg : ∀ a ∈ [dstAddr, op0Addr, op1Addr], a.segmentIndex < st.memory.numSegments) :
    st'.memory.data.lookup dstAddr = some operands.dst ∧
      st'.memory.data.lookup op0Addr = some operands.op0 ∧
      st'.memory.data.lookup op1Addr = some operands.op1 :=
  ⟨computeOperands_lookup_dst deduce h hdst hop0 hop1 hd0 hd1 (hseg dstAddr (by simp)),
    computeOperands_lookup_op0 deduce h hop0 (hseg op0Addr (by simp)),
    computeOperands_lookup_op1 deduce h hop0 hop1 h01 (hseg op1Addr (by simp))⟩

theorem computeOperands_lookup_assertEq :
    let st : VmState Unit := ⟨{ VirtualMachine.new with
      runContext := ⟨⟨0, 0⟩, ⟨1, 1⟩, ⟨1, 1⟩⟩
      segments := { MemorySegmentManager.empty with
        memory := { Memory.empty with
          data := [(⟨0, 1⟩, .felt (Felt.ofNat 5)), (⟨1, 0⟩, .felt (Felt.ofNat 0))]
          numSegments := 2 } } }, [], ()⟩
    let st' : VmState Unit := (st.computeOperands (fun _ _ _ s => .ok (none, s))
      ⟨0, -1, 1, .ap, .fp, .imm, .op1, .regular, .add1, .regular, .assertEq⟩).2
    st'.memory.data.lookup ⟨1, 1⟩ = some (.felt (Felt.ofNat 5)) ∧
      st'.memory.data.lookup ⟨1, 0⟩ = some (.felt (Felt.ofNat 0)) ∧
      st'.memory.data.lookup ⟨0, 1⟩ = some (.felt (Felt.ofNat 5)) := by
  intro st st'
  exact @computeOperands_lookup Unit (fun _ _ _ s => .ok (none, s)) st st'
    ⟨0, -1, 1, .ap, .fp, .imm, .op1, .regular, .add1, .regular, .assertEq⟩
    ⟨.felt (Felt.ofNat 5), some (.felt (Felt.ofNat 5)), .felt (Felt.ofNat 0), .felt (Felt.ofNat 5)⟩
    (Prod.ext (by unfold st; rfl) (by unfold st'; dsimp only)) ⟨1, 1⟩ ⟨1, 0⟩ ⟨0, 1⟩ (by unfold st; rfl)
    (by unfold st; rfl) (by unfold st; rfl) (by decide) (by decide) (by decide) (by unfold st; decide)

end

end VmState

/-- `DeduceOp0` deduces a res only from a `dst` and an op1. -/
theorem deduceOp0_some_res {rc : RunContext} {i : Instruction} {dst op1 op0 : Option MaybeRelocatable}
    {r : MaybeRelocatable} (h : deduceOp0 rc i dst op1 = .ok (op0, some r)) :
    ∃ d o, dst = some d ∧ op1 = some o := by
  unfold deduceOp0 at h
  split at h
  · cases h
  · split at h
    · exact ⟨_, _, rfl, rfl⟩
    · exact ⟨_, _, rfl, rfl⟩
    · cases h
  · cases h

/-! ## Deduced operands satisfy the instruction -/

/-- An `assert_eq`'s op0 deduced from `dst` and op1 gives `dst` back as res. -/
theorem deduceOp0_computeRes {rc : RunContext} {i : Instruction} {dst op1 op0 : MaybeRelocatable}
    {res : Option MaybeRelocatable} (hi : i.opcode = .assertEq)
    (h : deduceOp0 rc i (some dst) (some op1) = .ok (some op0, res))
    (hdst : ∀ r, dst = .relocatable r → r.offset < 2 ^ 64)
    (hunit : i.resLogic = .mul → ∀ f, op1 = .felt f → Nat.Coprime f.val PRIME) :
    res = some dst ∧ computeRes i op0 op1 = .ok (some dst) := by
  unfold deduceOp0 at h
  rw [hi] at h
  dsimp only at h
  cases hr : i.resLogic with
  | add =>
    rw [hr] at h
    obtain ⟨d, hd, hdd⟩ := map_eq_ok.mp h
    simp only [Prod.mk.injEq, Option.some.injEq] at hdd
    obtain ⟨rfl, rfl⟩ := hdd
    exact ⟨rfl, by rw [computeRes, hr, (MaybeRelocatable.add_of_sub hd hdst).1]; rfl⟩
  | mul =>
    rw [hr] at h
    cases dst <;> cases op1 <;> simp only [MaybeRelocatable.getFelt] at h <;> try cases h
    rename_i df f
    split at h
    · cases h
    simp only [Except.ok.injEq, Prod.mk.injEq, Option.some.injEq] at h
    obtain ⟨rfl, rfl⟩ := h
    refine ⟨rfl, ?_⟩
    rw [computeRes, hr]
    simp only [MaybeRelocatable.getFelt, Felt.mul_inv_of_coprime _ _ (hunit hr f rfl)]
  | op1 => rw [hr] at h; cases h
  | unconstrained => rw [hr] at h; cases h

/-- An `assert_eq`'s op1 deduced from `dst` and op0 gives `dst` back as res: the res that
`ComputeOp1Deductions` drops is the one `ComputeRes` recomputes. -/
theorem deduceOp1_computeRes {i : Instruction} {dst op0 op1 : MaybeRelocatable}
    {res : Option MaybeRelocatable} (h : deduceOp1 i (some dst) (some op0) = .ok (some op1, res))
    (hdst : ∀ r, dst = .relocatable r → r.offset < 2 ^ 64)
    (hunit : i.resLogic = .mul → ∀ f, op0 = .felt f → Nat.Coprime f.val PRIME) :
    res = some dst ∧ computeRes i op0 op1 = .ok (some dst) := by
  unfold deduceOp1 at h
  split at h
  · cases hr : i.resLogic with
    | op1 =>
      rw [hr] at h
      simp only [Except.ok.injEq, Prod.mk.injEq, Option.some.injEq] at h
      obtain ⟨rfl, rfl⟩ := h
      exact ⟨rfl, by rw [computeRes, hr]⟩
    | add =>
      rw [hr] at h
      obtain ⟨d, hd, hdd⟩ := map_eq_ok.mp h
      simp only [Prod.mk.injEq, Option.some.injEq] at hdd
      obtain ⟨rfl, rfl⟩ := hdd
      exact ⟨rfl, by rw [computeRes, hr, (MaybeRelocatable.add_of_sub hd hdst).2]; rfl⟩
    | mul =>
      rw [hr] at h
      cases dst <;> cases op0 <;> simp only [MaybeRelocatable.getFelt] at h <;> try cases h
      rename_i df f
      split at h
      · cases h
      simp only [Except.ok.injEq, Prod.mk.injEq, Option.some.injEq] at h
      obtain ⟨rfl, rfl⟩ := h
      refine ⟨rfl, ?_⟩
      rw [computeRes, hr]
      simp only [MaybeRelocatable.getFelt, Felt.mul_comm f, Felt.mul_inv_of_coprime _ _ (hunit hr f rfl)]
    | unconstrained => rw [hr] at h; cases h
  · cases h

theorem deduceOp1_computeRes_add :
    some (MaybeRelocatable.felt (Felt.ofNat 7)) = some (.felt (Felt.ofNat 7)) ∧
      computeRes ⟨0, 1, 2, .ap, .ap, .ap, .add, .regular, .regular, .regular, .assertEq⟩
        (.felt (Felt.ofNat 0)) (.felt (Felt.ofNat 7)) = .ok (some (.felt (Felt.ofNat 7))) :=
  deduceOp1_computeRes rfl (fun _ h => nomatch h) (fun h => nomatch h)

/-! ## Offsets that fit in 64 bits -/

/-- Registers whose offsets are Go `uint`s. -/
def RunContext.Fits (rc : RunContext) : Prop :=
  rc.pc.offset < 2 ^ 64 ∧ rc.ap.offset < 2 ^ 64 ∧ rc.fp.offset < 2 ^ 64

/-- Operands whose pointers fit. -/
def Operands.Fits (o : Operands) : Prop :=
  o.dst.Fits ∧ (∀ r ∈ o.res, r.Fits) ∧ o.op0.Fits ∧ o.op1.Fits

theorem MaybeRelocatable.add_fits {x y z : MaybeRelocatable} (h : x.add y = .ok z) : z.Fits := by
  cases x <;> cases y <;> simp only [MaybeRelocatable.add] at h
  · cases h; trivial
  · obtain ⟨r, hr, rfl⟩ := map_eq_ok.mp h; exact Relocatable.addFelt_offset_lt hr
  · obtain ⟨r, hr, rfl⟩ := map_eq_ok.mp h; exact Relocatable.addFelt_offset_lt hr
  · cases h

theorem MaybeRelocatable.sub_fits {x y z : MaybeRelocatable} (h : x.sub y = .ok z) : z.Fits := by
  cases x <;> cases y <;> simp only [MaybeRelocatable.sub] at h
  · cases h; trivial
  · cases h
  · obtain ⟨r, hr, rfl⟩ := map_eq_ok.mp h; exact Relocatable.subFelt_offset_lt hr
  · obtain ⟨r, hr, rfl⟩ := map_eq_ok.mp h; trivial

theorem Memory.Fits.toOption_get {m : Memory} (h : m.Fits) (a : Relocatable) :
    ∀ v ∈ (m.get a).toOption, v.Fits := by
  intro v hv
  cases hg : m.get a with
  | error e => rw [hg] at hv; cases hv
  | ok w => rw [hg] at hv; cases hv; exact h.get hg

theorem Relocatable.addOffset_fits {base r : Relocatable} {off : Int} (hb : base.offset < 2 ^ 64)
    (h : base.addOffset off = .ok r) : r.offset < 2 ^ 64 := by
  unfold Relocatable.addOffset at h
  split at h
  · exact Nat.lt_of_le_of_lt (Relocatable.subUint_offset_le h) hb
  · cases h; exact Relocatable.addUint_offset_lt _ _

theorem RunContext.computeRegAddr_fits {rc : RunContext} (hrc : rc.Fits) {reg : Register} {off : Int}
    {r : Relocatable} (h : rc.computeRegAddr reg off = .ok r) : r.offset < 2 ^ 64 := by
  refine Relocatable.addOffset_fits ?_ h
  cases reg
  · exact hrc.2.1
  · exact hrc.2.2

theorem RunContext.computeOp1Addr_fits {rc : RunContext} (hrc : rc.Fits) {i : Instruction}
    {op0 : Option MaybeRelocatable} (hop0 : ∀ v ∈ op0, v.Fits) {r : Relocatable}
    (h : rc.computeOp1Addr i op0 = .ok r) : r.offset < 2 ^ 64 := by
  unfold RunContext.computeOp1Addr at h
  dsimp only at h
  split at h
  · exact Relocatable.addOffset_fits hrc.2.2 h
  · exact Relocatable.addOffset_fits hrc.2.1 h
  · split at h
    · exact Relocatable.addOffset_fits hrc.1 h
    · cases h
  · split at h
    · cases h
    · rename_i v
      split at h
      · rename_i hv
        cases v with
        | felt => cases hv
        | relocatable => cases hv; exact Relocatable.addOffset_fits (hop0 _ rfl) h
      · cases h

theorem deduceOp0_fits {rc : RunContext} {i : Instruction} {dst op1 op0 res : Option MaybeRelocatable}
    (hdst : ∀ d ∈ dst, d.Fits) (h : deduceOp0 rc i dst op1 = .ok (op0, res)) :
    (∀ v ∈ op0, v.Fits) ∧ ∀ r ∈ res, r.Fits := by
  unfold deduceOp0 at h
  split at h
  · cases h
    exact ⟨fun _ hv => by cases hv; exact Nat.mod_lt _ (by decide), fun _ hr => by cases hr⟩
  · split at h
    · obtain ⟨z, hz, hzz⟩ := map_eq_ok.mp h
      cases hzz
      exact ⟨fun _ hv => by cases hv; exact MaybeRelocatable.sub_fits hz, fun _ hr => by cases hr; exact hdst _ rfl⟩
    · split at h
      · split at h <;> cases h
        · exact ⟨(fun _ h => nomatch h), fun _ h => nomatch h⟩
        · exact ⟨(fun _ hv => by cases hv; trivial), fun _ hr => by cases hr; exact hdst _ rfl⟩
      · cases h; exact ⟨(fun _ h => nomatch h), fun _ h => nomatch h⟩
    · cases h; exact ⟨(fun _ h => nomatch h), fun _ h => nomatch h⟩
  · cases h; exact ⟨(fun _ h => nomatch h), fun _ h => nomatch h⟩

theorem deduceOp1_fits {i : Instruction} {dst op0 op1 res : Option MaybeRelocatable}
    (hdst : ∀ d ∈ dst, d.Fits) (h : deduceOp1 i dst op0 = .ok (op1, res)) :
    (∀ v ∈ op1, v.Fits) ∧ ∀ r ∈ res, r.Fits := by
  unfold deduceOp1 at h
  split at h
  · split at h
    · cases h; exact ⟨hdst, hdst⟩
    · split at h
      · obtain ⟨z, hz, hzz⟩ := map_eq_ok.mp h
        cases hzz
        exact ⟨fun _ hv => by cases hv; exact MaybeRelocatable.sub_fits hz, fun _ hr => by cases hr; exact hdst _ rfl⟩
      · cases h; exact ⟨(fun _ h => nomatch h), fun _ h => nomatch h⟩
    · split at h
      · split at h
        · split at h <;> cases h
          · exact ⟨(fun _ h => nomatch h), fun _ h => nomatch h⟩
          · exact ⟨(fun _ hv => by cases hv; trivial), fun _ hr => by cases hr; exact hdst _ rfl⟩
        · cases h; exact ⟨(fun _ h => nomatch h), fun _ h => nomatch h⟩
      · cases h
    · cases h; exact ⟨(fun _ h => nomatch h), fun _ h => nomatch h⟩
  · cases h; exact ⟨(fun _ h => nomatch h), fun _ h => nomatch h⟩

theorem computeRes_fits {i : Instruction} {op0 op1 : MaybeRelocatable} {res : Option MaybeRelocatable}
    (hop1 : op1.Fits) (h : computeRes i op0 op1 = .ok res) : ∀ r ∈ res, r.Fits := by
  unfold computeRes at h
  split at h
  · cases h; exact fun _ hr => by cases hr; exact hop1
  · obtain ⟨z, hz, rfl⟩ := map_eq_ok.mp h
    exact fun _ hr => by cases hr; exact MaybeRelocatable.add_fits hz
  · split at h
    · cases h; exact fun _ hr => by cases hr; trivial
    · cases h
  · cases h; exact fun _ h => nomatch h

theorem deduceDst_fits {rc : RunContext} (hrc : rc.Fits) (i : Instruction) {res : Option MaybeRelocatable}
    (hres : ∀ r ∈ res, r.Fits) : ∀ d ∈ deduceDst rc i res, d.Fits := by
  unfold deduceDst
  split
  · exact hres
  · exact fun _ hd => by cases hd; exact hrc.2.2
  · exact fun _ h => nomatch h


/-! ## Builtin invariants -/

namespace VmState

variable {σ : Type} (deduce : BuiltinDeduction σ)

/-- A property of memory and the builtins' own state that adding cells to memory keeps and
every deduction at an offset in `uint` range keeps: a builtin's cache of what it deduced from
memory is one. -/
structure BuiltinInvariant (I : Memory → σ → Prop) : Prop where
  extend : ∀ {m m' : Memory} {s : σ}, m.Extends m' → I m s → I m' s
  deduce : ∀ {b : BuiltinRunner} {a : Relocatable} {m : Memory} {s s' : σ}
    {v : Option MaybeRelocatable}, a.offset < 2 ^ 64 → deduce b a m s = .ok (v, s') → I m s → I m s'

/-- The builtins deduce values that fit. -/
def DeductionFits : Prop :=
  ∀ {b : BuiltinRunner} {a : Relocatable} {m : Memory} {s s' : σ} {v : MaybeRelocatable},
    deduce b a m s = .ok (some v, s') → v.Fits

/-- What computing the operands keeps, from a state whose memory values fit: they still fit,
and every builtin invariant holds. -/
structure FitsFrame (st st' : VmState σ) : Prop where
  memory : st'.memory.Fits
  builtins : ∀ {I : Memory → σ → Prop}, BuiltinInvariant deduce I →
    I st.memory st.builtins → I st'.memory st'.builtins

variable {deduce}

theorem FitsFrame.refl {st : VmState σ} (hm : st.memory.Fits) : FitsFrame deduce st st :=
  ⟨hm, fun _ => id⟩

theorem FitsFrame.trans {st₁ st₂ st₃ : VmState σ} (h₁ : FitsFrame deduce st₁ st₂)
    (h₂ : FitsFrame deduce st₂ st₃) : FitsFrame deduce st₁ st₃ :=
  ⟨h₂.memory, fun hI h => h₂.builtins hI (h₁.builtins hI h)⟩

theorem FitsFrame.insert {st : VmState σ} (hm : st.memory.Fits) (addr : Relocatable)
    {v : MaybeRelocatable} (hv : v.Fits) : FitsFrame deduce st (st.insert addr v) :=
  ⟨Memory.fits_insert hm addr hv, fun hI => hI.extend (Memory.extends_insert _ _ _)⟩

theorem FitsFrame.deduceMemoryCell {st : VmState σ} (hm : st.memory.Fits) {a : Relocatable}
    (ha : a.offset < 2 ^ 64) {v : Option MaybeRelocatable} {s : σ}
    (h : st.deduceMemoryCell deduce a = .ok (v, s)) : FitsFrame deduce st { st with builtins := s } := by
  refine ⟨hm, fun hI => ?_⟩
  unfold VmState.deduceMemoryCell at h
  split at h
  · exact hI.deduce ha h
  · cases h; exact id

theorem deduceMemoryCell_fits (hd : DeductionFits deduce) {st : VmState σ} {a : Relocatable}
    {v : MaybeRelocatable} {s : σ} (h : st.deduceMemoryCell deduce a = .ok (some v, s)) : v.Fits := by
  unfold VmState.deduceMemoryCell at h
  split at h
  · exact hd h
  · cases h

variable (deduce)

section
variable (hd : DeductionFits deduce)
include hd

theorem computeOp0Deductions_fits {st st' : VmState σ} (hm : st.memory.Fits) {a : Relocatable}
    (ha : a.offset < 2 ^ 64) {i : Instruction} {dst op1 : Option MaybeRelocatable}
    (hdst : ∀ d ∈ dst, d.Fits) {r : Except VmError (MaybeRelocatable × Option MaybeRelocatable)}
    (h : st.computeOp0Deductions deduce a i dst op1 = (r, st')) :
    FitsFrame deduce st st' ∧ ∀ op0 res, r = .ok (op0, res) → op0.Fits ∧ ∀ x ∈ res, x.Fits := by
  unfold computeOp0Deductions at h
  split at h
  · cases h; exact ⟨.refl hm, fun _ _ h' => nomatch h'⟩
  rename_i hdm
  have f := FitsFrame.deduceMemoryCell hm ha hdm
  dsimp only at h
  split at h
  · cases h; exact ⟨f, fun _ _ h' => nomatch h'⟩
  · rename_i op0 res hded
    have hv : op0.Fits ∧ ∀ x ∈ res, x.Fits := by
      split at hded
      · cases hded; exact ⟨deduceMemoryCell_fits hd hdm, fun _ h' => nomatch h'⟩
      · exact ⟨(deduceOp0_fits hdst hded).1 _ rfl, (deduceOp0_fits hdst hded).2⟩
    cases h
    exact ⟨f.trans (.insert f.memory _ hv.1), fun _ _ h' => by cases h'; exact hv⟩
  · cases h; exact ⟨f, fun _ _ h' => nomatch h'⟩

theorem computeOp1Deductions_fits {st st' : VmState σ} (hm : st.memory.Fits) {a : Relocatable}
    (ha : a.offset < 2 ^ 64) {i : Instruction} {dst op0 : Option MaybeRelocatable}
    (hdst : ∀ d ∈ dst, d.Fits) {r : Except VmError MaybeRelocatable}
    (h : st.computeOp1Deductions deduce a i dst op0 = (r, st')) :
    FitsFrame deduce st st' ∧ ∀ op1, r = .ok op1 → op1.Fits := by
  unfold computeOp1Deductions at h
  split at h
  · cases h; exact ⟨.refl hm, fun _ h' => nomatch h'⟩
  rename_i hdm
  have f := FitsFrame.deduceMemoryCell hm ha hdm
  dsimp only at h
  split at h
  · cases h; exact ⟨f, fun _ h' => nomatch h'⟩
  · rename_i op1 hded
    have hv : op1.Fits := by
      split at hded
      · cases hded; exact deduceMemoryCell_fits hd hdm
      · obtain ⟨⟨_, _⟩, hd1, rfl⟩ := map_eq_ok.mp hded
        exact (deduceOp1_fits hdst hd1).1 _ rfl
    cases h
    exact ⟨f.trans (.insert f.memory _ hv), fun _ h' => by cases h'; exact hv⟩
  · cases h; exact ⟨f, fun _ h' => nomatch h'⟩

theorem op0OrDeductions_fits {st st' : VmState σ} (hm : st.memory.Fits) {a : Relocatable}
    (ha : a.offset < 2 ^ 64) {i : Instruction} {dst op0Op op1Op : Option MaybeRelocatable}
    (hdst : ∀ d ∈ dst, d.Fits) (hop0 : ∀ v ∈ op0Op, v.Fits)
    {r : Except VmError (MaybeRelocatable × Option MaybeRelocatable)}
    (h : st.op0OrDeductions deduce a i dst op0Op op1Op = (r, st')) :
    FitsFrame deduce st st' ∧ ∀ op0 res, r = .ok (op0, res) → op0.Fits ∧ ∀ x ∈ res, x.Fits := by
  unfold op0OrDeductions at h
  split at h
  · cases h; exact ⟨.refl hm, fun _ _ h' => by cases h'; exact ⟨hop0 _ rfl, fun _ h' => nomatch h'⟩⟩
  · exact computeOp0Deductions_fits deduce hd hm ha hdst h

theorem op1OrDeductions_fits {st st' : VmState σ} (hm : st.memory.Fits) {a : Relocatable}
    (ha : a.offset < 2 ^ 64) {i : Instruction} {dst op0Op op1Op : Option MaybeRelocatable}
    (hdst : ∀ d ∈ dst, d.Fits) (hop1 : ∀ v ∈ op1Op, v.Fits) {r : Except VmError MaybeRelocatable}
    (h : st.op1OrDeductions deduce a i dst op0Op op1Op = (r, st')) :
    FitsFrame deduce st st' ∧ ∀ op1, r = .ok op1 → op1.Fits := by
  unfold op1OrDeductions at h
  split at h
  · cases h; exact ⟨.refl hm, fun _ h' => by cases h'; exact hop1 _ rfl⟩
  · exact computeOp1Deductions_fits deduce hd hm ha hdst h

/-- From registers and memory values that fit, computing the operands keeps the memory values
fitting and every builtin invariant, and gives operands that fit. -/
theorem computeOperands_fits {st st' : VmState σ} (hrc : st.vm.runContext.Fits)
    (hm : st.memory.Fits) {i : Instruction} {r : Except VmError Operands}
    (h : st.computeOperands deduce i = (r, st')) :
    FitsFrame deduce st st' ∧ ∀ operands, r = .ok operands → operands.Fits := by
  have hmem := hm.toOption_get
  unfold computeOperands at h
  dsimp only at h
  split at h
  · cases h; exact ⟨.refl hm, fun _ h' => nomatch h'⟩
  rename_i hdA
  split at h
  · cases h; exact ⟨.refl hm, fun _ h' => nomatch h'⟩
  rename_i hop0A
  split at h
  · cases h; exact ⟨.refl hm, fun _ h' => nomatch h'⟩
  rename_i hop1A
  have ha0 := RunContext.computeRegAddr_fits hrc hop0A
  have ha1 := RunContext.computeOp1Addr_fits hrc (hmem _) hop1A
  split at h
  · cases h; exact ⟨(op0OrDeductions_fits deduce hd hm ha0 (hmem _) (hmem _) ‹_›).1, fun _ h' => nomatch h'⟩
  rename_i h0
  obtain ⟨f₁, hv₁⟩ := op0OrDeductions_fits deduce hd hm ha0 (hmem _) (hmem _) h0
  obtain ⟨hop0, hres₀⟩ := hv₁ _ _ rfl
  split at h
  · cases h; exact ⟨f₁.trans (op1OrDeductions_fits deduce hd f₁.memory ha1 (hmem _) (hmem _) ‹_›).1, fun _ h' => nomatch h'⟩
  rename_i h1
  obtain ⟨f₂, hv₂⟩ := op1OrDeductions_fits deduce hd f₁.memory ha1 (hmem _) (hmem _) h1
  have f := f₁.trans f₂
  have hop1 := hv₂ _ rfl
  split at h
  · cases h; exact ⟨f, fun _ h' => nomatch h'⟩
  rename_i res hr
  have hres : ∀ x ∈ res, x.Fits := by
    split at hr
    · cases hr; exact hres₀
    · exact computeRes_fits hop1 hr
  split at h
  · rename_i hdst
    cases h
    exact ⟨f, fun _ h' => by cases h'; exact ⟨hmem _ _ hdst, hres, hop0, hop1⟩⟩
  · split at h
    · rename_i hdd
      have hdf := deduceDst_fits hrc i hres _ hdd
      cases h
      exact ⟨f.trans (.insert f.memory _ hdf), fun _ h' => by cases h'; exact ⟨hdf, hres, hop0, hop1⟩⟩
    · cases h; exact ⟨f, fun _ h' => nomatch h'⟩

end

end VmState

/-! ## A runner with a state of its own -/

/-- The VM's call of `DeduceMemoryCell` through the `BuiltinRunner` interface, in a VM where
one runner keeps a state of its own: the runner named `name` deduces by `own`, reading and
writing that state, and the others, which keep none, by `others`. -/
def BuiltinDeduction.ofRunner {σ : Type} (name : String)
    (own : Relocatable → Memory → σ → Except VmError (Option MaybeRelocatable × σ))
    (others : BuiltinRunner → Relocatable → Memory → Except VmError (Option MaybeRelocatable)) :
    BuiltinDeduction σ := fun b address mem s =>
  if b.name = name then own address mem s else (fun v => (v, s)) <$> others b address mem

namespace BuiltinDeduction

variable {σ : Type} {name : String}
  {own : Relocatable → Memory → σ → Except VmError (Option MaybeRelocatable × σ)}
  {others : BuiltinRunner → Relocatable → Memory → Except VmError (Option MaybeRelocatable)}

theorem ofRunner_fits (hown : ∀ {a m s s' v}, own a m s = .ok (some v, s') → MaybeRelocatable.Fits v)
    (hothers : ∀ b a m v, others b a m = .ok (some v) → v.Fits) :
    VmState.DeductionFits (ofRunner name own others) := by
  intro b a m s s' v h
  unfold ofRunner at h
  split_ifs at h
  · exact hown h
  · obtain ⟨w, hw, hwv⟩ := map_eq_ok.mp h
    cases hwv
    exact hothers b a m v hw

/-- A property of memory and the runner's state is a builtin invariant as soon as adding cells
and the runner's own deductions keep it: the other runners change no state. -/
theorem ofRunner_builtinInvariant {I : Memory → σ → Prop}
    (hext : ∀ {m m' : Memory} {s : σ}, m.Extends m' → I m s → I m' s)
    (hown : ∀ {a m s s' v}, a.offset < 2 ^ 64 → own a m s = .ok (v, s') → I m s → I m s') :
    VmState.BuiltinInvariant (ofRunner name own others) I where
  extend := hext
  deduce ha h hi := by
    unfold ofRunner at h
    split_ifs at h
    · exact hown ha h hi
    · obtain ⟨w, -, hw⟩ := map_eq_ok.mp h
      cases hw
      exact hi

end BuiltinDeduction

end CairoVm
