import CairoVm.Builtins.Runner

/-!
# The runner's state

`CairoRunner` and the `VirtualMachine` it owns, with the fields cairo_runner.go reads and
writes. The VM's step, its own end-of-run check, the hint processor and two helpers of the
segment manager and of utils are not in the repository's files; the runner reaches them
through `Machine`, and every result about the runner holds for every `Machine`.

The VM's step counter is a Go `uint`: `VirtualMachine` carries its bound, so a step that
would pass 2^64 cannot be a step of this model.
-/

namespace CairoVm

/-! ## Layouts and programs -/

/-- `DilutedPool`, the diluted check's parameters. -/
structure DilutedPool where
  unitsPerStep : Nat
  spacing : Nat
  nBits : Nat

/-- `CairoLayout`: its builtin runners in the layout's order and the accounting constants the
runner checks read. The layouts package is not in the repository's files, and a layout here
is any such record. -/
structure CairoLayout where
  name : String
  builtins : List BuiltinRunner
  rcUnits : Nat
  memoryUnitsPerStep : Nat
  publicMemoryFraction : Nat
  dilutedPoolInstance : Option DilutedPool

/-- `Program`: its bytecode, the builtins it names, the pc of each identifier, and the
`__start__` and `__end__` offsets of proof mode (`End`, a keyword in Lean, is `end_`). -/
structure Program where
  data : List MaybeRelocatable
  builtins : List String
  identifiers : List (String × Nat)
  start : Nat
  end_ : Nat

/-! ## The virtual machine -/

/-- `RunContext`, the registers. -/
structure RunContext where
  pc : Relocatable
  ap : Relocatable
  fp : Relocatable

/-- `VirtualMachine`, with the fields the runner reads. -/
structure VirtualMachine where
  runContext : RunContext
  currentStep : Nat
  currentStep_lt : currentStep < 2 ^ 64
  segments : MemorySegmentManager
  builtinRunners : List BuiltinRunner
  rcLimitsMin : Option Int
  rcLimitsMax : Option Int

/-- `NewVirtualMachine`, which is not in the repository's files: registers at `(0, 0)`, no
step taken, a new segment manager, no builtin runners and no range-check limits. -/
def VirtualMachine.new : VirtualMachine :=
  ⟨⟨⟨0, 0⟩, ⟨0, 0⟩, ⟨0, 0⟩⟩, 0, by decide, MemorySegmentManager.empty, [], none, none⟩

/-- What the runner calls that is not in the repository's files: the VM's `Step` (with the
hint processor, the hint data and the runner's execution scopes it is handed), the VM's
`EndRun`, a check that reads the VM, the error `BuildHintDataMap` meets compiling the
program's hints, if any, the segment manager's `GetMemoryHoles`, and `utils.SafeDiv`. -/
structure Machine where
  step : VirtualMachine → Option VmError × VirtualMachine
  endRun : VirtualMachine → Option VmError
  hintError : Option VmError
  getMemoryHoles : MemorySegmentManager → Nat → Except VmError Nat
  safeDiv : Nat → Nat → Except VmError Nat

/-! ## The runner -/

/-- `CairoRunner`. The execution scopes are handed to the VM's step only, and live in
`Machine.step`. -/
structure CairoRunner where
  program : Program
  vm : VirtualMachine
  programBase : Relocatable
  executionBase : Relocatable
  initialPc : Relocatable
  initialAp : Relocatable
  initialFp : Relocatable
  finalPc : Option Relocatable
  mainOffset : Nat
  proofMode : Bool
  runEnded : Bool
  layout : CairoLayout
  executionPublicMemory : Option (List Nat)
  segmentsFinalized : Bool

/-- The runner `NewCairoRunner` returns: the entry offset of `__main__.main`, `0` without it,
and every other field at its zero value. Its check of the builtins' order is in utils, not in
the repository's files, and the layout is given instead of looked up by name. -/
def CairoRunner.new (program : Program) (layout : CairoLayout) (proofMode : Bool) :
    CairoRunner where
  program := program
  vm := VirtualMachine.new
  programBase := ⟨0, 0⟩
  executionBase := ⟨0, 0⟩
  initialPc := ⟨0, 0⟩
  initialAp := ⟨0, 0⟩
  initialFp := ⟨0, 0⟩
  finalPc := none
  mainOffset := (program.identifiers.lookup "__main__.main").getD 0
  proofMode := proofMode
  runEnded := false
  layout := layout
  executionPublicMemory := none
  segmentsFinalized := false

end CairoVm
