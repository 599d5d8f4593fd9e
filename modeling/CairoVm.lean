import CairoVm.Basic
import CairoVm.Memory
import CairoVm.Builtins.Pedersen
import CairoVm.Builtins.Runner
import CairoVm.Builtins.PedersenAccounting
import CairoVm.Hints
import CairoVm.Runner.State
import CairoVm.Runner.Initialize
import CairoVm.Runner.EndRun
import CairoVm.Runner.Lifecycle
import CairoVm.Runner.Run
import CairoVm.Vm.Instruction
import CairoVm.Vm.Operands
import CairoVm.Vm.Step
import CairoVm.Vm.Projection
import CairoVm.Builtins.Poseidon
import CairoVm.Builtins.PedersenVm
import CairoVm.Builtins.Bitwise
import CairoVm.Vm.Validation
import CairoVm.Vm.Call
import CairoVm.Runner.Machine
