import CairoVm.Builtins.PedersenAccounting
import CairoVm.Vm.Projection

/-!
# The Pedersen builtin in the VM

The VM calls `DeduceMemoryCell` of the pedersen runner whenever an operand in its segment is
missing, at whatever offset the instruction computes, between the other builtins' deductions and
the cells the steps write. Offsets stay below 2^64 along a run, but `CheckVerifiedAddresses`
panics from 2^63 on (`deduceMemoryCell_panics_of_ge`).

What the runner deduced during a run is not in the VM's state; it is recorded by ghost state: a
log beside the runner of the offsets at which it returned a value (`loggedDeduction`), which the
step never reads (`loggedDeduction_fst`), so that every run of the VM is one with the log
(`VmState.Reaches.lift`). A panic is an error and changes no state, so the relation of the cache
to the offsets deduced before the run and those the log records is a builtin invariant
(`logged_builtinInvariant`). Along every run from a state where it holds, as it does for a new
runner, every deduction below 2^63 is the spec's over those offsets: it does not panic, and no
offset the run deduced is deduced again (`reaches_deduceMemoryCell_eq_specDeduce`).
-/

namespace CairoVm

namespace PedersenBuiltinRunner

variable (pedersenHash : Felt → Felt → Felt)
  (others : BuiltinRunner → Relocatable → Memory → Except VmError (Option MaybeRelocatable))

/-- The builtins' deductions of a VM with a pedersen runner: the runner named
`PEDERSEN_BUILTIN_NAME` deduces through its verified addresses, and the others, which keep no
state of their own, by `others`. -/
def vmDeduction : BuiltinDeduction PedersenBuiltinRunner :=
  .ofRunner PEDERSEN_BUILTIN_NAME (fun address mem p => p.deduceMemoryCell pedersenHash address mem)
    others

/-- The VM's deductions with a log beside the pedersen runner of the offsets at which it
deduced a value, in the order it did. Nothing reads the log. -/
def loggedDeduction : BuiltinDeduction (PedersenBuiltinRunner × List Nat) :=
  .ofRunner PEDERSEN_BUILTIN_NAME
    (fun address mem s => (fun r => (r.1, (r.2, s.2 ++ deducedOffsets [((address, mem), r.1)]))) <$>
      s.1.deduceMemoryCell pedersenHash address mem)
    others

/-- With the log dropped, the logged deductions are the VM's. -/
theorem loggedDeduction_fst (b : BuiltinRunner) (a : Relocatable) (m : Memory)
    (s : PedersenBuiltinRunner × List Nat) :
    (fun r => (r.1, Prod.fst r.2)) <$> loggedDeduction pedersenHash others b a m s =
      vmDeduction pedersenHash others b a m (Prod.fst s) := by
  unfold loggedDeduction vmDeduction BuiltinDeduction.ofRunner
  split
  · dsimp only
    cases s.1.deduceMemoryCell pedersenHash a m <;> rfl
  · cases others b a m <;> rfl

/-- `DeduceMemoryCell` deduces felts only. -/
theorem deduceMemoryCell_fits {p p' : PedersenBuiltinRunner} {a : Relocatable} {m : Memory}
    {v : MaybeRelocatable} (h : p.deduceMemoryCell pedersenHash a m = .ok (some v, p')) : v.Fits := by
  unfold deduceMemoryCell at h
  split_ifs at h
  · cases h
  split at h
  · cases h
  · cases h
  · split at h
    · obtain ⟨q, -, hq⟩ := map_eq_ok.mp h
      cases hq
      trivial
    · cases h

theorem loggedDeduction_fits (hothers : ∀ b a m v, others b a m = .ok (some v) → v.Fits) :
    VmState.DeductionFits (loggedDeduction pedersenHash others) :=
  BuiltinDeduction.ofRunner_fits (fun h => by
    obtain ⟨⟨_, _⟩, hd, hr⟩ := map_eq_ok.mp h
    cases hr
    exact deduceMemoryCell_fits pedersenHash hd) hothers

/-- Every call below 2^64 keeps the cache in relation with the offsets deduced so far and the
one it deduces: below 2^63 it marks that offset, from 2^63 on it either deduces nothing and
leaves the cache alone or panics. -/
theorem deduceMemoryCell_logged {done : List Nat} {p p' : PedersenBuiltinRunner} {a : Relocatable}
    {m : Memory} {v : Option MaybeRelocatable} (ha : a.offset < 2 ^ 64)
    (h : p.deduceMemoryCell pedersenHash a m = .ok (v, p'))
    (hinv : VerifiedInv p.verifiedAddresses done) :
    VerifiedInv p'.verifiedAddresses (done ++ deducedOffsets [((a, m), v)]) := by
  by_cases ha63 : a.offset < 2 ^ 63
  · obtain ⟨va, hstep, hinv', -⟩ := deduceMemoryCell_of_inv pedersenHash hinv ha63 m
    rw [hstep] at h
    cases h
    exact hinv'
  by_cases h3 : a.offset % 3 = 2
  · rw [deduceMemoryCell_panics_of_ge pedersenHash p a m (Nat.le_of_not_lt ha63) ha h3 hinv.2.1] at h
    cases h
  · rw [deduceMemoryCell, if_pos (by simp only [cellsPerInstance, inputCellsPerInstance]; omega)] at h
    cases h
    simpa [deducedOffsets] using hinv

/-- The relation of the cache to the offsets deduced before the run and those the log records
is a builtin invariant. -/
theorem logged_builtinInvariant (done : List Nat) :
    VmState.BuiltinInvariant (loggedDeduction pedersenHash others)
      fun _ s => VerifiedInv s.1.verifiedAddresses (done ++ s.2) :=
  BuiltinDeduction.ofRunner_builtinInvariant (fun _ hi => hi) fun ha h hi => by
    obtain ⟨⟨_, _⟩, hd, hr⟩ := map_eq_ok.mp h
    cases hr
    rw [← List.append_assoc]
    exact deduceMemoryCell_logged pedersenHash ha hd hi

/-- Along every run from a state where offsets fit and the cache is in relation with the offsets
`done` deduced before (a new runner's empty cache is, with none), the run keeps a log of the
offsets the pedersen runner deduced, and at its end every deduction below 2^63 is the spec's
over `done` and the log: it never panics, and no offset deduced before or during the run is
deduced again. -/
theorem reaches_deduceMemoryCell_eq_specDeduce
    (hothers : ∀ b a m v, others b a m = .ok (some v) → v.Fits)
    {st st' : VmState PedersenBuiltinRunner} (h : VmState.Reaches (vmDeduction pedersenHash others) st st')
    (hst : st.Fits) {done : List Nat} (hinv : VerifiedInv st.builtins.verifiedAddresses done) :
    ∃ log, VmState.Reaches (loggedDeduction pedersenHash others) ⟨st.vm, st.trace, (st.builtins, [])⟩
        ⟨st'.vm, st'.trace, (st'.builtins, log)⟩ ∧
      ∀ (a : Relocatable) (m : Memory), a.offset < 2 ^ 63 →
        ∃ va, st'.builtins.deduceMemoryCell pedersenHash a m =
          .ok (specDeduce pedersenHash (done ++ log) a m, { st'.builtins with verifiedAddresses := va }) := by
  obtain ⟨ls', hrun, rfl⟩ := VmState.Reaches.lift (loggedDeduction_fst pedersenHash others) h
    (show VmState.mapBuiltins Prod.fst
      (⟨st.vm, st.trace, (st.builtins, [])⟩ : VmState (PedersenBuiltinRunner × List Nat)) = st from rfl)
  have hinv' := VmState.Reaches.builtinInvariant _ (loggedDeduction_fits pedersenHash others hothers)
    (logged_builtinInvariant pedersenHash others done) hrun hst (by simpa using hinv)
  refine ⟨ls'.builtins.2, hrun, fun a m ha => ?_⟩
  obtain ⟨va, hstep, -⟩ := deduceMemoryCell_of_inv pedersenHash hinv' ha m
  exact ⟨va, hstep⟩

/-- A step of `[ap] = [[fp - 1] + 2]; ap++` over a pedersen instance at `(2, 0)`, with a hash
that keeps its first input: op1 is the instance's output, which the step deduces. The log of the
run is `[2]`, and the runner does not deduce `(2, 2)` again. -/
theorem reaches_deduceMemoryCell_eq_specDeduce_step :
    let st : VmState PedersenBuiltinRunner := ⟨{ VirtualMachine.new with
      runContext := ⟨⟨0, 0⟩, ⟨1, 2⟩, ⟨1, 2⟩⟩
      segments := { MemorySegmentManager.empty with
        memory := { Memory.empty with
          data := [(⟨0, 0⟩, .felt (Felt.ofNat 0x480280027fff8000)), (⟨1, 0⟩, .felt (Felt.ofNat 0)),
            (⟨1, 1⟩, .relocatable ⟨2, 0⟩), (⟨2, 0⟩, .felt (Felt.ofNat 3)),
            (⟨2, 1⟩, .felt (Felt.ofNat 4))]
          numSegments := 3 } }
      builtinRunners := [⟨PEDERSEN_BUILTIN_NAME, ⟨2, 0⟩, true, 8, none⟩] }, [], new 8⟩
    let st' : VmState PedersenBuiltinRunner :=
      (st.step (vmDeduction (fun x _ => x) fun _ _ _ => .ok none)).2
    (∃ log, VmState.Reaches (loggedDeduction (fun x _ => x) fun _ _ _ => .ok none)
        ⟨st.vm, st.trace, (st.builtins, [])⟩ ⟨st'.vm, st'.trace, (st'.builtins, log)⟩ ∧
      ∀ (a : Relocatable) (m : Memory), a.offset < 2 ^ 63 →
        ∃ va, st'.builtins.deduceMemoryCell (fun x _ => x) a m =
          .ok (specDeduce (fun x _ => x) ([] ++ log) a m,
            { st'.builtins with verifiedAddresses := va })) ∧
    Prod.fst <$> st'.builtins.deduceMemoryCell (fun x _ => x) ⟨2, 2⟩ st'.memory = .ok none := by
  intro st st'
  exact ⟨@reaches_deduceMemoryCell_eq_specDeduce (fun x _ => x) (fun _ _ _ => .ok none)
    (fun _ _ _ _ h => nomatch h) st st'
    (.step (Prod.ext (by unfold st; rfl) (by unfold st'; dsimp only)) (.refl _))
    ⟨⟨by decide, by decide, by decide⟩,
      Memory.fits_of_cells (by simp [st, VmState.memory, MaybeRelocatable.Fits])⟩
    [] verifiedInv_nil, by unfold st' st; rfl⟩

end PedersenBuiltinRunner

end CairoVm
