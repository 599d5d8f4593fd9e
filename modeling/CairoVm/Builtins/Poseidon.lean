import Mathlib.Data.Fin.VecNotation
import CairoVm.Vm.Step

/-!
# The Poseidon builtin: deduction through a cache

`DeduceMemoryCell` of `PoseidonBuiltinRunner` in the README's walkthrough. An instance is six
cells, three inputs and three outputs. An output cell is deduced by running the permutation over
the three inputs, and the three results go to a cache, from which the instance's other outputs
are read.

The cache stands for recomputing the permutation from memory at every call (`recompute`).
Wherever it agrees with memory (`CacheAgrees`), `DeduceMemoryCell` returns what recomputing
returns, errors included (`deduceMemoryCell_eq_recompute`), and a deduction keeps the agreement
(`deduceMemoryCell_cacheAgrees`). Memory is write-once, so adding cells keeps it too: it is a
builtin invariant of the VM (`cacheAgrees_builtinInvariant`), and along every run from a state
where it holds, as it does for the empty cache of `NewPoseidonBuiltinRunner`, every deduction of
the builtin is the recomputed one (`reaches_deduceMemoryCell_eq_recompute`).

The permutation is starknet-crypto's, called through C, and is a parameter. Offsets are Go
`uint`s; the results are about offsets below 2^64. In the last instance below 2^64 the cache keys
of two outputs wrap around to the offsets 0 and 1, input cells, which the cache is never asked
for.
-/

namespace CairoVm

/-- `POSEIDON_BUILTIN_NAME` -/
def POSEIDON_BUILTIN_NAME : String := "poseidon"

/-- `PoseidonBuiltinRunner`. The cache, a Go map, is the list of its entries, newest first. -/
structure PoseidonBuiltinRunner where
  base : Relocatable
  included : Bool
  cache : List (Relocatable × Felt)

namespace PoseidonBuiltinRunner

/-- `POSEIDON_CELLS_PER_INSTANCE` -/
def cellsPerInstance : Nat := 6

/-- `POSEIDON_INPUT_CELLS_PER_INSTANCE` -/
def inputCellsPerInstance : Nat := 3

/-- `NewPoseidonBuiltinRunner`: an empty cache. -/
def new (included : Bool) : PoseidonBuiltinRunner := ⟨⟨0, 0⟩, included, []⟩

/-- The loop of `DeduceMemoryCell` that reads the instance's input cells into the state. -/
def readInputs (mem : Memory) (inputStartAddr : Relocatable) : Except VmError (Fin 3 → Felt) := do
  let s0 ← mem.getFelt (inputStartAddr.addUint 0)
  let s1 ← mem.getFelt (inputStartAddr.addUint 1)
  let s2 ← mem.getFelt (inputStartAddr.addUint 2)
  pure ![s0, s1, s2]

/-- The loop of `DeduceMemoryCell` that writes the permuted state to the cache, at the output
cells. -/
def writeOutputs (cache : List (Relocatable × Felt)) (outputStartAddress : Relocatable)
    (state : Fin 3 → Felt) : List (Relocatable × Felt) :=
  (outputStartAddress.addUint 2, state 2) :: (outputStartAddress.addUint 1, state 1) ::
    (outputStartAddress.addUint 0, state 0) :: cache

section
variable (permute : (Fin 3 → Felt) → Fin 3 → Felt)

/-- `DeduceMemoryCell`: nothing for an input cell, the cached value if there is one, and
otherwise the permutation of the instance's inputs, cached at its three output cells. The
error of `SubUint`, which cannot occur since the index is at most the offset, is ignored; a
key missing from the cache reads as Go's zero felt. -/
def deduceMemoryCell (p : PoseidonBuiltinRunner) (address : Relocatable) (mem : Memory) :
    Except VmError (Option MaybeRelocatable × PoseidonBuiltinRunner) :=
  let index := address.offset % cellsPerInstance
  if index < inputCellsPerInstance then .ok (none, p)
  else
    match p.cache.lookup address with
    | some value => .ok (some (.felt value), p)
    | none =>
      let inputStartAddr : Relocatable :=
        match address.subUint index with
        | .ok r => r
        | .error _ => ⟨0, 0⟩
      let outputStartAddress := inputStartAddr.addUint inputCellsPerInstance
      match readInputs mem inputStartAddr with
      | .error e => .error e
      | .ok state =>
        let cache := writeOutputs p.cache outputStartAddress (permute state)
        .ok (some (.felt ((cache.lookup address).getD (Felt.ofNat 0))), { p with cache := cache })

/-- What the cache stands for: an output cell recomputed from memory at every call, the
coordinate of the permutation of its instance's inputs that its index names. -/
def recompute (address : Relocatable) (mem : Memory) : Except VmError (Option MaybeRelocatable) :=
  let index := address.offset % cellsPerInstance
  if index < inputCellsPerInstance then .ok none
  else (fun state => some (.felt (permute state (Fin.ofNat (index - inputCellsPerInstance))))) <$>
    readInputs mem ⟨address.segmentIndex, address.offset - index⟩

/-- Every output cell below 2^64 that the cache holds holds what recomputing it gives. -/
def CacheAgrees (mem : Memory) (cache : List (Relocatable × Felt)) : Prop :=
  ∀ a v, a.offset < 2 ^ 64 → inputCellsPerInstance ≤ a.offset % cellsPerInstance →
    cache.lookup a = some v → recompute permute a mem = .ok (some (.felt v))

end

theorem readInputs_extend {m m' : Memory} (h : m.Extends m') {start : Relocatable}
    {state : Fin 3 → Felt} (hr : readInputs m start = .ok state) : readInputs m' start = .ok state := by
  unfold readInputs at *
  obtain ⟨s0, h0, hr⟩ := bind_eq_ok.mp hr
  obtain ⟨s1, h1, hr⟩ := bind_eq_ok.mp hr
  obtain ⟨s2, h2, hr⟩ := bind_eq_ok.mp hr
  rw [h.getFelt h0, h.getFelt h1, h.getFelt h2]
  exact hr

theorem recompute_extend (permute : (Fin 3 → Felt) → Fin 3 → Felt) {m m' : Memory} (h : m.Extends m')
    {address : Relocatable} {v : Option MaybeRelocatable} (hr : recompute permute address m = .ok v) :
    recompute permute address m' = .ok v := by
  unfold recompute at *
  dsimp only at *
  split at hr
  · rwa [if_pos ‹_›]
  rw [if_neg ‹_›]
  obtain ⟨state, hs, rfl⟩ := map_eq_ok.mp hr
  rw [readInputs_extend h hs]
  rfl

/-- Memory only grows, so a cache that agrees with it keeps agreeing. -/
theorem CacheAgrees.extend {permute : (Fin 3 → Felt) → Fin 3 → Felt} {m m' : Memory}
    {cache : List (Relocatable × Felt)} (hc : CacheAgrees permute m cache) (h : m.Extends m') :
    CacheAgrees permute m' cache :=
  fun a v ha h3 hl => recompute_extend permute h (hc a v ha h3 hl)

theorem lookup_writeOutputs (cache : List (Relocatable × Felt)) (out : Relocatable)
    (state : Fin 3 → Felt) (a : Relocatable) :
    (writeOutputs cache out state).lookup a =
      if a = out.addUint 2 then some (state 2) else if a = out.addUint 1 then some (state 1)
      else if a = out.addUint 0 then some (state 0) else cache.lookup a := by
  simp only [writeOutputs, List.lookup_cons]
  split_ifs with h2 h1 h0
  · simp only [beq_iff_eq.mpr h2]
  · simp only [beq_false_of_ne h2, beq_iff_eq.mpr h1]
  · simp only [beq_false_of_ne h2, beq_false_of_ne h1, beq_iff_eq.mpr h0]
  · simp only [beq_false_of_ne h2, beq_false_of_ne h1, beq_false_of_ne h0]

section
variable (permute : (Fin 3 → Felt) → Fin 3 → Felt)

/-- The output cell `j` of the instance starting at `start` recomputes to coordinate `j` of the
permutation, unless its key wrapped around 2^64 onto an input cell. -/
theorem recompute_output {m : Memory} {start : Relocatable} (h6 : start.offset % cellsPerInstance = 0)
    (hlt : start.offset < 2 ^ 64) {state : Fin 3 → Felt} (hr : readInputs m start = .ok state)
    (j : Fin 3)
    (hk : inputCellsPerInstance ≤ ((start.addUint inputCellsPerInstance).addUint j).offset % cellsPerInstance) :
    recompute permute ((start.addUint inputCellsPerInstance).addUint j) m = .ok (some (.felt (permute state j))) := by
  have hj := j.isLt
  simp only [Relocatable.addUint, uintAdd, inputCellsPerInstance, cellsPerInstance] at hk h6 ⊢
  have ho : (((start.offset + 3) % 2 ^ 64 + j) % 2 ^ 64) = start.offset + 3 + j := by omega
  have hidx : (start.offset + 3 + j) % 6 = 3 + j := by omega
  have hj' : Fin.ofNat (3 + (j : Nat) - 3) = j := Fin.ext (by simp [Fin.ofNat])
  have hs : start.offset + 3 + j - (3 + j) = start.offset := by omega
  rw [recompute, ho]
  simp only [cellsPerInstance, inputCellsPerInstance, hidx, hj', hs]
  rw [if_neg (by omega), hr]
  rfl

/-- The keys of one write are distinct, so each output reads back its own coordinate. -/
theorem lookup_writeOutputs_self (cache : List (Relocatable × Felt)) (out : Relocatable) (state : Fin 3 → Felt) (j : Fin 3) :
    (writeOutputs cache out state).lookup (out.addUint j) = some (state j) := by
  have h01 : out.addUint 0 ≠ out.addUint 1 := by simp [Relocatable.addUint, uintAdd]; omega
  have h02 : out.addUint 0 ≠ out.addUint 2 := by simp [Relocatable.addUint, uintAdd]; omega
  have h12 : out.addUint 1 ≠ out.addUint 2 := by simp [Relocatable.addUint, uintAdd]; omega
  rw [lookup_writeOutputs]
  match j with
  | ⟨0, _⟩ => simp [h01, h02]
  | ⟨1, _⟩ => simp [h12]
  | ⟨2, _⟩ => simp

/-- The address `SubUint(index)` gives: the start of the instance. -/
theorem inputStartAddr_eq (address : Relocatable) :
    (match address.subUint (address.offset % cellsPerInstance) with
      | .ok r => r
      | .error _ => (⟨0, 0⟩ : Relocatable)) =
      ⟨address.segmentIndex, address.offset - address.offset % cellsPerInstance⟩ := by
  rw [Relocatable.subUint, if_neg (Nat.not_lt.mpr (Nat.mod_le _ _))]

/-- Every deduction at an offset below 2^64 keeps the cache agreeing with memory. -/
theorem deduceMemoryCell_cacheAgrees {p p' : PoseidonBuiltinRunner} {address : Relocatable}
    {mem : Memory} {v : Option MaybeRelocatable} (ha : address.offset < 2 ^ 64)
    (h : p.deduceMemoryCell permute address mem = .ok (v, p')) (hc : CacheAgrees permute mem p.cache) :
    CacheAgrees permute mem p'.cache := by
  unfold deduceMemoryCell at h
  dsimp only at h
  rw [inputStartAddr_eq] at h
  split_ifs at h
  · cases h; exact hc
  split at h
  · cases h; exact hc
  split at h
  · cases h
  rename_i state hr
  cases h
  have h6 : (address.offset - address.offset % cellsPerInstance) % cellsPerInstance = 0 := by
    simp only [cellsPerInstance]; omega
  have hlt : address.offset - address.offset % cellsPerInstance < 2 ^ 64 := by omega
  intro a w ha' h3 hl
  rw [lookup_writeOutputs] at hl
  split_ifs at hl with e2 e1 e0
  · cases hl; subst e2; exact recompute_output permute h6 hlt hr 2 h3
  · cases hl; subst e1; exact recompute_output permute h6 hlt hr 1 h3
  · cases hl; subst e0; exact recompute_output permute h6 hlt hr 0 h3
  · exact hc a w ha' h3 hl

/-- The cache is transparent: wherever it agrees with memory, `DeduceMemoryCell` at an offset
below 2^64 returns what recomputing the permutation from memory returns, errors included. -/
theorem deduceMemoryCell_eq_recompute {p : PoseidonBuiltinRunner} {address : Relocatable}
    {mem : Memory} (ha : address.offset < 2 ^ 64) (hc : CacheAgrees permute mem p.cache) :
    Prod.fst <$> p.deduceMemoryCell permute address mem = recompute permute address mem := by
  by_cases hidx : address.offset % cellsPerInstance < inputCellsPerInstance
  · simp only [deduceMemoryCell, recompute, hidx, if_true]; rfl
  cases hl : p.cache.lookup address with
  | some v =>
    rw [hc address v ha (Nat.le_of_not_lt hidx) hl]
    simp only [deduceMemoryCell, hidx, if_false, hl]; rfl
  | none =>
    simp only [deduceMemoryCell, recompute, hidx, if_false, hl, inputStartAddr_eq]
    cases hr : readInputs mem ⟨address.segmentIndex, address.offset - address.offset % cellsPerInstance⟩ with
    | error e => rfl
    | ok state =>
      have hj : Relocatable.addUint (Relocatable.addUint ⟨address.segmentIndex,
          address.offset - address.offset % cellsPerInstance⟩ inputCellsPerInstance)
          (Fin.ofNat (address.offset % cellsPerInstance - inputCellsPerInstance) : Fin 3) = address := by
        obtain ⟨seg, o⟩ := address
        simp only [Relocatable.addUint, uintAdd, Fin.ofNat, cellsPerInstance, inputCellsPerInstance,
          Relocatable.mk.injEq, true_and] at hidx ha ⊢
        omega
      have hlk := lookup_writeOutputs_self p.cache
        (Relocatable.addUint ⟨address.segmentIndex, address.offset - address.offset % cellsPerInstance⟩
          inputCellsPerInstance) (permute state)
        (Fin.ofNat (address.offset % cellsPerInstance - inputCellsPerInstance))
      rw [hj] at hlk
      simp only [hlk]
      rfl

/-- The cache of `NewPoseidonBuiltinRunner` is empty, and agrees with every memory. -/
theorem cacheAgrees_nil (mem : Memory) : CacheAgrees permute mem [] := fun _ _ _ _ h => nomatch h

/-- `DeduceMemoryCell` deduces felts only. -/
theorem deduceMemoryCell_fits {p p' : PoseidonBuiltinRunner} {address : Relocatable} {mem : Memory}
    {v : MaybeRelocatable} (h : p.deduceMemoryCell permute address mem = .ok (some v, p')) : v.Fits := by
  unfold deduceMemoryCell at h
  dsimp only at h
  split_ifs at h
  · cases h
  split at h
  · cases h; trivial
  split at h
  · cases h
  · cases h; trivial

/-! ## In the VM -/

variable (others : BuiltinRunner → Relocatable → Memory → Except VmError (Option MaybeRelocatable))

/-- The builtins' deductions of a VM with a poseidon runner: the runner named
`POSEIDON_BUILTIN_NAME` deduces through its cache, and the others, which keep no state of their
own, by `others`. -/
def vmDeduction : BuiltinDeduction PoseidonBuiltinRunner :=
  .ofRunner POSEIDON_BUILTIN_NAME (fun address mem p => p.deduceMemoryCell permute address mem) others

theorem vmDeduction_fits (hothers : ∀ b a m v, others b a m = .ok (some v) → v.Fits) :
    VmState.DeductionFits (vmDeduction permute others) :=
  BuiltinDeduction.ofRunner_fits (deduceMemoryCell_fits permute) hothers

/-- The cache agreeing with memory is a builtin invariant of the VM. -/
theorem cacheAgrees_builtinInvariant :
    VmState.BuiltinInvariant (vmDeduction permute others) fun m p => CacheAgrees permute m p.cache :=
  BuiltinDeduction.ofRunner_builtinInvariant (fun h hc => hc.extend h)
    (deduceMemoryCell_cacheAgrees permute)

/-- Along every run from a state where offsets fit and the cache agrees with memory, such as a
new runner's empty cache, poseidon's `DeduceMemoryCell` at an offset below 2^64 returns what
recomputing the permutation from memory returns: the cache never changes a deduction. -/
theorem reaches_deduceMemoryCell_eq_recompute
    (hothers : ∀ b a m v, others b a m = .ok (some v) → v.Fits)
    {st st' : VmState PoseidonBuiltinRunner} (h : VmState.Reaches (vmDeduction permute others) st st')
    (hst : st.Fits) (hc : CacheAgrees permute st.memory st.builtins.cache) {address : Relocatable}
    (ha : address.offset < 2 ^ 64) :
    Prod.fst <$> st'.builtins.deduceMemoryCell permute address st'.memory =
      recompute permute address st'.memory :=
  deduceMemoryCell_eq_recompute permute ha
    (VmState.Reaches.builtinInvariant _ (vmDeduction_fits permute others hothers)
      (cacheAgrees_builtinInvariant permute others) h hst hc)

/-- A step of `[ap] = [[fp - 1] + 3]; ap++` over a poseidon instance at `(2, 0)`, under the
identity permutation: op1 is the instance's first output, which the step deduces and caches with
the other two. The cached `(2, 4)` is then the recomputed one. -/
theorem reaches_deduceMemoryCell_eq_recompute_step :
    let st : VmState PoseidonBuiltinRunner := ⟨{ VirtualMachine.new with
      runContext := ⟨⟨0, 0⟩, ⟨1, 2⟩, ⟨1, 2⟩⟩
      segments := { MemorySegmentManager.empty with
        memory := { Memory.empty with
          data := [(⟨0, 0⟩, .felt (Felt.ofNat 0x480280037fff8000)), (⟨1, 0⟩, .felt (Felt.ofNat 0)),
            (⟨1, 1⟩, .relocatable ⟨2, 0⟩), (⟨2, 0⟩, .felt (Felt.ofNat 1)),
            (⟨2, 1⟩, .felt (Felt.ofNat 2)), (⟨2, 2⟩, .felt (Felt.ofNat 3))]
          numSegments := 3 } }
      builtinRunners := [⟨POSEIDON_BUILTIN_NAME, ⟨2, 0⟩, true, 32, none⟩] }, [], new true⟩
    let st' : VmState PoseidonBuiltinRunner :=
      (st.step (vmDeduction (fun s => s) fun _ _ _ => .ok none)).2
    Prod.fst <$> st'.builtins.deduceMemoryCell (fun s => s) ⟨2, 4⟩ st'.memory =
      recompute (fun s => s) ⟨2, 4⟩ st'.memory := by
  intro st st'
  exact @reaches_deduceMemoryCell_eq_recompute (fun s => s) (fun _ _ _ => .ok none)
    (fun _ _ _ _ h => nomatch h) st st'
    (.step (Prod.ext (by unfold st; rfl) (by unfold st'; dsimp only)) (.refl _))
    ⟨⟨by decide, by decide, by decide⟩,
      Memory.fits_of_cells (by simp [st, VmState.memory, MaybeRelocatable.Fits])⟩
    (cacheAgrees_nil _ _) ⟨2, 4⟩ (by decide)

end

end PoseidonBuiltinRunner
end CairoVm
