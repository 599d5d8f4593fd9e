import CairoVm.Memory

/-!
# The Pedersen builtin: deduction and the verified-address cache

`DeduceMemoryCell` of `PedersenBuiltinRunner` fills the output cell of an instance
`[a, b, hash]` from its two inputs and records the cell in `verified_addresses`, a
`[]bool` indexed by offset, so that each hash is computed once.

`CheckVerifiedAddresses` guards its index with `len < int(offset)` and then reads
`[offset]`. The guard misses in two places. At `offset = len` it reads one past the end;
that never happens, because the cache length is always a multiple of three
(`VerifiedInv`) while deductions only look at offsets `2 mod 3`. For an offset of 2^63 or
more, `int(offset)` is negative, the guard passes, and the read panics
(`deduceMemoryCell_panics_of_ge`); `relocatable + felt` reaches such offsets.

Below 2^63 the runner refines the deduction the spec describes (`specDeduce`): the
abstract state is the list of offsets deduced so far, `VerifiedInv` relates it to the
cache, one call preserves the relation (`deduceMemoryCell_of_inv`) and so does every
sequence of calls (`deduceRun_of_inv`). The hash is starknet-crypto's and is a parameter.
-/

namespace CairoVm

/-- `PedersenBuiltinRunner`. -/
structure PedersenBuiltinRunner where
  base : Relocatable
  included : Bool
  verifiedAddresses : List Bool
  ratio : Nat
  instancesPerComponent : Nat
  stopPtr : Option Nat

namespace PedersenBuiltinRunner

/-- `PEDERSEN_CELLS_PER_INSTANCE` -/
def cellsPerInstance : Nat := 3

/-- `PEDERSEN_INPUT_CELLS_PER_INSTANCE` -/
def inputCellsPerInstance : Nat := 2

/-- `NewPedersenBuiltinRunner`. -/
def new (ratio : Nat) : PedersenBuiltinRunner := ⟨⟨0, 0⟩, false, [], ratio, 1, none⟩

/-- `CheckVerifiedAddresses`. -/
def checkVerifiedAddresses (p : PedersenBuiltinRunner) (address : Relocatable) :
    Except VmError Bool :=
  if (p.verifiedAddresses.length : Int) < toGoInt address.offset then .ok false
  else goIndex p.verifiedAddresses address.offset

/-- `ResizeVerifiedAddresses`: pads the cache with `num + 1` falses when the offset is
`num > 0` past its end, then marks the offset. -/
def resizeVerifiedAddresses (p : PedersenBuiltinRunner) (address : Relocatable) :
    Except VmError PedersenBuiltinRunner :=
  let num := toGoInt (toGoInt address.offset - p.verifiedAddresses.length)
  let va := if 0 < num then p.verifiedAddresses ++ List.replicate (num.toNat + 1) false
    else p.verifiedAddresses
  (fun va => { p with verifiedAddresses := va }) <$> goSet va address.offset true

/-- `DeduceMemoryCell`. It never returns a Go error; the `.error` of the model is a runtime
panic of the cache. The input offsets are at least 2 where they are read. -/
def deduceMemoryCell (pedersenHash : Felt → Felt → Felt) (p : PedersenBuiltinRunner)
    (address : Relocatable) (mem : Memory) :
    Except VmError (Option MaybeRelocatable × PedersenBuiltinRunner) :=
  if address.offset % cellsPerInstance ≠ inputCellsPerInstance then .ok (none, p)
  else match p.checkVerifiedAddresses address with
    | .error e => .error e
    | .ok true => .ok (none, p)
    | .ok false =>
      match mem.getFelt ⟨address.segmentIndex, address.offset - 1⟩,
          mem.getFelt ⟨address.segmentIndex, address.offset - 2⟩ with
      | .ok feltA, .ok feltB =>
        (fun p => (some (.felt (pedersenHash feltB feltA)), p)) <$>
          p.resizeVerifiedAddresses address
      | _, _ => .ok (none, p)

/-- A sequence of `DeduceMemoryCell` calls, each at an address and over the memory as it is
then, with what each returned. -/
def deduceRun (pedersenHash : Felt → Felt → Felt) :
    PedersenBuiltinRunner → List (Relocatable × Memory) →
      Except VmError (List (Option MaybeRelocatable) × PedersenBuiltinRunner)
  | p, [] => .ok ([], p)
  | p, (a, m) :: calls =>
    match p.deduceMemoryCell pedersenHash a m with
    | .error e => .error e
    | .ok (r, p) =>
      match deduceRun pedersenHash p calls with
      | .error e => .error e
      | .ok (rs, p) => .ok (r :: rs, p)

/-! ## The deduction the spec describes -/

/-- The Pedersen deduction of the spec (§4.5, §8): a cell at an offset `2 mod 3`, not
deduced before, whose two input cells hold felts, is the hash of the first input and the
second. `done` lists the offsets deduced so far. -/
def specDeduce (pedersenHash : Felt → Felt → Felt) (done : List Nat) (a : Relocatable)
    (m : Memory) : Option MaybeRelocatable :=
  if a.offset % 3 = 2 ∧ a.offset ∉ done then
    match m.getFelt ⟨a.segmentIndex, a.offset - 2⟩, m.getFelt ⟨a.segmentIndex, a.offset - 1⟩ with
    | .ok x, .ok y => some (.felt (pedersenHash x y))
    | _, _ => none
  else none

/-- The offsets a history of calls deduced: those at which a call returned a value. -/
def deducedOffsets (hist : List ((Relocatable × Memory) × Option MaybeRelocatable)) :
    List Nat :=
  hist.filterMap fun c => if c.2.isSome then some c.1.1.offset else none

/-- The abstraction relation: the cache holds `true` exactly at the deduced offsets, and its
length is a multiple of three that a Go `int` holds. -/
def VerifiedInv (va : List Bool) (done : List Nat) : Prop :=
  va.length % 3 = 0 ∧ va.length ≤ 2 ^ 63 ∧ ∀ i, va[i]? = some true ↔ i ∈ done

theorem verifiedInv_nil : VerifiedInv [] [] := ⟨rfl, by decide, by simp⟩

theorem VerifiedInv.lt_length {va : List Bool} {done : List Nat} (h : VerifiedInv va done)
    {i : Nat} (hi : i ∈ done) : i < va.length :=
  (List.getElem?_eq_some_iff.mp ((h.2.2 i).2 hi)).1

theorem getElem?_append_replicate_false (va : List Bool) (n i : Nat) :
    (va ++ List.replicate n false)[i]? = some true ↔ va[i]? = some true := by
  rw [List.getElem?_append, List.getElem?_replicate]
  split
  · rfl
  · rw [List.getElem?_eq_none (by omega)]
    split <;> simp

/-! ## One call -/

section
variable {p : PedersenBuiltinRunner} {done : List Nat} {a : Relocatable}

theorem checkVerifiedAddresses_of_inv (hinv : VerifiedInv p.verifiedAddresses done)
    (ha : a.offset < 2 ^ 63) (h3 : a.offset % 3 = 2) :
    p.checkVerifiedAddresses a = .ok (decide (a.offset ∈ done)) := by
  obtain ⟨hlen, -, hget⟩ := hinv
  unfold checkVerifiedAddresses
  rw [toGoInt_of_lt ha]
  by_cases hlt : p.verifiedAddresses.length < a.offset
  · have hnot : a.offset ∉ done := fun hd =>
      absurd (List.getElem?_eq_some_iff.mp ((hget _).2 hd)).1 (by omega)
    rw [if_pos (by exact_mod_cast hlt)]
    simp [hnot]
  · have hlt' : a.offset < p.verifiedAddresses.length := by omega
    rw [if_neg (by exact_mod_cast hlt), goIndex, List.getElem?_eq_getElem hlt']
    have := hget a.offset
    rw [List.getElem?_eq_getElem hlt'] at this
    cases h : p.verifiedAddresses[a.offset] <;> simp_all

/-- Marking `o` in a cache padded with falses up to `o` keeps the relation, `o` now deduced. -/
theorem verifiedInv_set {va va' : List Bool} {o : Nat} (hinv : VerifiedInv va done)
    (hpad : ∀ i : Nat, va'[i]? = some true ↔ va[i]? = some true)
    (hlen : va'.length = max va.length (o + 1)) (ho : o < 2 ^ 63) (h3 : o % 3 = 2) :
    VerifiedInv (va'.set o true) (done ++ [o]) := by
  obtain ⟨hl, hb, hget⟩ := hinv
  refine ⟨by simp only [List.length_set, hlen]; omega,
    by simp only [List.length_set, hlen]; omega, fun i => ?_⟩
  rw [List.getElem?_set, List.mem_append, List.mem_singleton, ← hget, ← hpad]
  by_cases hi : o = i
  · subst hi
    simp [show o < va'.length by omega]
  · simp [hi, Ne.symm hi]

theorem resizeVerifiedAddresses_of_inv (hinv : VerifiedInv p.verifiedAddresses done)
    (ha : a.offset < 2 ^ 63) (h3 : a.offset % 3 = 2) :
    ∃ va, p.resizeVerifiedAddresses a = .ok { p with verifiedAddresses := va } ∧
      VerifiedInv va (done ++ [a.offset]) := by
  have ⟨hlen, hbound, _⟩ := hinv
  have hnum : toGoInt (toGoInt a.offset - p.verifiedAddresses.length) =
      (a.offset : Int) - p.verifiedAddresses.length := by
    rw [toGoInt_of_lt ha, toGoInt_of_bounds] <;> omega
  by_cases hgt : p.verifiedAddresses.length < a.offset
  · -- the offset is past the end: pad with falses up to it
    have hpos : (0 : Int) < a.offset - p.verifiedAddresses.length := by omega
    have hn : ((a.offset : Int) - p.verifiedAddresses.length).toNat =
        a.offset - p.verifiedAddresses.length := by omega
    refine ⟨(p.verifiedAddresses ++ List.replicate (a.offset - p.verifiedAddresses.length + 1)
      false).set a.offset true, ?_, verifiedInv_set hinv
        (fun i => getElem?_append_replicate_false _ _ _) (by simp; omega) ha h3⟩
    have hin : a.offset < p.verifiedAddresses.length +
        (a.offset - p.verifiedAddresses.length + 1) := by omega
    simp only [resizeVerifiedAddresses, hnum, if_pos hpos, hn, goSet, List.length_append,
      List.length_replicate, if_pos hin]
    rfl
  · -- the offset is inside: the length is a multiple of three and the offset is not
    have hlt : a.offset < p.verifiedAddresses.length := by omega
    refine ⟨p.verifiedAddresses.set a.offset true, ?_,
      verifiedInv_set hinv (fun _ => Iff.rfl) (by omega) ha h3⟩
    have hneg : ¬ (0 : Int) < a.offset - p.verifiedAddresses.length := by omega
    simp only [resizeVerifiedAddresses, hnum, if_neg hneg, goSet, if_pos hlt]
    rfl

/-- One call of `DeduceMemoryCell` below 2^63 returns what the spec's deduction returns, and
keeps the cache in relation with the deduced offsets; a call that returns nothing leaves
the cache as it was. -/
theorem deduceMemoryCell_of_inv (pedersenHash : Felt → Felt → Felt)
    (hinv : VerifiedInv p.verifiedAddresses done) (ha : a.offset < 2 ^ 63) (m : Memory) :
    ∃ va, p.deduceMemoryCell pedersenHash a m =
        .ok (specDeduce pedersenHash done a m, { p with verifiedAddresses := va }) ∧
      VerifiedInv va (done ++ deducedOffsets [((a, m), specDeduce pedersenHash done a m)]) ∧
      (specDeduce pedersenHash done a m = none → va = p.verifiedAddresses) := by
  by_cases h3 : a.offset % 3 = 2
  · have hcheck := checkVerifiedAddresses_of_inv hinv ha h3
    by_cases hd : a.offset ∈ done
    · refine ⟨p.verifiedAddresses, ?_, ?_, fun _ => rfl⟩
      · simp [deduceMemoryCell, specDeduce, cellsPerInstance, inputCellsPerInstance, h3,
          hcheck, hd]
      · simpa [specDeduce, hd, deducedOffsets] using hinv
    · obtain ⟨va, hres, hinv'⟩ := resizeVerifiedAddresses_of_inv hinv ha h3
      cases hA : m.getFelt ⟨a.segmentIndex, a.offset - 1⟩ <;>
        cases hB : m.getFelt ⟨a.segmentIndex, a.offset - 2⟩
      all_goals first
        | exact ⟨p.verifiedAddresses, by
            simp [deduceMemoryCell, specDeduce, cellsPerInstance, inputCellsPerInstance, h3,
              hcheck, hd, hA, hB],
            by simpa [specDeduce, hd, hA, hB, deducedOffsets] using hinv, fun _ => rfl⟩
        | exact ⟨va, by
            simp [deduceMemoryCell, specDeduce, cellsPerInstance, inputCellsPerInstance, h3,
              hcheck, hd, hA, hB, hres],
            by simpa [specDeduce, h3, hd, hA, hB, deducedOffsets] using hinv',
            by simp [specDeduce, h3, hd, hA, hB]⟩
  · refine ⟨p.verifiedAddresses, ?_, ?_, fun _ => rfl⟩
    · simp [deduceMemoryCell, specDeduce, cellsPerInstance, inputCellsPerInstance, h3]
    · simpa [specDeduce, h3, deducedOffsets] using hinv

end

theorem specDeduce_isSome_iff (pedersenHash : Felt → Felt → Felt) (done : List Nat)
    (a : Relocatable) (m : Memory) :
    (specDeduce pedersenHash done a m).isSome ↔ a.offset % 3 = 2 ∧ a.offset ∉ done ∧
      (∃ x, m.getFelt ⟨a.segmentIndex, a.offset - 1⟩ = .ok x) ∧
      (∃ y, m.getFelt ⟨a.segmentIndex, a.offset - 2⟩ = .ok y) := by
  unfold specDeduce
  split
  · cases m.getFelt ⟨a.segmentIndex, a.offset - 2⟩ <;>
      cases m.getFelt ⟨a.segmentIndex, a.offset - 1⟩ <;> simp_all
  · simp_all

theorem specDeduce_eq_some {pedersenHash : Felt → Felt → Felt} {done : List Nat}
    {a : Relocatable} {m : Memory} {v : MaybeRelocatable}
    (h : specDeduce pedersenHash done a m = some v) :
    ∃ x y, m.getFelt ⟨a.segmentIndex, a.offset - 2⟩ = .ok x ∧
      m.getFelt ⟨a.segmentIndex, a.offset - 1⟩ = .ok y ∧ v = .felt (pedersenHash x y) := by
  unfold specDeduce at h
  split at h
  · split at h
    · exact ⟨_, _, ‹_›, ‹_›, (Option.some.inj h).symm⟩
    · cases h
  · cases h

theorem deducedOffsets_cons (c : (Relocatable × Memory) × Option MaybeRelocatable)
    (hist : List ((Relocatable × Memory) × Option MaybeRelocatable)) :
    deducedOffsets (c :: hist) = deducedOffsets [c] ++ deducedOffsets hist := by
  simp only [deducedOffsets, List.filterMap_cons, List.filterMap_nil]
  split <;> simp

/-! ## Sequences of calls -/

/-- Every sequence of calls below 2^63 runs without a panic, and the cache stays in relation
with the offsets deduced, those of the sequence added. -/
theorem deduceRun_of_inv (pedersenHash : Felt → Felt → Felt) :
    ∀ (calls : List (Relocatable × Memory)) {p : PedersenBuiltinRunner} {done : List Nat},
      VerifiedInv p.verifiedAddresses done → (∀ c ∈ calls, c.1.offset < 2 ^ 63) →
      ∃ outs p', deduceRun pedersenHash p calls = .ok (outs, p') ∧
        outs.length = calls.length ∧
        VerifiedInv p'.verifiedAddresses (done ++ deducedOffsets (calls.zip outs))
  | [], p, done, hinv, _ => ⟨[], p, rfl, rfl, by simpa [deducedOffsets] using hinv⟩
  | (a, m) :: calls, p, done, hinv, hc => by
    obtain ⟨va, hstep, hinv₁, -⟩ :=
      deduceMemoryCell_of_inv pedersenHash hinv (hc _ (List.mem_cons_self ..)) m
    obtain ⟨outs, p', hrun, hlen, hinv'⟩ := deduceRun_of_inv pedersenHash calls
      (p := { p with verifiedAddresses := va }) hinv₁
      fun c hc' => hc c (List.mem_cons_of_mem _ hc')
    refine ⟨specDeduce pedersenHash done a m :: outs, p', ?_, by simp [hlen], ?_⟩
    · simp only [deduceRun, hstep, hrun]
    · rw [List.zip_cons_cons, deducedOffsets_cons, ← List.append_assoc]
      exact hinv'

/-- The deductions of a runner, call by call: in every sequence of calls below 2^63 on a new
runner, with any memory at each call, a call returns a value exactly when its offset is
`2 mod 3`, no earlier call at that offset returned one, and both input cells hold felts; the
value is the hash of the first input and the second; a call that returns nothing leaves the
cache alone; and `CheckVerifiedAddresses` reports exactly the offsets deduced so far. -/
theorem deduceMemoryCell_history (pedersenHash : Felt → Felt → Felt) (ratio : Nat)
    (pre : List (Relocatable × Memory)) (a : Relocatable) (m : Memory)
    (hpre : ∀ c ∈ pre, c.1.offset < 2 ^ 63) (ha : a.offset < 2 ^ 63) :
    ∃ outs p r p', deduceRun pedersenHash (new ratio) pre = .ok (outs, p) ∧
      p.deduceMemoryCell pedersenHash a m = .ok (r, p') ∧
      (r.isSome ↔ a.offset % 3 = 2 ∧ a.offset ∉ deducedOffsets (pre.zip outs) ∧
        (∃ x, m.getFelt ⟨a.segmentIndex, a.offset - 1⟩ = .ok x) ∧
        (∃ y, m.getFelt ⟨a.segmentIndex, a.offset - 2⟩ = .ok y)) ∧
      (∀ v, r = some v → ∃ x y, m.getFelt ⟨a.segmentIndex, a.offset - 2⟩ = .ok x ∧
        m.getFelt ⟨a.segmentIndex, a.offset - 1⟩ = .ok y ∧ v = .felt (pedersenHash x y)) ∧
      (r = none → p'.verifiedAddresses = p.verifiedAddresses) ∧
      ∀ b : Relocatable, b.offset < 2 ^ 63 → b.offset % 3 = 2 →
        p.checkVerifiedAddresses b = .ok (decide (b.offset ∈ deducedOffsets (pre.zip outs))) := by
  obtain ⟨outs, p, hrun, -, hinv⟩ :=
    deduceRun_of_inv pedersenHash pre (p := new ratio) verifiedInv_nil hpre
  rw [List.nil_append] at hinv
  obtain ⟨va, hstep, -, hnone⟩ := deduceMemoryCell_of_inv pedersenHash hinv ha m
  exact ⟨outs, p, _, _, hrun, hstep, specDeduce_isSome_iff .., fun _ => specDeduce_eq_some,
    hnone, fun _ hb h3 => checkVerifiedAddresses_of_inv hinv hb h3⟩

/-- A call at offset 2 over two felts, then the same call again: the first hashes, and the
repeat returns nothing. -/
theorem deduceMemoryCell_history_repeat :
    let m₀ : Memory := { Memory.empty with
      data := [(⟨2, 0⟩, .felt (Felt.ofNat 3)), (⟨2, 1⟩, .felt (Felt.ofNat 4))], numSegments := 3 }
    (∀ c ∈ [((⟨2, 2⟩ : Relocatable), m₀)], c.1.offset < 2 ^ 63) ∧
    (⟨2, 2⟩ : Relocatable).offset < 2 ^ 63 ∧
    (∃ outs p r p', deduceRun (fun x _ => x) (new 8) [(⟨2, 2⟩, m₀)] = .ok (outs, p) ∧
      p.deduceMemoryCell (fun x _ => x) ⟨2, 2⟩ m₀ = .ok (r, p') ∧
      (r.isSome ↔ (2 : Nat) % 3 = 2 ∧ 2 ∉ deducedOffsets ([(⟨2, 2⟩, m₀)].zip outs) ∧
        (∃ x, m₀.getFelt ⟨2, 2 - 1⟩ = .ok x) ∧ (∃ y, m₀.getFelt ⟨2, 2 - 2⟩ = .ok y)) ∧
      (∀ v, r = some v → ∃ x y, m₀.getFelt ⟨2, 2 - 2⟩ = .ok x ∧
        m₀.getFelt ⟨2, 2 - 1⟩ = .ok y ∧ v = .felt x) ∧
      (r = none → p'.verifiedAddresses = p.verifiedAddresses) ∧
      ∀ b : Relocatable, b.offset < 2 ^ 63 → b.offset % 3 = 2 →
        p.checkVerifiedAddresses b =
          .ok (decide (b.offset ∈ deducedOffsets ([(⟨2, 2⟩, m₀)].zip outs)))) ∧
    Prod.fst <$> deduceRun (fun x _ => x) (new 8) [(⟨2, 2⟩, m₀), (⟨2, 2⟩, m₀)] =
      .ok [some (.felt (Felt.ofNat 3)), none] := by
  intro m₀
  exact ⟨by simp, by decide, deduceMemoryCell_history (fun x _ => x) 8 [(⟨2, 2⟩, m₀)] ⟨2, 2⟩ m₀
    (by simp) (by decide), by unfold m₀; rfl⟩

/-! ## Offsets past the signed range -/

/-- At an offset `2 mod 3` of 2^63 or more, `int(offset)` is negative, so the guard of
`CheckVerifiedAddresses` lets the read through, and it reads past the end of any cache a Go
slice can hold. -/
theorem deduceMemoryCell_panics_of_ge (pedersenHash : Felt → Felt → Felt)
    (p : PedersenBuiltinRunner) (a : Relocatable) (m : Memory) (h1 : 2 ^ 63 ≤ a.offset)
    (h2 : a.offset < 2 ^ 64) (h3 : a.offset % 3 = 2) (hlen : p.verifiedAddresses.length ≤ 2 ^ 63) :
    p.deduceMemoryCell pedersenHash a m =
      .error (.indexOutOfRange a.offset p.verifiedAddresses.length) := by
  have hneg := toGoInt_neg_of_ge h1 h2
  have hguard : ¬ (p.verifiedAddresses.length : Int) < toGoInt a.offset := by omega
  have hchk : p.checkVerifiedAddresses a =
      .error (.indexOutOfRange a.offset p.verifiedAddresses.length) := by
    rw [checkVerifiedAddresses, if_neg hguard, goIndex, List.getElem?_eq_none (by omega)]
  rw [deduceMemoryCell, if_neg (by simp [cellsPerInstance, inputCellsPerInstance, h3]), hchk]

/-- The first deduction a new runner is asked for at offset 2^63 panics. -/
theorem deduceMemoryCell_new_offset_two_pow_63 (pedersenHash : Felt → Felt → Felt)
    (ratio : Nat) (s : Int) (m : Memory) :
    (new ratio).deduceMemoryCell pedersenHash ⟨s, 2 ^ 63⟩ m =
      .error (.indexOutOfRange (2 ^ 63) 0) :=
  deduceMemoryCell_panics_of_ge pedersenHash _ _ m le_rfl
    (show (2 : Nat) ^ 63 < 2 ^ 64 by decide) (show (2 : Nat) ^ 63 % 3 = 2 by decide)
    (show ([] : List Bool).length ≤ 2 ^ 63 by decide)

end PedersenBuiltinRunner

end CairoVm
