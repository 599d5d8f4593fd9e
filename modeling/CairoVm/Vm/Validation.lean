import CairoVm.Vm.Step

/-!
# The validated addresses

`validateAddress` skips an address that `validated_addresses` holds: the set is a memo of the
rules' verdicts, kept so that no rule runs twice on a cell. What it stands for is the rule run at
every call (`validateAddressUncached`). The memo is sound when every address it holds is still
accepted by its segment's rule over the current cells (`ValidatedSound`), and then skipping
changes no verdict: `validateAddress` fails exactly when the uncached rule fails
(`validateAddress_fst_eq_uncached`).

Rules that only read cells, which are write-once, and accept what they return (`RulesSound`),
such as the range check's (`rulesSound_rangeCheck`), keep the memo sound through
`validateAddress` and `Insert`. `ValidateExistingMemory` ranges over the cells of a Go map, in
no fixed order; in every order it fails exactly when the rule of some cell's segment rejects the
cell (`validateAddresses_cells_eq_none_iff`). A step of the VM changes memory only through `Insert`, so from a
state with a sound memo, along every run, the memo never hides an error of a rule
(`Reaches.validateAddress_eq_uncached`).
-/

namespace CairoVm

namespace Memory

/-- What `validateAddress` stands for: the rule of the address's segment, run at every call. -/
def validateAddressUncached (m : Memory) (addr : Relocatable) : Option VmError × Memory :=
  if addr.segmentIndex < 0 then (none, m)
  else match m.validationRules.lookup addr.segmentIndex.toNat with
    | none => (none, m)
    | some rule =>
      match rule m.data addr with
      | .error e => (some e, m)
      | .ok vs => (none, { m with validatedAddresses := m.validatedAddresses ++ vs })

/-- The rule of the address's segment, if it has one, accepts the address over the cells. -/
def Accepts (rules : List (Nat × ValidationRule)) (data : Cells) (a : Relocatable) : Prop :=
  ∀ rule, rules.lookup a.segmentIndex.toNat = some rule → ∃ vs, rule data a = .ok vs

/-- Every address the memo holds is accepted by its segment's rule over the current cells. -/
def ValidatedSound (m : Memory) : Prop :=
  ∀ a ∈ m.validatedAddresses, Accepts m.validationRules m.data a

/-- Rules that read cells only: an address they accept stays accepted as cells are added, and
every address a rule returns for one of its segment is accepted. -/
structure RulesSound (rules : List (Nat × ValidationRule)) : Prop where
  extend : ∀ {d d' : Cells} {a : Relocatable}, (∀ b v, d.lookup b = some v → d'.lookup b = some v) →
    Accepts rules d a → Accepts rules d' a
  returned : ∀ {rule : ValidationRule} {d : Cells} {a : Relocatable} {vs : List Relocatable},
    rules.lookup a.segmentIndex.toNat = some rule → rule d a = .ok vs → ∀ v ∈ vs, Accepts rules d v

theorem validateAddress_validationRules (m : Memory) (addr : Relocatable) :
    (m.validateAddress addr).2.validationRules = m.validationRules := by
  unfold validateAddress; split
  · rfl
  · split
    · rfl
    · split <;> rfl

theorem insert_validationRules (m : Memory) (addr : Relocatable) (val : MaybeRelocatable) :
    (m.insert addr val).2.validationRules = m.validationRules := by
  unfold insert; split
  · rfl
  split
  · split
    · rfl
    · exact validateAddress_validationRules _ _
  · exact validateAddress_validationRules _ _

section
variable {m : Memory} (hr : RulesSound m.validationRules)
include hr

theorem ValidatedSound.validateAddress (hv : m.ValidatedSound) (addr : Relocatable) :
    (m.validateAddress addr).2.ValidatedSound := by
  unfold Memory.validateAddress
  split
  · exact hv
  split
  · exact hv
  rename_i rule hrule
  split
  · exact hv
  rename_i vs hvs
  intro a ha
  rcases List.mem_append.mp ha with ha | ha
  · exact hv a ha
  · exact hr.returned hrule hvs a ha

/-- An `Insert`, whether it succeeds or not, keeps the memo sound. -/
theorem ValidatedSound.insert (hv : m.ValidatedSound) (addr : Relocatable) (val : MaybeRelocatable) :
    (m.insert addr val).2.ValidatedSound := by
  unfold Memory.insert
  split
  · exact hv
  split
  · split
    · exact hv
    · exact hv.validateAddress hr addr
  · rename_i hfree
    have hext : ∀ b v, m.data.lookup b = some v → ((addr, val) :: m.data).lookup b = some v := by
      intro b v hb
      have hne : b ≠ addr := by rintro rfl; rw [hfree] at hb; cases hb
      rw [List.lookup_cons, beq_false_of_ne hne]
      exact hb
    exact ValidatedSound.validateAddress (m := { m with data := (addr, val) :: m.data }) hr
      (fun a ha => hr.extend hext (hv a ha)) addr

end

/-- Wherever the memo is sound, skipping the addresses it holds changes no verdict. -/
theorem validateAddress_fst_eq_uncached {m : Memory} (hv : m.ValidatedSound) (addr : Relocatable) :
    (m.validateAddress addr).1 = (m.validateAddressUncached addr).1 := by
  unfold validateAddress validateAddressUncached
  by_cases hneg : addr.segmentIndex < 0
  · rw [if_pos (Or.inl hneg), if_pos hneg]
  rw [if_neg hneg]
  by_cases hmem : addr ∈ m.validatedAddresses
  · rw [if_pos (Or.inr hmem)]
    split
    · rfl
    · obtain ⟨vs, hvs⟩ := hv addr hmem _ ‹_›
      rw [hvs]
  · exact congrArg Prod.fst (if_neg (not_or.mpr ⟨hneg, hmem⟩))

/-! ## The range check's rule -/

/-- A table of range-check rules reads cells only. -/
theorem rulesSound_rangeCheck {rules : List (Nat × ValidationRule)}
    (h : ∀ seg rule, rules.lookup seg = some rule → rule = rangeCheckValidationRule) :
    RulesSound rules where
  extend {d d' a} hext hacc rule hl := by
    obtain ⟨vs, hvs⟩ := hacc rule hl
    rw [h _ _ hl] at hvs ⊢
    unfold rangeCheckValidationRule at *
    split at hvs
    · cases hvs
    · cases hvs
    · rw [hext _ _ ‹_›]
      exact ⟨vs, hvs⟩
  returned {rule d a vs} hl hvs v hv rule' hl' := by
    rw [h _ _ hl] at hvs
    have hva : v = a := by
      unfold rangeCheckValidationRule at hvs
      split at hvs
      · cases hvs
      · cases hvs
      · split at hvs
        · cases hvs; exact List.mem_singleton.mp hv
        · cases hvs
    subst hva
    rw [h _ _ hl']
    exact ⟨vs, hvs⟩

/-- One segment under the range check's rule. -/
theorem rulesSound_rangeCheck_single (seg : Nat) : RulesSound [(seg, rangeCheckValidationRule)] :=
  rulesSound_rangeCheck fun _ _ h => by
    rw [List.lookup_cons] at h
    split at h <;> cases h
    rfl

/-- Under one segment's range check, a memo of cells holding felts below 2^128 is sound. -/
theorem validatedSound_rangeCheck {m : Memory} {seg : Nat}
    (hrules : m.validationRules = [(seg, rangeCheckValidationRule)])
    (h : ∀ a ∈ m.validatedAddresses, ∃ f, m.data.lookup a = some (.felt f) ∧ f.val < 2 ^ 128) :
    m.ValidatedSound := fun a ha rule hl => by
  rw [hrules, List.lookup_cons] at hl
  split at hl <;> cases hl
  obtain ⟨f, hf, hlt⟩ := h a ha
  exact ⟨_, (rangeCheckValidationRule_felt _ _ _ hf).trans (if_pos hlt)⟩

/-! ## Validating the existing memory -/

/-- The rule, run without the memo, fails exactly on an address of a segment whose rule rejects
it. -/
theorem validateAddressUncached_fst_eq_none_iff (m : Memory) (addr : Relocatable) :
    (m.validateAddressUncached addr).1 = none ↔
      (0 ≤ addr.segmentIndex → Accepts m.validationRules m.data addr) := by
  unfold validateAddressUncached Accepts
  split_ifs with hneg
  · exact iff_of_true rfl fun h => absurd h (not_le.mpr hneg)
  split
  · rename_i hl
    simp [hl]
  · rename_i rule hl
    split <;> simp [hl, *]

/-- The loop fails exactly when one of the addresses is rejected: the memo it fills on the way,
of addresses the rules accepted, hides no error. -/
theorem validateAddresses_fst_eq_none_iff {m : Memory} (hr : RulesSound m.validationRules)
    (hv : m.ValidatedSound) (as : List Relocatable) :
    (m.validateAddresses as).1 = none ↔
      ∀ a ∈ as, 0 ≤ a.segmentIndex → Accepts m.validationRules m.data a := by
  induction as generalizing m with
  | nil => simp [validateAddresses]
  | cons a as ih =>
    have ha := validateAddress_fst_eq_uncached hv a
    rw [validateAddresses, List.forall_mem_cons, ← validateAddressUncached_fst_eq_none_iff, ← ha]
    rcases h : m.validateAddress a with ⟨_ | e, m'⟩
    · have hrules : m'.validationRules = m.validationRules := by
        rw [← validateAddress_validationRules m a, h]
      have hdata : m'.data = m.data := by rw [← validateAddress_data m a, h]
      have hv' : m'.ValidatedSound := by simpa only [h] using hv.validateAddress hr a
      simp only [ih (hrules ▸ hr) hv', hrules, hdata, true_and]
    · simp

theorem mem_map_fst_iff_lookup_isSome {l : Cells} {a : Relocatable} :
    a ∈ l.map Prod.fst ↔ (l.lookup a).isSome := by
  simp only [List.mem_map, List.lookup_isSome_iff, beq_iff_eq, @eq_comm _ a]

/-- `ValidateExistingMemory`, over the cells in the order the model keeps them. -/
theorem validateExistingMemory_fst_eq_none_iff {m : Memory} (hr : RulesSound m.validationRules)
    (hv : m.ValidatedSound) :
    m.validateExistingMemory.1 = none ↔
      ∀ a, (m.data.lookup a).isSome → 0 ≤ a.segmentIndex → Accepts m.validationRules m.data a :=
  (validateAddresses_fst_eq_none_iff hr hv _).trans
    (forall_congr' fun _ => imp_congr_left mem_map_fst_iff_lookup_isSome)

/-- `ValidateExistingMemory` ranges over a Go map, in no fixed order. In whichever order the
addresses of the cells come, under rules that only read cells and with a sound memo, validating
them fails exactly when the rule of some cell's segment rejects the cell. -/
theorem validateAddresses_cells_eq_none_iff {m : Memory} (hr : RulesSound m.validationRules)
    (hv : m.ValidatedSound) {as : List Relocatable} (has : ∀ a, a ∈ as ↔ (m.data.lookup a).isSome) :
    (m.validateAddresses as).1 = none ↔
      ∀ a, (m.data.lookup a).isSome → 0 ≤ a.segmentIndex → Accepts m.validationRules m.data a :=
  (validateAddresses_fst_eq_none_iff hr hv as).trans (forall_congr' fun a => imp_congr_left (has a))

/-- Three cells, one under no rule and two under the range check, of which the memo holds one,
validated in two orders. -/
theorem validateAddresses_cells_eq_none_iff_rangeCheck :
    let m : Memory := ⟨[(⟨2, 0⟩, .felt (Felt.ofNat 5)), (⟨2, 1⟩, .felt (Felt.ofNat 7)),
      (⟨1, 0⟩, .relocatable ⟨2, 0⟩)], 3, [(2, rangeCheckValidationRule)], [⟨2, 0⟩], []⟩
    ((m.validateAddresses [⟨2, 0⟩, ⟨2, 1⟩, ⟨1, 0⟩]).1 = none ↔
      ∀ a, (m.data.lookup a).isSome → 0 ≤ a.segmentIndex → Accepts m.validationRules m.data a) ∧
    ((m.validateAddresses [⟨1, 0⟩, ⟨2, 1⟩, ⟨2, 0⟩]).1 = none ↔
      ∀ a, (m.data.lookup a).isSome → 0 ≤ a.segmentIndex → Accepts m.validationRules m.data a) := by
  intro m
  have hv : m.ValidatedSound := validatedSound_rangeCheck (by unfold m; rfl) fun a ha => by
    obtain rfl := List.mem_singleton.mp ha
    exact ⟨_, by unfold m; rfl, by decide⟩
  have hcells : ∀ a, a ∈ m.data.map Prod.fst ↔ (m.data.lookup a).isSome :=
    fun _ => mem_map_fst_iff_lookup_isSome
  exact ⟨@validateAddresses_cells_eq_none_iff m (rulesSound_rangeCheck_single 2) hv _ hcells,
    @validateAddresses_cells_eq_none_iff m (rulesSound_rangeCheck_single 2) hv _
      fun a => (List.Perm.mem_iff (by unfold m; decide)).trans (hcells a)⟩

end Memory

/-! ## Along a run -/

/-- From a state whose memo is sound, under rules that read cells only, the memo never hides an
error of a rule: in every state a run reaches, `validateAddress` at any address fails exactly
when the rule run without the memo fails. -/
theorem VmState.Reaches.validateAddress_eq_uncached {σ : Type} {deduce : BuiltinDeduction σ}
    {st st' : VmState σ} (hr : Memory.RulesSound st.memory.validationRules)
    (h : VmState.Reaches deduce st st') (hv : st.memory.ValidatedSound) (addr : Relocatable) :
    (st'.memory.validateAddress addr).1 = (st'.memory.validateAddressUncached addr).1 := by
  have hJ : ∀ (m : Memory) a v, (m.validationRules = st.memory.validationRules ∧ m.ValidatedSound) →
      ((m.insert a v).2.validationRules = st.memory.validationRules ∧ (m.insert a v).2.ValidatedSound) :=
    fun m a v ⟨hrules, hm⟩ =>
      ⟨(Memory.insert_validationRules m a v).trans hrules, hm.insert (hrules ▸ hr) a v⟩
  exact Memory.validateAddress_fst_eq_uncached (h.memoryInvariant deduce hJ ⟨rfl, hv⟩).2 addr

/-- One step of `assertTwoVm` with segment 1 under the range check and its two cells in the
memo: the step writes and validates `(1, 2)`. -/
theorem VmState.Reaches.validateAddress_eq_uncached_rangeCheck :
    let st : VmState Unit := ⟨{ assertTwoVm with
      segments := { assertTwoVm.segments with
        memory := { assertTwoVm.segments.memory with
          validationRules := [(1, rangeCheckValidationRule)]
          validatedAddresses := [⟨1, 0⟩, ⟨1, 1⟩] } } }, [], ()⟩
    let st' : VmState Unit := (st.step .silent).2
    (st'.memory.validateAddress ⟨1, 2⟩).1 = (st'.memory.validateAddressUncached ⟨1, 2⟩).1 := by
  intro st st'
  have hv : st.memory.ValidatedSound :=
    Memory.validatedSound_rangeCheck (by unfold st; rfl) fun a ha => by
      rcases List.mem_cons.mp ha with rfl | ha
      · exact ⟨_, by unfold st; rfl, by decide⟩
      · obtain rfl := List.mem_singleton.mp ha
        exact ⟨_, by unfold st; rfl, by decide⟩
  exact @VmState.Reaches.validateAddress_eq_uncached Unit .silent st st'
    (Memory.rulesSound_rangeCheck_single 1)
    (.step (Prod.ext (by unfold st; rfl) (by unfold st'; dsimp only)) (.refl _)) hv _

end CairoVm
