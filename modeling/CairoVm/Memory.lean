import Mathlib.Logic.Function.Basic
import CairoVm.Basic

/-!
# Segmented write-once memory

`Memory` and `MemorySegmentManager` of the memory package, as the README's code walkthrough
writes them: `Insert` refuses an unallocated segment and a second, different value at an
address, writes, and then runs the segment's validation rule; `LoadData` inserts a list
cell after cell; `AddSegment` hands out the next segment index.

Go's map from address to value is the list of its entries, newest first; `lookup` finds the
value. The list order is also the order in which `ValidateExistingMemory` visits the cells,
where Go's map order is unspecified: nothing proved here depends on it.

Methods with a pointer receiver return the error they return (`none` for `nil`) together
with the receiver as they leave it, since Go keeps a write that a later check rejects. So
`Get` after `Insert` reads the value exactly at a free cell of an allocated segment, whatever
the segment's rule says, and reads every other address as before (`get_insert`).

The accessed set, `ComputeEffectiveSizes` and `Finalize` are in the memory package's
segment code, which is not in the repository's files; they follow the spec (§3, §4.4). The
sizes `ComputeEffectiveSizes` gives keep the spec's invariant that every cell of a segment lies
below its size (`offset_lt_computeEffectiveSizes`).
-/

namespace CairoVm

/-- Go's `map[Relocatable]MaybeRelocatable`, as the list of its entries. -/
abbrev Cells := List (Relocatable × MaybeRelocatable)

/-- `ValidationRule`: the addresses a rule validates at `addr`, reading the memory's cells. -/
def ValidationRule := Cells → Relocatable → Except VmError (List Relocatable)

/-- `Memory`, with the validation rules by segment and the accessed set. -/
structure Memory where
  data : Cells
  numSegments : Nat
  validationRules : List (Nat × ValidationRule)
  validatedAddresses : List Relocatable
  accessedAddresses : List Relocatable

/-- A value whose pointer, if it is one, has an offset below 2^64: the range of Go's `uint`,
which the model's natural-number offsets are kept to. -/
def MaybeRelocatable.Fits : MaybeRelocatable → Prop
  | .felt _ => True
  | .relocatable r => r.offset < 2 ^ 64

namespace Memory

/-- The memory of a new segment manager: no cells, no segments, no rules. -/
def empty : Memory := ⟨[], 0, [], [], []⟩

/-- `Get`. -/
def get (m : Memory) (addr : Relocatable) : Except VmError MaybeRelocatable :=
  match m.data.lookup addr with
  | some v => .ok v
  | none => .error (.valueNotFound addr)

/-- Modelled from the spec: `GetFelt`, the felt at `addr`, which `Get` reads and the builtins
call. -/
def getFelt (m : Memory) (addr : Relocatable) : Except VmError Felt :=
  match m.get addr with
  | .ok (.felt f) => .ok f
  | .ok (.relocatable _) => .error (.expectedFelt addr)
  | .error e => .error e

/-- Modelled from the spec: `GetRelocatable`, the pointer at `addr`, which `Get` reads and the
builtins call. -/
def getRelocatable (m : Memory) (addr : Relocatable) : Except VmError Relocatable :=
  match m.get addr with
  | .ok (.relocatable r) => .ok r
  | .ok (.felt _) => .error (.expectedRelocatable addr)
  | .error e => .error e

/-- `AddValidationRule`: the rule of a segment, replacing an earlier one. -/
def addValidationRule (m : Memory) (segmentIndex : Nat) (rule : ValidationRule) : Memory :=
  { m with validationRules := (segmentIndex, rule) :: m.validationRules }

/-- `validateAddress`: runs the rule of the address's segment, unless the address is
temporary or already validated, and records what the rule validated. -/
def validateAddress (m : Memory) (addr : Relocatable) : Option VmError × Memory :=
  if addr.segmentIndex < 0 ∨ addr ∈ m.validatedAddresses then (none, m)
  else match m.validationRules.lookup addr.segmentIndex.toNat with
    | none => (none, m)
    | some rule =>
      match rule m.data addr with
      | .error e => (some e, m)
      | .ok vs => (none, { m with validatedAddresses := m.validatedAddresses ++ vs })

/-- `Insert`: the segment must be allocated and the address free or already holding `val`;
the value is written before the rule runs. -/
def insert (m : Memory) (addr : Relocatable) (val : MaybeRelocatable) : Option VmError × Memory :=
  if (m.numSegments : Int) ≤ addr.segmentIndex then (some (.unallocatedSegment addr), m)
  else match m.data.lookup addr with
    | some prev =>
      if prev ≠ val then (some (.inconsistentMemory addr prev val), m)
      else m.validateAddress addr
    | none => { m with data := (addr, val) :: m.data }.validateAddress addr

/-- The loop of `ValidateExistingMemory` over the given addresses. -/
def validateAddresses (m : Memory) : List Relocatable → Option VmError × Memory
  | [] => (none, m)
  | a :: as =>
    match m.validateAddress a with
    | (some e, m) => (some e, m)
    | (none, m) => validateAddresses m as

/-- `ValidateExistingMemory`: every cell through its segment's rule. -/
def validateExistingMemory (m : Memory) : Option VmError × Memory :=
  m.validateAddresses (m.data.map Prod.fst)

/-- Modelled from the spec: `MarkAsAccessed` records the address in the accessed set (§3 (e)). -/
def markAsAccessed (m : Memory) (addr : Relocatable) : Memory :=
  { m with accessedAddresses := addr :: m.accessedAddresses }

/-! ## What the operations leave alone -/

theorem validateAddress_of_noRule {m : Memory} {addr : Relocatable}
    (h : m.validationRules.lookup addr.segmentIndex.toNat = none) :
    m.validateAddress addr = (none, m) := by
  unfold validateAddress; split <;> simp [h]

theorem validateAddresses_of_noRule {m : Memory} :
    ∀ {as : List Relocatable}, (∀ a ∈ as, m.validationRules.lookup a.segmentIndex.toNat = none) →
      m.validateAddresses as = (none, m)
  | [], _ => rfl
  | a :: as, h => by
    rw [validateAddresses, validateAddress_of_noRule (h a (List.mem_cons_self ..))]
    exact validateAddresses_of_noRule fun b hb => h b (List.mem_cons_of_mem _ hb)

/-- The value `Get` finds, as the VM reads it with the error dropped. -/
theorem get_toOption (m : Memory) (a : Relocatable) : (m.get a).toOption = m.data.lookup a := by
  unfold Memory.get
  cases m.data.lookup a <;> rfl

/-- A fresh address of an allocated segment without a rule takes the value and nothing else
changes. -/
theorem insert_fresh {m : Memory} {addr : Relocatable} (val : MaybeRelocatable)
    (hseg : addr.segmentIndex < m.numSegments) (hfree : m.data.lookup addr = none)
    (hrule : m.validationRules.lookup addr.segmentIndex.toNat = none) :
    m.insert addr val = (none, { m with data := (addr, val) :: m.data }) := by
  rw [insert, if_neg (by omega), hfree]
  exact validateAddress_of_noRule hrule

theorem validateAddress_data (m : Memory) (addr : Relocatable) :
    (m.validateAddress addr).2.data = m.data := by
  unfold validateAddress; split
  · rfl
  · split
    · rfl
    · split <;> rfl

theorem validateAddress_numSegments (m : Memory) (addr : Relocatable) :
    (m.validateAddress addr).2.numSegments = m.numSegments := by
  unfold validateAddress; split
  · rfl
  · split
    · rfl
    · split <;> rfl

theorem insert_numSegments (m : Memory) (addr : Relocatable) (val : MaybeRelocatable) :
    (m.insert addr val).2.numSegments = m.numSegments := by
  unfold insert; split
  · rfl
  split
  · split
    · rfl
    · exact validateAddress_numSegments _ _
  · exact validateAddress_numSegments _ _

/-- An `Insert` that succeeds leaves the value at the address. -/
theorem insert_lookup_self {m : Memory} {addr : Relocatable} {val : MaybeRelocatable}
    (h : (m.insert addr val).1 = none) : (m.insert addr val).2.data.lookup addr = some val := by
  by_cases hseg : (m.numSegments : Int) ≤ addr.segmentIndex
  · simp [insert, hseg] at h
  cases hprev : m.data.lookup addr with
  | none => simp [insert, hseg, hprev, validateAddress_data]
  | some prev =>
    by_cases hne : prev = val
    · simp [insert, hseg, hprev, hne, validateAddress_data]
    · simp [insert, hseg, hprev, hne] at h

/-- An `Insert` at a free address of an allocated segment writes the value even when the
segment's rule then rejects it. -/
theorem lookup_insert_self_of_free {m : Memory} {addr : Relocatable} (val : MaybeRelocatable)
    (hseg : addr.segmentIndex < m.numSegments) (hfree : m.data.lookup addr = none) :
    (m.insert addr val).2.data.lookup addr = some val := by
  simp only [insert, if_neg (show ¬ (m.numSegments : Int) ≤ addr.segmentIndex by omega), hfree,
    validateAddress_data, List.lookup_cons_self]

/-- Write-once: a different value at an address that holds one is refused, and the memory
is left as it was. -/
theorem insert_conflict {m : Memory} {addr : Relocatable} {prev val : MaybeRelocatable}
    (hseg : addr.segmentIndex < m.numSegments) (hprev : m.data.lookup addr = some prev)
    (hne : prev ≠ val) :
    m.insert addr val = (some (.inconsistentMemory addr prev val), m) := by
  have : ¬ (m.numSegments : Int) ≤ addr.segmentIndex := by omega
  simp [insert, this, hprev, hne]

/-! ## Write-once -/

/-- Every cell of `m` holds the same value in `m'`: what write-once memory promises of every
later state. -/
def Extends (m m' : Memory) : Prop :=
  ∀ a v, m.data.lookup a = some v → m'.data.lookup a = some v

theorem Extends.refl (m : Memory) : m.Extends m := fun _ _ h => h

theorem Extends.trans {m₁ m₂ m₃ : Memory} (h₁ : m₁.Extends m₂) (h₂ : m₂.Extends m₃) :
    m₁.Extends m₃ := fun a v h => h₂ a v (h₁ a v h)

theorem Extends.of_data_eq {m m' : Memory} (h : m'.data = m.data) : m.Extends m' := fun _ _ hv => h ▸ hv

theorem Extends.get {m m' : Memory} (h : m.Extends m') {a : Relocatable} {v : MaybeRelocatable}
    (hv : m.get a = .ok v) : m'.get a = .ok v := by
  unfold Memory.get at *
  split at hv
  · rw [h _ _ ‹_›]; exact hv
  · cases hv

theorem Extends.getFelt {m m' : Memory} (h : m.Extends m') {a : Relocatable} {f : Felt}
    (hf : m.getFelt a = .ok f) : m'.getFelt a = .ok f := by
  unfold Memory.getFelt at *
  split at hf <;> cases hf
  rw [h.get ‹_›]

/-- `Insert` never changes a cell, whether it succeeds or not. -/
theorem extends_insert (m : Memory) (addr : Relocatable) (val : MaybeRelocatable) :
    m.Extends (m.insert addr val).2 := by
  unfold insert
  split
  · exact Extends.refl m
  split
  · split
    · exact Extends.refl m
    · exact Extends.of_data_eq (validateAddress_data _ _)
  · rename_i hfree
    refine fun a v hv => ?_
    have hne : a ≠ addr := by
      rintro rfl
      rw [hfree] at hv
      cases hv
    rw [validateAddress_data, List.lookup_cons, beq_false_of_ne hne]
    exact hv

/-- `Insert` changes no cell but its own. -/
theorem lookup_insert_of_ne (m : Memory) {addr a : Relocatable} (val : MaybeRelocatable)
    (ha : a ≠ addr) : (m.insert addr val).2.data.lookup a = m.data.lookup a := by
  unfold insert
  split
  · rfl
  split
  · split
    · rfl
    · rw [validateAddress_data]
  · simp only [validateAddress_data, List.lookup_cons, beq_false_of_ne ha]

/-- The only cell an `Insert` can add is its own, and only in an allocated segment. -/
theorem lookup_insert_isSome {m : Memory} {addr a : Relocatable} {val : MaybeRelocatable}
    (h : ((m.insert addr val).2.data.lookup a).isSome) :
    (m.data.lookup a).isSome ∨ (a = addr ∧ addr.segmentIndex < m.numSegments) := by
  by_cases ha : a = addr
  · by_cases hseg : addr.segmentIndex < m.numSegments
    · exact .inr ⟨ha, hseg⟩
    · rw [insert, if_pos (by omega)] at h
      exact .inl h
  · rw [lookup_insert_of_ne m val ha] at h
    exact .inl h

/-- Every path of `Insert`, on the cells. -/
theorem lookup_insert (m : Memory) (addr a : Relocatable) (val : MaybeRelocatable) :
    (m.insert addr val).2.data.lookup a =
      if a = addr ∧ addr.segmentIndex < m.numSegments ∧ m.data.lookup addr = none then some val
      else m.data.lookup a := by
  split_ifs with h
  · obtain ⟨rfl, hseg, hfree⟩ := h
    exact lookup_insert_self_of_free val hseg hfree
  by_cases ha : a = addr
  · subst ha
    by_cases hseg : a.segmentIndex < m.numSegments
    · obtain ⟨prev, hprev⟩ := Option.ne_none_iff_exists'.mp fun hfree => h ⟨rfl, hseg, hfree⟩
      exact (extends_insert m a val a prev hprev).trans hprev.symm
    · rw [insert, if_pos (by omega)]
  · exact lookup_insert_of_ne m val ha

/-- Read after write, on every path of `Insert`: an address reads as the value exactly when it
is the one written, its segment is allocated and the cell was free, whether or not the
segment's rule then accepts it; an unallocated segment or a written cell is left as it was, and
every other address reads as before. -/
theorem get_insert (m : Memory) (addr a : Relocatable) (val : MaybeRelocatable) :
    (m.insert addr val).2.get a =
      if a = addr ∧ addr.segmentIndex < m.numSegments ∧ m.data.lookup addr = none then .ok val
      else m.get a := by
  unfold get
  rw [lookup_insert]
  split_ifs <;> rfl

/-- Every value memory holds fits. -/
def Fits (m : Memory) : Prop := ∀ a v, m.data.lookup a = some v → v.Fits

/-- Memory fits when every cell's value fits. -/
theorem fits_of_cells {m : Memory} (h : ∀ c ∈ m.data, c.2.Fits) : m.Fits := fun a v hv => by
  obtain ⟨_, _, hl, -⟩ := List.lookup_eq_some_iff.mp hv
  exact h (a, v) (hl ▸ List.mem_append_right _ (List.mem_cons_self _ _))

theorem Fits.get {m : Memory} (h : m.Fits) {a : Relocatable} {v : MaybeRelocatable}
    (hv : m.get a = .ok v) : v.Fits := by
  unfold Memory.get at hv
  split at hv
  · cases hv; exact h _ _ ‹_›
  · cases hv

/-- `Insert` of a value that fits keeps every value fitting, whether it succeeds or not. -/
theorem fits_insert {m : Memory} (h : m.Fits) (addr : Relocatable) {val : MaybeRelocatable}
    (hval : val.Fits) : (m.insert addr val).2.Fits := by
  unfold insert
  split
  · exact h
  split
  · split
    · exact h
    · intro a v hv; rw [validateAddress_data] at hv; exact h a v hv
  · intro a v hv
    rw [validateAddress_data, List.lookup_cons] at hv
    split at hv
    · cases hv; exact hval
    · exact h a v hv

end Memory

/-! ## The segment manager -/

/-- `MemorySegmentManager`: the memory, and the per-segment tables the runner fills at the
end of a run (used sizes, finalized sizes, public-memory offsets), Go maps from a segment
index. -/
structure MemorySegmentManager where
  memory : Memory
  segmentUsedSizes : Nat → Option Nat
  segmentSizes : Nat → Option Nat
  publicMemoryOffsets : Nat → Option (List Nat)

namespace MemorySegmentManager

/-- The segment manager of a new VM. -/
def empty : MemorySegmentManager := ⟨Memory.empty, fun _ => none, fun _ => none, fun _ => none⟩

/-- `AddSegment`: the base of a new segment, `(num_segments, 0)`. -/
def addSegment (s : MemorySegmentManager) : Relocatable × MemorySegmentManager :=
  (⟨s.memory.numSegments, 0⟩,
    { s with memory := { s.memory with numSegments := s.memory.numSegments + 1 } })

/-- `LoadData`: inserts `data` from `ptr` on and returns the address after it; on the first
failed insertion it returns `(0, 0)` and the error. -/
def loadData (s : MemorySegmentManager) (ptr : Relocatable) :
    List MaybeRelocatable → (Relocatable × Option VmError) × MemorySegmentManager
  | [] => ((ptr, none), s)
  | v :: vs =>
    match s.memory.insert ptr v with
    | (some e, m) => ((⟨0, 0⟩, some e), { s with memory := m })
    | (none, m) => loadData { s with memory := m } ⟨ptr.segmentIndex, ptr.offset + 1⟩ vs

/-- Modelled from the spec: `ComputeEffectiveSizes` gives each allocated segment the size
`max offset + 1` over its cells, `0` when it has none (§4.4). -/
def computeEffectiveSizes (s : MemorySegmentManager) : MemorySegmentManager :=
  { s with segmentUsedSizes := fun i =>
      if i < s.memory.numSegments then
        some ((s.memory.data.filter (·.1.segmentIndex = (i : Int))).foldl
          (fun acc c => max acc (c.1.offset + 1)) 0)
      else none }

/-- Modelled from the spec: `GetSegmentUsedSize`, the size `ComputeEffectiveSizes` recorded
for a segment, and an error for a segment it has not sized. -/
def getSegmentUsedSize (s : MemorySegmentManager) (index : Nat) : Except VmError Nat :=
  match s.segmentUsedSizes index with
  | some size => .ok size
  | none => .error (.segmentUsedSizeUnknown index)

/-- Modelled from the spec: `Finalize` records a segment's size and its public-memory offsets,
each when given (§4.6, step 7). -/
def finalize (s : MemorySegmentManager) (size : Option Nat) (segmentIndex : Nat)
    (publicMemory : Option (List Nat)) : MemorySegmentManager :=
  { s with
    segmentSizes := match size with
      | some n => Function.update s.segmentSizes segmentIndex (some n)
      | none => s.segmentSizes
    publicMemoryOffsets := match publicMemory with
      | some l => Function.update s.publicMemoryOffsets segmentIndex (some l)
      | none => s.publicMemoryOffsets }

@[simp] theorem addSegment_fst (s : MemorySegmentManager) :
    s.addSegment.1 = ⟨s.memory.numSegments, 0⟩ := rfl

@[simp] theorem addSegment_numSegments (s : MemorySegmentManager) :
    s.addSegment.2.memory.numSegments = s.memory.numSegments + 1 := rfl

@[simp] theorem addSegment_data (s : MemorySegmentManager) :
    s.addSegment.2.memory.data = s.memory.data := rfl

@[simp] theorem addSegment_validationRules (s : MemorySegmentManager) :
    s.addSegment.2.memory.validationRules = s.memory.validationRules := rfl

@[simp] theorem addSegment_accessedAddresses (s : MemorySegmentManager) :
    s.addSegment.2.memory.accessedAddresses = s.memory.accessedAddresses := rfl

/-! ## Loading a list -/

/-- The entries `LoadData` adds from `ptr` on, newest first. -/
def loadedCells (ptr : Relocatable) : List MaybeRelocatable → Cells
  | [] => []
  | v :: vs => loadedCells ⟨ptr.segmentIndex, ptr.offset + 1⟩ vs ++ [(ptr, v)]

theorem mem_loadedCells {ptr : Relocatable} :
    ∀ {vs : List MaybeRelocatable} {c : Relocatable × MaybeRelocatable}, c ∈ loadedCells ptr vs →
      c.1.segmentIndex = ptr.segmentIndex ∧ ptr.offset ≤ c.1.offset ∧
        c.1.offset < ptr.offset + vs.length
  | [], _, h => absurd h (List.not_mem_nil _)
  | v :: vs, c, h => by
    rw [loadedCells, List.mem_append, List.mem_singleton] at h
    rcases h with h | rfl
    · have := mem_loadedCells h
      simp only [List.length_cons] at this ⊢
      omega
    · simp

theorem lookup_loadedCells_of_segment_ne {ptr a : Relocatable} {vs : List MaybeRelocatable}
    (h : a.segmentIndex ≠ ptr.segmentIndex) : (loadedCells ptr vs).lookup a = none := by
  simp only [List.lookup_eq_none_iff, bne_iff_ne]
  rintro c hc rfl
  exact h (mem_loadedCells hc).1

theorem lookup_loadedCells {ptr : Relocatable} :
    ∀ {vs : List MaybeRelocatable} {j : Nat} (hj : j < vs.length),
      (loadedCells ptr vs).lookup ⟨ptr.segmentIndex, ptr.offset + j⟩ = some (vs.get ⟨j, hj⟩)
  | v :: vs, 0, _ => by
    have hnone : (loadedCells ⟨ptr.segmentIndex, ptr.offset + 1⟩ vs).lookup ptr = none := by
      simp only [List.lookup_eq_none_iff, bne_iff_ne]
      intro c hc heq
      have := mem_loadedCells hc
      rw [← heq] at this
      simp only at this
      omega
    simp [loadedCells, List.lookup_append, hnone]
  | v :: vs, j + 1, hj => by
    have h := @lookup_loadedCells ⟨ptr.segmentIndex, ptr.offset + 1⟩ _ _
      (Nat.lt_of_succ_lt_succ hj)
    simp only at h
    rw [loadedCells, List.lookup_append, show ptr.offset + (j + 1) = ptr.offset + 1 + j by omega, h]
    rfl

/-- The loaded range read back: the `j`-th value, and nothing past the end. -/
theorem lookup_loadedCells_eq_getElem? {ptr : Relocatable} {vs : List MaybeRelocatable}
    (j : Nat) : (loadedCells ptr vs).lookup ⟨ptr.segmentIndex, ptr.offset + j⟩ = vs[j]? := by
  by_cases hj : j < vs.length
  · rw [lookup_loadedCells hj, List.getElem?_eq_getElem hj]; rfl
  · rw [List.getElem?_eq_none (by omega), List.lookup_eq_none_iff]
    intro c hc
    have := mem_loadedCells hc
    rw [bne_iff_ne]
    intro heq
    rw [← heq] at this
    simp only at this
    omega

/-- Two ranges loaded into different segments, each read back. -/
theorem lookup_loadedCells_append {e p : Relocatable} {S D : List MaybeRelocatable}
    (hne : e.segmentIndex ≠ p.segmentIndex) (j : Nat) :
    (loadedCells e S ++ loadedCells p D).lookup ⟨e.segmentIndex, e.offset + j⟩ = S[j]? ∧
      (loadedCells e S ++ loadedCells p D).lookup ⟨p.segmentIndex, p.offset + j⟩ = D[j]? := by
  rw [List.lookup_append, List.lookup_append, lookup_loadedCells_eq_getElem?,
    lookup_loadedCells_eq_getElem?,
    lookup_loadedCells_of_segment_ne (a := ⟨e.segmentIndex, e.offset + j⟩) hne,
    lookup_loadedCells_of_segment_ne (a := ⟨p.segmentIndex, p.offset + j⟩) (Ne.symm hne)]
  cases S[j]? <;> simp

/-- `LoadData` into free cells of an allocated segment without a rule: every value lands at
its offset and nothing else changes. -/
theorem loadData_fresh {ptr : Relocatable} :
    ∀ {vs : List MaybeRelocatable} {s : MemorySegmentManager},
      ptr.segmentIndex < s.memory.numSegments →
      s.memory.validationRules.lookup ptr.segmentIndex.toNat = none →
      (∀ j, j < vs.length → s.memory.data.lookup ⟨ptr.segmentIndex, ptr.offset + j⟩ = none) →
      s.loadData ptr vs = ((⟨ptr.segmentIndex, ptr.offset + vs.length⟩, none),
        { s with memory := { s.memory with data := loadedCells ptr vs ++ s.memory.data } })
  | [], s, _, _, _ => by simp [loadData, loadedCells]
  | v :: vs, s, hseg, hrule, hfree => by
    have h0 := hfree 0 (Nat.succ_pos _)
    simp only [Nat.add_zero] at h0
    rw [loadData, Memory.insert_fresh v hseg h0 hrule]
    have hfree' : ∀ j, j < vs.length →
        ((ptr, v) :: s.memory.data).lookup ⟨ptr.segmentIndex, ptr.offset + 1 + j⟩ = none := by
      intro j hj
      have hne : (⟨ptr.segmentIndex, ptr.offset + 1 + j⟩ : Relocatable) ≠ ptr := fun h => by
        have := congrArg Relocatable.offset h
        simp only at this
        omega
      rw [List.lookup_cons, beq_false_of_ne hne, Nat.add_assoc, Nat.add_comm 1 j]
      exact hfree (j + 1) (Nat.succ_lt_succ hj)
    dsimp only
    rw [@loadData_fresh ⟨ptr.segmentIndex, ptr.offset + 1⟩ _
      { s with memory := { s.memory with data := (ptr, v) :: s.memory.data } }
      hseg hrule hfree']
    simp [loadedCells, Nat.add_assoc, Nat.add_comm 1]

/-! ## Segment sizes -/

/-- The fold of `ComputeEffectiveSizes` is no less than where it starts, and passes every offset
it folds over. -/
theorem lt_foldl_max_offset (l : List (Relocatable × MaybeRelocatable)) (a : Nat) :
    a ≤ l.foldl (fun acc c => max acc (c.1.offset + 1)) a ∧
      ∀ c ∈ l, c.1.offset < l.foldl (fun acc c => max acc (c.1.offset + 1)) a := by
  induction l generalizing a with
  | nil => simp
  | cons c cs ih =>
    obtain ⟨hle, hlt⟩ := ih (max a (c.1.offset + 1))
    refine ⟨Nat.le_trans (Nat.le_max_left _ _) hle, ?_⟩
    intro c' hc'
    rcases List.mem_cons.mp hc' with rfl | hc'
    · exact Nat.lt_of_lt_of_le (Nat.lt_succ_self _) (Nat.le_trans (Nat.le_max_right _ _) hle)
    · exact hlt c' hc'

/-- Every allocated segment gets a size, and every cell of it lies below that size. -/
theorem offset_lt_computeEffectiveSizes (s : MemorySegmentManager) {i : Nat}
    (hi : i < s.memory.numSegments) :
    ∃ size, s.computeEffectiveSizes.segmentUsedSizes i = some size ∧
      ∀ c ∈ s.memory.data, c.1.segmentIndex = (i : Int) → c.1.offset < size := by
  refine ⟨_, if_pos hi, fun c hc hseg => ?_⟩
  exact (lt_foldl_max_offset _ 0).2 c (List.mem_filter.mpr ⟨hc, by simpa using hseg⟩)

end MemorySegmentManager

end CairoVm
