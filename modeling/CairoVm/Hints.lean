import CairoVm.Builtins.Runner

/-!
# Hints of the math library

Four hints of `math.cairo` as the repository writes them: `assert_nn`, `is_positive`,
`assert_not_zero` and `assert_not_equal`. A hint reads the cells its identifiers name and
may write one; only the VM's memory is touched, so a hint here is a function of the
identifiers and the memory.

The results are each hint's outcome as a function of the values it reads, over every memory:

* `assert_nn` fails from 2^127 on, where the range check it guards accepts up to 2^128: the
  comparison `Bits() >= 128` is off by one bit against the rule's `Bits() <= 128`;
* `is_positive` has the same bound on the absolute value of the signed lift, and returns
  `nil` whatever its write of `ids.is_positive` returns; a write that succeeds stores the sign;
* `assert_not_zero` fails exactly on the zero felt;
* `assert_not_equal` decides two pointers of one segment by subtracting them, and the
  subtraction fails when the first has the smaller offset.
-/

namespace CairoVm

/-! ## Identifiers -/

/-- The identifiers of a hint, `IdsManager`, which is not in the repository's files: each
identifier is the address its reference resolves to, and `Get`, `GetFelt` and `Insert` act
on the VM's memory there. -/
structure IdsManager where
  references : List (String × Relocatable)

namespace IdsManager

/-- `Get`. -/
def get (ids : IdsManager) (name : String) (mem : Memory) : Except VmError MaybeRelocatable :=
  match ids.references.lookup name with
  | some addr => mem.get addr
  | none => .error (.unknownIdentifier name)

/-- `GetFelt`. -/
def getFelt (ids : IdsManager) (name : String) (mem : Memory) : Except VmError Felt :=
  match ids.references.lookup name with
  | some addr => mem.getFelt addr
  | none => .error (.unknownIdentifier name)

/-- `Insert`. -/
def insert (ids : IdsManager) (name : String) (v : MaybeRelocatable) (mem : Memory) :
    Option VmError × Memory :=
  match ids.references.lookup name with
  | some addr => mem.insert addr v
  | none => (some (.unknownIdentifier name), mem)

end IdsManager

/-! ## The hints -/

/-- `assert_nn`. -/
def assertNn (ids : IdsManager) (mem : Memory) : Option VmError :=
  match ids.getFelt "a" mem with
  | .error e => some e
  | .ok a =>
    if RANGE_CHECK_N_PARTS * INNER_RC_BOUND_SHIFT ≤ a.bits then some (.assertNnOutOfRange a)
    else none

/-- `is_positive`. `BitLen` of a big integer is the bit length of its absolute value, and the
error of `ids.Insert` is dropped. -/
def isPositive (ids : IdsManager) (mem : Memory) : Option VmError × Memory :=
  match ids.getFelt "value" mem with
  | .error e => (some e, mem)
  | .ok value =>
    let signedValue := value.toSigned
    if RANGE_CHECK_N_PARTS * INNER_RC_BOUND_SHIFT ≤ Nat.size signedValue.natAbs then
      (some (.isPositiveOutOfRange signedValue), mem)
    else
      let isPositive := if 0 < signedValue then 1 else 0
      (none, (ids.insert "is_positive" (.felt (Felt.ofNat isPositive)) mem).2)

/-- `assert_not_zero`. -/
def assertNotZero (ids : IdsManager) (mem : Memory) : Option VmError :=
  match ids.getFelt "value" mem with
  | .error e => some e
  | .ok value => if value.isZero then some (.assertNotZeroFailed value) else none

/-- The test `assert_not_equal` makes before it subtracts: two pointers of one segment, or two
felts. -/
def comparable : MaybeRelocatable → MaybeRelocatable → Bool
  | .relocatable aRel, .relocatable bRel => aRel.segmentIndex == bRel.segmentIndex
  | .felt _, .felt _ => true
  | _, _ => false

/-- `assert_not_equal`: two felts, or two pointers of one segment, are compared through
`MaybeRelocatable.Sub`. -/
def assertNotEqual (ids : IdsManager) (mem : Memory) : Option VmError :=
  match ids.get "a" mem, ids.get "b" mem with
  | .error e, _ => some e
  | .ok _, .error e => some e
  | .ok a, .ok b =>
    if !comparable a b then some (.nonComparableValues a b)
    else match a.sub b with
      | .error e => some e
      | .ok diff => if diff.isZero then some (.assertNotEqualFailed a b) else none

/-! ## What each hint returns -/

section
variable {ids : IdsManager} {mem : Memory}

theorem assertNn_of_getFelt {a : Felt} (h : ids.getFelt "a" mem = .ok a) :
    assertNn ids mem = if a.val < 2 ^ 127 then none else some (.assertNnOutOfRange a) := by
  simp only [assertNn, h, Felt.bits, rcBound_le_size_iff]
  split_ifs <;> first | rfl | omega

/-- `is_positive` fails exactly on a signed lift of absolute value 2^127 or more. Otherwise it
returns `nil`, with the memory as its write of the sign leaves it, whether or not that write
succeeded. -/
theorem isPositive_of_getFelt {v : Felt} (h : ids.getFelt "value" mem = .ok v) :
    isPositive ids mem =
      if v.toSigned.natAbs < 2 ^ 127 then
        (none, (ids.insert "is_positive"
          (.felt (Felt.ofNat (if 0 < v.toSigned then 1 else 0))) mem).2)
      else (some (.isPositiveOutOfRange v.toSigned), mem) := by
  simp only [isPositive, h, rcBound_le_size_iff]
  split_ifs <;> first | rfl | omega

/-- A write of the sign that succeeds stores 1 for a positive lift and 0 otherwise. -/
theorem isPositive_stores_sign {v : Felt} {addr : Relocatable}
    (h : ids.getFelt "value" mem = .ok v) (hv : v.toSigned.natAbs < 2 ^ 127)
    (haddr : ids.references.lookup "is_positive" = some addr)
    (hw : (mem.insert addr (.felt (Felt.ofNat (if 0 < v.toSigned then 1 else 0)))).1 = none) :
    (isPositive ids mem).2.data.lookup addr =
      some (.felt (Felt.ofNat (if 0 < v.toSigned then 1 else 0))) := by
  rw [isPositive_of_getFelt h, if_pos hv]
  simp only [IdsManager.insert, haddr]
  exact Memory.insert_lookup_self hw

theorem assertNotZero_of_getFelt {v : Felt} (h : ids.getFelt "value" mem = .ok v) :
    assertNotZero ids mem = if v.val = 0 then some (.assertNotZeroFailed v) else none := by
  simp [assertNotZero, h, Felt.isZero]

theorem assertNotEqual_felts {x y : Felt} (ha : ids.get "a" mem = .ok (.felt x))
    (hb : ids.get "b" mem = .ok (.felt y)) :
    assertNotEqual ids mem =
      if x = y then some (.assertNotEqualFailed (.felt x) (.felt y)) else none := by
  simp [assertNotEqual, ha, hb, comparable, MaybeRelocatable.sub, MaybeRelocatable.isZero,
    Felt.sub_isZero_iff]

/-- Two pointers of one segment: equal offsets fail the assertion, and a first pointer below
the second fails the subtraction. -/
theorem assertNotEqual_relocatables {x y : Relocatable}
    (ha : ids.get "a" mem = .ok (.relocatable x)) (hb : ids.get "b" mem = .ok (.relocatable y))
    (hseg : x.segmentIndex = y.segmentIndex) (hoff : x.offset < 2 ^ 64) :
    assertNotEqual ids mem =
      if x.offset < y.offset then some .relocatableSubNegOffset
      else if x.offset = y.offset then
        some (.assertNotEqualFailed (.relocatable x) (.relocatable y))
      else none := by
  have hprime : x.offset - y.offset < PRIME := by unfold PRIME; omega
  rcases Nat.lt_trichotomy x.offset y.offset with hlt | heq | hgt
  · simp [assertNotEqual, ha, hb, comparable, hseg, MaybeRelocatable.sub, Relocatable.sub, hlt]
  · simp [assertNotEqual, ha, hb, comparable, hseg, MaybeRelocatable.sub, Relocatable.sub, heq,
      MaybeRelocatable.isZero, Felt.isZero_ofNat_of_lt hprime]
    decide
  · simp [assertNotEqual, ha, hb, comparable, hseg, MaybeRelocatable.sub, Relocatable.sub,
      MaybeRelocatable.isZero, Felt.isZero_ofNat_of_lt hprime, Nat.not_lt.mpr (Nat.le_of_lt hgt),
      Nat.ne_of_gt hgt]
    omega

theorem assertNotEqual_nonComparable {a b : MaybeRelocatable} (ha : ids.get "a" mem = .ok a)
    (hb : ids.get "b" mem = .ok b) (h : comparable a b = false) :
    assertNotEqual ids mem = some (.nonComparableValues a b) := by
  simp [assertNotEqual, ha, hb, h]

end

/-! ## Where the hints part from what they guard -/

theorem assertNn_two_pow_127 :
    assertNn ⟨[("a", ⟨2, 0⟩)]⟩ ⟨[(⟨2, 0⟩, .felt (Felt.ofNat (2 ^ 127)))], 3, [], [], []⟩ =
        some (.assertNnOutOfRange (Felt.ofNat (2 ^ 127))) ∧
      rangeCheckValidationRule [(⟨2, 0⟩, .felt (Felt.ofNat (2 ^ 127)))] ⟨2, 0⟩ = .ok [⟨2, 0⟩] :=
  ⟨(assertNn_of_getFelt (by rfl)).trans (if_neg (by decide)),
   (rangeCheckValidationRule_felt _ _ _ (by rfl)).trans (if_pos (by decide))⟩

theorem isPositive_two_pow_127_or_prefilled :
    isPositive ⟨[("value", ⟨2, 0⟩), ("is_positive", ⟨2, 1⟩)]⟩
        ⟨[(⟨2, 0⟩, .felt (Felt.ofNat (2 ^ 127)))], 3, [], [], []⟩ =
      (some (.isPositiveOutOfRange (2 ^ 127 : Nat)),
        ⟨[(⟨2, 0⟩, .felt (Felt.ofNat (2 ^ 127)))], 3, [], [], []⟩) ∧
    isPositive ⟨[("value", ⟨2, 0⟩), ("is_positive", ⟨2, 1⟩)]⟩
        ⟨[(⟨2, 0⟩, .felt (Felt.ofNat 1)), (⟨2, 1⟩, .felt (Felt.ofNat 0))], 3, [], [], []⟩ =
      (none, ⟨[(⟨2, 0⟩, .felt (Felt.ofNat 1)), (⟨2, 1⟩, .felt (Felt.ofNat 0))], 3, [], [], []⟩) := by
  have hlt : 2 ^ 127 < PRIME := by decide
  have hs : (Felt.ofNat (2 ^ 127)).toSigned = (2 ^ 127 : Nat) := by
    rw [Felt.toSigned_of_le_half, Felt.val_ofNat_of_lt hlt]
    rw [Felt.val_ofNat_of_lt hlt]; decide
  exact ⟨(isPositive_of_getFelt (by rfl)).trans (by rw [hs, if_neg (by decide)]),
    (isPositive_of_getFelt (v := Felt.ofNat 1) (by rfl)).trans (by rw [if_pos (by decide)]; rfl)⟩

theorem assertNotEqual_lower_offset_first :
    assertNotEqual ⟨[("a", ⟨2, 0⟩), ("b", ⟨2, 1⟩)]⟩
        ⟨[(⟨2, 0⟩, .relocatable ⟨1, 0⟩), (⟨2, 1⟩, .relocatable ⟨1, 1⟩)], 3, [], [], []⟩ =
      some .relocatableSubNegOffset :=
  (assertNotEqual_relocatables (x := ⟨1, 0⟩) (y := ⟨1, 1⟩) (by rfl) (by rfl) rfl
    (by decide)).trans (if_pos (by decide))

end CairoVm
