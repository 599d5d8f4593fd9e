import Mathlib.Data.Nat.Bitwise
import CairoVm.Basic

/-!
# Instruction decoding

`DecodeInstruction` of the README's code walkthrough reads a 63-bit word: three 16-bit
offsets in biased representation, then a block of flags from bit 48, each a small field
cut out with a mask and a shift and looked up in a `switch` that rejects the unused
patterns. Two fields read another: `res_logic` 0 is `ResUnconstrained` under a `jnz`, and
`ap_update` 0 is `ApUpdateAdd2` under a `call`; `fp_update` has no bits and follows the
opcode.

The decoder is exactly the inverse of the encoding the spec's table describes
(`Instruction.encode`, §4.1): on every 64-bit word it returns the instruction `i` iff `i`
is well formed (offsets in `[-2^15, 2^15)`, and the field combinations the table can
express) and `i` encodes to the word (`decodeInstruction_eq_ok_iff`). So it accepts no
word twice, and every well-formed instruction has a word.

The masks and shifts are turned into `/` and `%` once, in the lemmas of the first section;
the round trip is digit arithmetic closed by `omega`.
-/

namespace CairoVm

/-! ## Instructions -/

/-- `Register`: the register an operand's address is relative to. -/
inductive Register where
  | ap
  | fp
  deriving DecidableEq, Repr

/-- `Op1Src`: where op1's address comes from. -/
inductive Op1Src where
  | imm
  | ap
  | fp
  | op0
  deriving DecidableEq, Repr

/-- `ResLogic`: how `res` is computed from the operands. -/
inductive ResLogic where
  | op1
  | add
  | mul
  | unconstrained
  deriving DecidableEq, Repr

/-- `PcUpdate`. -/
inductive PcUpdate where
  | regular
  | jump
  | jumpRel
  | jnz
  deriving DecidableEq, Repr

/-- `ApUpdate`. -/
inductive ApUpdate where
  | regular
  | add
  | add1
  | add2
  deriving DecidableEq, Repr

/-- `FpUpdate`. -/
inductive FpUpdate where
  | regular
  | apPlus2
  | dst
  deriving DecidableEq, Repr

/-- `Opcode`. -/
inductive Opcode where
  | nOp
  | assertEq
  | call
  | ret
  deriving DecidableEq, Repr

/-- `Instruction`, a decoded word. -/
structure Instruction where
  off0 : Int
  off1 : Int
  off2 : Int
  dstReg : Register
  op0Reg : Register
  op1Addr : Op1Src
  resLogic : ResLogic
  pcUpdate : PcUpdate
  apUpdate : ApUpdate
  fpUpdate : FpUpdate
  opcode : Opcode
  deriving DecidableEq, Repr

/-- `Instruction.Size`: 2 with an immediate operand, which follows the instruction, else 1. -/
def Instruction.size (i : Instruction) : Nat := if i.op1Addr = .imm then 2 else 1

/-! ## The decoder -/

/-- `fromBiasedRepresentation`: `int(int16(uint16(offset) - bias))` with `bias = 2^15`, the
subtraction wrapping in 16 bits and the result read in two's complement. -/
def fromBiasedRepresentation (offset : Nat) : Int :=
  let v : Nat := (offset % 2 ^ 16 + 2 ^ 16 - 2 ^ 15) % 2 ^ 16
  if v < 2 ^ 15 then v else (v : Int) - 2 ^ 16

/-- The `switch op1SrcNum` of `DecodeInstruction`. -/
def decodeOp1Src : Nat → Except VmError Op1Src
  | 0 => .ok .op0
  | 1 => .ok .imm
  | 2 => .ok .fp
  | 4 => .ok .ap
  | _ => .error .invalidOp1Reg

/-- The `switch pcUpdateNum` of `DecodeInstruction`. -/
def decodePcUpdate : Nat → Except VmError PcUpdate
  | 0 => .ok .regular
  | 1 => .ok .jump
  | 2 => .ok .jumpRel
  | 4 => .ok .jnz
  | _ => .error .invalidPcUpdate

/-- The `switch resLogicNum` of `DecodeInstruction`, which reads the decoded pc update. -/
def decodeResLogic (pcUpdate : PcUpdate) : Nat → Except VmError ResLogic
  | 0 => .ok (if pcUpdate = .jnz then .unconstrained else .op1)
  | 1 => .ok .add
  | 2 => .ok .mul
  | _ => .error .invalidRes

/-- The `switch opCodeNum` of `DecodeInstruction`. -/
def decodeOpcode : Nat → Except VmError Opcode
  | 0 => .ok .nOp
  | 1 => .ok .call
  | 2 => .ok .ret
  | 4 => .ok .assertEq
  | _ => .error .invalidOpcode

/-- The `switch apUpdateNum` of `DecodeInstruction`, which reads the decoded opcode. -/
def decodeApUpdate (opcode : Opcode) : Nat → Except VmError ApUpdate
  | 0 => .ok (if opcode = .call then .add2 else .regular)
  | 1 => .ok .add
  | 2 => .ok .add1
  | _ => .error .invalidApUpdate

/-- The `switch opcode` of `DecodeInstruction`: the fp update the opcode implies. -/
def fpUpdateOf : Opcode → FpUpdate
  | .call => .apPlus2
  | .ret => .dst
  | _ => .regular

/-- `DecodeInstruction`, on the `uint64` the step reads: the high bit must be clear, and
the flag fields are decoded in the source's order, so that the first bad field names the
error. -/
def decodeInstruction (encodedInstruction : Nat) : Except VmError Instruction :=
  if encodedInstruction &&& 2 ^ 63 ≠ 0 then .error .nonZeroHighBit else do
    let flags := encodedInstruction >>> 48
    let op1Src ← decodeOp1Src ((flags &&& 0x001C) >>> 2)
    let pcUpdate ← decodePcUpdate ((flags &&& 0x0380) >>> 7)
    let res ← decodeResLogic pcUpdate ((flags &&& 0x0060) >>> 5)
    let opcode ← decodeOpcode ((flags &&& 0x7000) >>> 12)
    let apUpdate ← decodeApUpdate opcode ((flags &&& 0x0C00) >>> 10)
    pure
      { off0 := fromBiasedRepresentation (encodedInstruction &&& 0xFFFF)
        off1 := fromBiasedRepresentation ((encodedInstruction >>> 16) &&& 0xFFFF)
        off2 := fromBiasedRepresentation ((encodedInstruction >>> 32) &&& 0xFFFF)
        dstReg := if (flags &&& 0x0001) >>> 0 = 1 then .fp else .ap
        op0Reg := if (flags &&& 0x0002) >>> 1 = 1 then .fp else .ap
        op1Addr := op1Src
        resLogic := res
        pcUpdate := pcUpdate
        apUpdate := apUpdate
        fpUpdate := fpUpdateOf opcode
        opcode := opcode }

/-! ## The encoding the decoder reads -/

/-- The bits of a register in the flag block (spec §4.1). -/
def Register.code : Register → Nat
  | .ap => 0
  | .fp => 1

/-- The bits of an op1 source. -/
def Op1Src.code : Op1Src → Nat
  | .op0 => 0
  | .imm => 1
  | .fp => 2
  | .ap => 4

/-- The bits of a res logic; `unconstrained` shares `op1`'s, told apart by the pc update. -/
def ResLogic.code : ResLogic → Nat
  | .op1 => 0
  | .add => 1
  | .mul => 2
  | .unconstrained => 0

/-- The bits of a pc update. -/
def PcUpdate.code : PcUpdate → Nat
  | .regular => 0
  | .jump => 1
  | .jumpRel => 2
  | .jnz => 4

/-- The bits of an ap update; `add2` shares `regular`'s, told apart by the opcode. -/
def ApUpdate.code : ApUpdate → Nat
  | .regular => 0
  | .add => 1
  | .add1 => 2
  | .add2 => 0

/-- The bits of an opcode. -/
def Opcode.code : Opcode → Nat
  | .nOp => 0
  | .call => 1
  | .ret => 2
  | .assertEq => 4

/-- The flag block: `dst_reg` at bit 0, `op0_reg` at 1, `op1_src` at 2, `res_logic` at 5,
`pc_update` at 7, `ap_update` at 10 and `opcode` at 12. -/
def Instruction.flags (i : Instruction) : Nat :=
  i.dstReg.code + 2 * i.op0Reg.code + 4 * i.op1Addr.code + 32 * i.resLogic.code +
    128 * i.pcUpdate.code + 1024 * i.apUpdate.code + 4096 * i.opcode.code

/-- The word of an instruction (spec §4.1): the three offsets biased by 2^15 in the low
16-bit groups, then the flag block from bit 48. -/
def Instruction.encode (i : Instruction) : Nat :=
  (i.off0 + 2 ^ 15).toNat + 2 ^ 16 * (i.off1 + 2 ^ 15).toNat +
    2 ^ 32 * (i.off2 + 2 ^ 15).toNat + 2 ^ 48 * i.flags

/-- The instructions a word can hold: 16-bit offsets, an unconstrained res exactly under a
`jnz` with res bits 0, an `add2` ap update exactly under a `call` with ap bits 0, and the fp
update the opcode implies. -/
structure Instruction.WellFormed (i : Instruction) : Prop where
  off0 : -2 ^ 15 ≤ i.off0 ∧ i.off0 < 2 ^ 15
  off1 : -2 ^ 15 ≤ i.off1 ∧ i.off1 < 2 ^ 15
  off2 : -2 ^ 15 ≤ i.off2 ∧ i.off2 < 2 ^ 15
  unconstrained_jnz : i.resLogic = .unconstrained → i.pcUpdate = .jnz
  op1_not_jnz : i.resLogic = .op1 → i.pcUpdate ≠ .jnz
  add2_call : i.apUpdate = .add2 → i.opcode = .call
  regular_not_call : i.apUpdate = .regular → i.opcode ≠ .call
  fpUpdate_eq : i.fpUpdate = fpUpdateOf i.opcode

/-! ## Masks as arithmetic -/

/-- A mask of `w` ones at `off`, then a shift by `off`: the `w` bits from `off` on. -/
theorem and_mask_shiftRight (n w off : Nat) :
    (n &&& ((2 ^ w - 1) <<< off)) >>> off = n / 2 ^ off % 2 ^ w := by
  apply Nat.eq_of_testBit_eq
  intro i
  rw [Nat.testBit_shiftRight, Nat.testBit_land, Nat.testBit_shiftLeft, Nat.testBit_two_pow_sub_one,
    ← Nat.shiftRight_eq_div_pow, Nat.testBit_mod_two_pow, Nat.testBit_shiftRight]
  by_cases h : i < w <;> simp [h]

theorem and_high_bit_eq_zero (x : Nat) : x &&& 2 ^ 63 = 0 ↔ x / 2 ^ 63 % 2 = 0 := by
  rw [Nat.and_two_pow, Nat.testBit_to_div_mod]
  by_cases h : x / 2 ^ 63 % 2 = 1 <;> simp [h]

theorem and_low16 (x : Nat) : x &&& 0xFFFF = x % 2 ^ 16 := Nat.and_pow_two_sub_one_eq_mod x 16

/-- The flag fields of `DecodeInstruction` as digits of the flag block. -/
theorem decodeInstruction_flags (f : Nat) :
    (f &&& 0x0001) >>> 0 = f % 2 ∧ (f &&& 0x0002) >>> 1 = f / 2 % 2 ∧
      (f &&& 0x001C) >>> 2 = f / 4 % 8 ∧ (f &&& 0x0060) >>> 5 = f / 32 % 4 ∧
      (f &&& 0x0380) >>> 7 = f / 128 % 8 ∧ (f &&& 0x0C00) >>> 10 = f / 1024 % 4 ∧
      (f &&& 0x7000) >>> 12 = f / 4096 % 8 :=
  ⟨and_mask_shiftRight f 1 0 |>.trans (by rw [Nat.pow_zero, Nat.div_one, Nat.pow_one]), and_mask_shiftRight f 1 1,
    and_mask_shiftRight f 3 2, and_mask_shiftRight f 2 5, and_mask_shiftRight f 3 7,
    and_mask_shiftRight f 2 10, and_mask_shiftRight f 3 12⟩

/-- A 64-bit word is its three 16-bit groups and what lies above bit 48. -/
theorem word_digits (x : Nat) : x % 2 ^ 16 + 2 ^ 16 * (x / 2 ^ 16 % 2 ^ 16) +
    2 ^ 32 * (x / 2 ^ 32 % 2 ^ 16) + 2 ^ 48 * (x / 2 ^ 48) = x := by omega

/-- A 15-bit flag block is its seven fields. -/
theorem flag_digits (F : Nat) (h : F < 2 ^ 15) : F % 2 + 2 * (F / 2 % 2) + 4 * (F / 4 % 8) +
    32 * (F / 32 % 4) + 128 * (F / 128 % 8) + 1024 * (F / 1024 % 4) + 4096 * (F / 4096 % 8) = F := by
  omega

/-- The low digit of `a + B * y` and the number above it, for a digit `a < B`. -/
theorem mod_div_of_eq_add_mul {x a B y : Nat} (hx : x = a + B * y) (ha : a < B) :
    x % B = a ∧ x / B = y := by
  subst hx
  have hB : 0 < B := by omega
  exact ⟨by rw [Nat.add_mul_mod_self_left, Nat.mod_eq_of_lt ha],
    by rw [Nat.add_mul_div_left _ _ hB, Nat.div_eq_of_lt ha, Nat.zero_add]⟩

/-- The 16-bit groups of a word built from three of them and a 15-bit top. -/
theorem groups_of_eq {x a b c F : Nat} (hx : x = a + 2 ^ 16 * b + 2 ^ 32 * c + 2 ^ 48 * F)
    (ha : a < 2 ^ 16) (hb : b < 2 ^ 16) (hc : c < 2 ^ 16) (hF : F < 2 ^ 15) :
    x % 2 ^ 16 = a ∧ x / 2 ^ 16 % 2 ^ 16 = b ∧ x / 2 ^ 32 % 2 ^ 16 = c ∧ x / 2 ^ 48 = F ∧
      x / 2 ^ 63 % 2 = 0 := by
  have hx' : x = a + 2 ^ 16 * (b + 2 ^ 16 * (c + 2 ^ 16 * F)) := by omega
  obtain ⟨h0, h1⟩ := mod_div_of_eq_add_mul hx' ha
  obtain ⟨h2, h3⟩ := mod_div_of_eq_add_mul h1 hb
  obtain ⟨h4, h5⟩ := mod_div_of_eq_add_mul h3 hc
  have d48 : x / 2 ^ 48 = F := by
    rw [show 2 ^ 48 = 2 ^ 16 * 2 ^ 16 * 2 ^ 16 from rfl, ← Nat.div_div_eq_div_mul,
      ← Nat.div_div_eq_div_mul, h5]
  refine ⟨h0, h2, ?_, d48, ?_⟩
  · rw [show 2 ^ 32 = 2 ^ 16 * 2 ^ 16 from rfl, ← Nat.div_div_eq_div_mul, h4]
  · rw [show 2 ^ 63 = 2 ^ 48 * 2 ^ 15 from rfl, ← Nat.div_div_eq_div_mul, d48, Nat.div_eq_of_lt hF]

/-- The offset a 16-bit group stands for lies in the 16-bit signed range. -/
theorem biased_bounds (n : Nat) :
    -2 ^ 15 ≤ ((n % 2 ^ 16 : Nat) : Int) - 2 ^ 15 ∧ ((n % 2 ^ 16 : Nat) : Int) - 2 ^ 15 < 2 ^ 15 := by
  omega

theorem biased_lt {o : Int} (h : -2 ^ 15 ≤ o ∧ o < 2 ^ 15) : (o + 2 ^ 15).toNat < 2 ^ 16 := by
  omega

/-- An offset in the signed range is read back from its biased group. -/
theorem biased_toNat {o : Int} (h : -2 ^ 15 ≤ o ∧ o < 2 ^ 15) :
    (((o + 2 ^ 15).toNat % 2 ^ 16 : Nat) : Int) - 2 ^ 15 = o := by
  omega

/-! ## One field at a time -/

theorem fromBiasedRepresentation_eq (b : Nat) :
    fromBiasedRepresentation b = ((b % 2 ^ 16 : Nat) : Int) - 2 ^ 15 := by
  unfold fromBiasedRepresentation
  dsimp only
  split <;> omega

/-- Each `switch` accepts exactly the bits of its cases. -/
theorem decodeOp1Src_eq_ok {n : Nat} {s : Op1Src} : decodeOp1Src n = .ok s ↔ s.code = n := by
  unfold decodeOp1Src; split <;> cases s <;> simp_all [Op1Src.code] <;> omega

theorem decodePcUpdate_eq_ok {n : Nat} {p : PcUpdate} : decodePcUpdate n = .ok p ↔ p.code = n := by
  unfold decodePcUpdate; split <;> cases p <;> simp_all [PcUpdate.code] <;> omega

theorem decodeOpcode_eq_ok {n : Nat} {o : Opcode} : decodeOpcode n = .ok o ↔ o.code = n := by
  unfold decodeOpcode; split <;> cases o <;> simp_all [Opcode.code] <;> omega

/-- The res bits 0 are an unconstrained res under a `jnz` and op1 otherwise. -/
theorem decodeResLogic_eq_ok {p : PcUpdate} {n : Nat} {r : ResLogic} :
    decodeResLogic p n = .ok r ↔
      r.code = n ∧ (r = .unconstrained → p = .jnz) ∧ (r = .op1 → p ≠ .jnz) := by
  rcases n with _ | _ | _ | n
  · cases r <;> cases p <;> simp [decodeResLogic, ResLogic.code]
  all_goals cases r <;> simp [decodeResLogic, ResLogic.code]

/-- The ap bits 0 are `add2` under a `call` and regular otherwise. -/
theorem decodeApUpdate_eq_ok {o : Opcode} {n : Nat} {a : ApUpdate} :
    decodeApUpdate o n = .ok a ↔
      a.code = n ∧ (a = .add2 → o = .call) ∧ (a = .regular → o ≠ .call) := by
  rcases n with _ | _ | _ | n
  · cases a <;> cases o <;> simp [decodeApUpdate, ApUpdate.code]
  all_goals cases a <;> simp [decodeApUpdate, ApUpdate.code]

theorem decodeOp1Src_code (s : Op1Src) : decodeOp1Src s.code = .ok s := decodeOp1Src_eq_ok.mpr rfl

theorem decodePcUpdate_code (p : PcUpdate) : decodePcUpdate p.code = .ok p :=
  decodePcUpdate_eq_ok.mpr rfl

theorem decodeOpcode_code (o : Opcode) : decodeOpcode o.code = .ok o := decodeOpcode_eq_ok.mpr rfl

theorem decodeResLogic_code {p : PcUpdate} {r : ResLogic} (h1 : r = .unconstrained → p = .jnz)
    (h2 : r = .op1 → p ≠ .jnz) : decodeResLogic p r.code = .ok r :=
  decodeResLogic_eq_ok.mpr ⟨rfl, h1, h2⟩

theorem decodeApUpdate_code {o : Opcode} {a : ApUpdate} (h1 : a = .add2 → o = .call)
    (h2 : a = .regular → o ≠ .call) : decodeApUpdate o a.code = .ok a :=
  decodeApUpdate_eq_ok.mpr ⟨rfl, h1, h2⟩

theorem Register.code_ite (n : Nat) : (if n % 2 = 1 then Register.fp else .ap).code = n % 2 := by
  split <;> simp [Register.code] <;> omega

theorem Register.ite_code (r : Register) : (if r.code = 1 then Register.fp else .ap) = r := by
  cases r <;> rfl

theorem Instruction.code_lt (i : Instruction) :
    i.dstReg.code < 2 ∧ i.op0Reg.code < 2 ∧ i.op1Addr.code < 8 ∧ i.resLogic.code < 4 ∧
      i.pcUpdate.code < 8 ∧ i.apUpdate.code < 4 ∧ i.opcode.code < 8 :=
  ⟨by cases i.dstReg <;> decide, by cases i.op0Reg <;> decide, by cases i.op1Addr <;> decide,
    by cases i.resLogic <;> decide, by cases i.pcUpdate <;> decide, by cases i.apUpdate <;> decide,
    by cases i.opcode <;> decide⟩

theorem Instruction.flags_lt (i : Instruction) : i.flags < 2 ^ 15 := by
  have := i.code_lt
  unfold Instruction.flags
  omega

/-- Each field of the flag block is read back by its mask. -/
theorem Instruction.flags_digits (i : Instruction) :
    i.flags % 2 = i.dstReg.code ∧ i.flags / 2 % 2 = i.op0Reg.code ∧ i.flags / 4 % 8 = i.op1Addr.code ∧
      i.flags / 32 % 4 = i.resLogic.code ∧ i.flags / 128 % 8 = i.pcUpdate.code ∧
      i.flags / 1024 % 4 = i.apUpdate.code ∧ i.flags / 4096 % 8 = i.opcode.code := by
  obtain ⟨h0, h1, h2, h3, h4, h5, h6⟩ := i.code_lt
  have hx : i.flags = i.dstReg.code + 2 * (i.op0Reg.code + 2 * (i.op1Addr.code + 8 *
      (i.resLogic.code + 4 * (i.pcUpdate.code + 8 * (i.apUpdate.code + 4 * i.opcode.code))))) := by
    unfold Instruction.flags; omega
  obtain ⟨e0, q0⟩ := mod_div_of_eq_add_mul hx h0
  obtain ⟨e1, q1⟩ := mod_div_of_eq_add_mul q0 h1
  obtain ⟨e2, q2⟩ := mod_div_of_eq_add_mul q1 h2
  obtain ⟨e3, q3⟩ := mod_div_of_eq_add_mul q2 h3
  obtain ⟨e4, q4⟩ := mod_div_of_eq_add_mul q3 h4
  obtain ⟨e5, q5⟩ := mod_div_of_eq_add_mul q4 h5
  simp only [Nat.div_div_eq_div_mul] at e2 e3 e4 e5 q5
  exact ⟨e0, e1, e2, e3, e4, e5, by rw [q5]; exact Nat.mod_eq_of_lt h6⟩

/-! ## The round trip -/

/-- What the decoder returns is well formed and encodes to the word. -/
theorem decodeInstruction_eq_ok {x : Nat} (hx : x < 2 ^ 64) {i : Instruction}
    (h : decodeInstruction x = .ok i) : i.WellFormed ∧ i.encode = x := by
  obtain ⟨f0, f1, f2, f3, f4, f5, f6⟩ := decodeInstruction_flags (x >>> 48)
  simp only [decodeInstruction, f0, f1, f2, f3, f4, f5, f6] at h
  simp only [and_low16, Nat.shiftRight_eq_div_pow, ne_eq, and_high_bit_eq_zero] at h
  split at h
  · cases h
  rename_i hb
  obtain ⟨s, hs, h⟩ := bind_eq_ok.mp h
  obtain ⟨p, hp, h⟩ := bind_eq_ok.mp h
  obtain ⟨r, hr, h⟩ := bind_eq_ok.mp h
  obtain ⟨o, ho, h⟩ := bind_eq_ok.mp h
  obtain ⟨a, ha, h⟩ := bind_eq_ok.mp h
  simp only [pure, Except.pure, Except.ok.injEq] at h
  subst h
  rw [decodeOp1Src_eq_ok] at hs
  rw [decodePcUpdate_eq_ok] at hp
  rw [decodeOpcode_eq_ok] at ho
  obtain ⟨hr, hr1, hr2⟩ := decodeResLogic_eq_ok.mp hr
  obtain ⟨ha, ha1, ha2⟩ := decodeApUpdate_eq_ok.mp ha
  simp only [fromBiasedRepresentation_eq]
  refine ⟨⟨biased_bounds (x % 2 ^ 16), biased_bounds (x / 2 ^ 16 % 2 ^ 16),
    biased_bounds (x / 2 ^ 32 % 2 ^ 16), hr1, hr2, ha1, ha2, rfl⟩, ?_⟩
  have hF : x / 2 ^ 48 < 2 ^ 15 := by omega
  simp only [Instruction.encode, Instruction.flags, Register.code_ite, hs, hp, ho, hr, ha,
    Int.sub_add_cancel, Int.toNat_natCast, Nat.mod_mod]
  rw [flag_digits _ hF, word_digits]

/-- A well-formed instruction is decoded from its word. -/
theorem decodeInstruction_encode {i : Instruction} (h : i.WellFormed) :
    decodeInstruction i.encode = .ok i := by
  obtain ⟨h0, h1, h2, hr1, hr2, ha1, ha2, hf⟩ := h
  obtain ⟨d0, d1, d2, d3, d4, d5, d6⟩ := i.flags_digits
  obtain ⟨e0, e1, e2, e3, e4⟩ := groups_of_eq (show i.encode = _ from rfl) (biased_lt h0)
    (biased_lt h1) (biased_lt h2) i.flags_lt
  obtain ⟨f0, f1, f2, f3, f4, f5, f6⟩ := decodeInstruction_flags (i.encode >>> 48)
  simp only [decodeInstruction, f0, f1, f2, f3, f4, f5, f6]
  simp only [and_low16, Nat.shiftRight_eq_div_pow, ne_eq, and_high_bit_eq_zero, e0, e1, e2, e3, e4,
    d0, d1, d2, d3, d4, d5, d6, not_true_eq_false, if_false, decodeOp1Src_code, decodePcUpdate_code,
    decodeOpcode_code, decodeResLogic_code hr1 hr2, decodeApUpdate_code ha1 ha2, bind, Except.bind,
    pure, Except.pure, Register.ite_code, fromBiasedRepresentation_eq, ← hf, biased_toNat h0,
    biased_toNat h1, biased_toNat h2]

/-- The decoder is the inverse of the encoding: on every 64-bit word it returns `i` exactly
when `i` is well formed and encodes to the word. -/
theorem decodeInstruction_eq_ok_iff {x : Nat} (hx : x < 2 ^ 64) {i : Instruction} :
    decodeInstruction x = .ok i ↔ i.WellFormed ∧ i.encode = x :=
  ⟨decodeInstruction_eq_ok hx, fun ⟨hw, he⟩ => he ▸ decodeInstruction_encode hw⟩

/-- The round trip at the first word of the spec's add-immediate program, `[ap] = 2; ap++`. -/
theorem decodeInstruction_add_imm_iff : (0x480680017fff8000 : Nat) < 2 ^ 64 ∧
    (decodeInstruction 0x480680017fff8000 =
        .ok ⟨0, -1, 1, .ap, .fp, .imm, .op1, .regular, .add1, .regular, .assertEq⟩ ↔
      Instruction.WellFormed ⟨0, -1, 1, .ap, .fp, .imm, .op1, .regular, .add1, .regular, .assertEq⟩ ∧
        Instruction.encode ⟨0, -1, 1, .ap, .fp, .imm, .op1, .regular, .add1, .regular, .assertEq⟩ =
          0x480680017fff8000) :=
  ⟨by decide, decodeInstruction_eq_ok_iff (by decide)⟩

example : decodeInstruction 0x480680017fff8000 =
    .ok ⟨0, -1, 1, .ap, .fp, .imm, .op1, .regular, .add1, .regular, .assertEq⟩ := rfl

end CairoVm
