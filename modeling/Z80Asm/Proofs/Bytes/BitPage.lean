/-
The bytes of the bit page. Its mnemonics differ in what stands before their target and in their opcode for `B`
(`BitPage.Opening`), and take the same targets, to bytes that follow from this opcode (`BitPage.Bytes`). The encoder goes
by this table (`Encoder.z80_bitPage`).
-/
import Z80Asm.Proofs.Assembler.Atomic
import Z80Asm.Proofs.Bytes.Table

namespace Z80Asm

open Vocabulary Width

namespace BitPage

/-! ## The table -/

/-- What stands before the target of a mnemonic of the bit page, and its opcode for the target `B`. -/
inductive Opening : Mnemonic → List Operand → UInt8 → Prop
  | rlc : Opening .RLC [] 0x00
  | rrc : Opening .RRC [] 0x08
  | rl : Opening .RL [] 0x10
  | rr : Opening .RR [] 0x18
  | sla : Opening .SLA [] 0x20
  | sra : Opening .SRA [] 0x28
  | srl : Opening .SRL [] 0x38
  | bit (b : Int32) (index : 0 ≤ b.toInt ∧ b.toInt ≤ 7) : Opening .BIT [.immediate b] (0x40 + 8 * lowByte b)
  | res (b : Int32) (index : 0 ≤ b.toInt ∧ b.toInt ≤ 7) : Opening .RES [.immediate b] (0x80 + 8 * lowByte b)
  | set (b : Int32) (index : 0 ≤ b.toInt ∧ b.toInt ≤ 7) : Opening .SET [.immediate b] (0xC0 + 8 * lowByte b)

/-- The targets of the bit page and their bytes, where `q` is the opcode for `B`. -/
inductive Bytes (q : UInt8) : List Operand → List UInt8 → Prop
  | register (r : Register) : Bytes q [.register r] [0xCB, q + code r]
  | hl : Bytes q [.hl] [0xCB, q + 6]
  | indexed (i : IndexPair) (d : Option Int32) :
    Bytes q [.indexed i d] [i.prefixByte, 0xCB, lowByte (d.getD 0), q + 6]
  | copy (i : IndexPair) (d : Option Int32) (r : Register) :
    Bytes q [.indexed i d, .register r] [i.prefixByte, 0xCB, lowByte (d.getD 0), q + code r]

/-! ## The table and the rows -/

theorem bytes_iff {q : UInt8} (first : Nat) {target : List Operand} {bs : List UInt8} :
    Bytes q target bs ↔ ∃ e, Target q first target e ∧ e.bytes = bs := by
  constructor
  · intro h
    cases h with
    | register r => exact ⟨_, .register r, rfl⟩
    | hl => exact ⟨_, .hl, rfl⟩
    | indexed i d => exact ⟨_, .indexed i d, rfl⟩
    | copy i d r => exact ⟨_, .copy i d r, rfl⟩
  · rintro ⟨e, row, rfl⟩
    cases row with
    | register r => exact .register r
    | hl => exact .hl
    | indexed i d => exact .indexed i d
    | copy i d r => exact .copy i d r

/-- The opcode of a target has no part in what the targets are. -/
theorem Bytes.exists_bytes {q : UInt8} {target : List Operand} {bs : List UInt8} (h : Bytes q target bs) (p : UInt8) :
    ∃ cs, Bytes p target cs := by
  cases h with
  | register r => exact ⟨_, .register r⟩
  | hl => exact ⟨_, .hl⟩
  | indexed i d => exact ⟨_, .indexed i d⟩
  | copy i d r => exact ⟨_, .copy i d r⟩

/-- Behind the index of a bit stands a target. -/
theorem row_access_iff {b : BitAccess} {n : Int32} (index : 0 ≤ n.toInt ∧ n.toInt ≤ 7) {target : List Operand}
    {e : Encoding} :
    Row b.mnemonic (.immediate n :: target) e ↔ Target (b.opcode + 8 * lowByte n) 1 target e := by
  have byte : lowByte n = UInt8.ofNat n.toInt.toNat := lowByte_of_nonneg index.1 (by omega)
  rw [Row.bitAccess_iff, byte]
  constructor
  · rintro ⟨-, row⟩
    exact row
  · intro row
    exact .intro (BitAccess.mem_indices_iff.2 index) row

namespace Opening

variable {m : Mnemonic} {before : List Operand} {q : UInt8}

theorem row_iff (h : Opening m before q) (target : List Operand) {e : Encoding} :
    Row m (before ++ target) e ↔ Target q before.length target e := by
  cases h with
  | rlc => exact Row.rotation_iff (r := .RLC)
  | rrc => exact Row.rotation_iff (r := .RRC)
  | rl => exact Row.rotation_iff (r := .RL)
  | rr => exact Row.rotation_iff (r := .RR)
  | sla => exact Row.rotation_iff (r := .SLA)
  | sra => exact Row.rotation_iff (r := .SRA)
  | srl => exact Row.rotation_iff (r := .SRL)
  | bit b index => exact row_access_iff (b := .BIT) index
  | res b index => exact row_access_iff (b := .RES) index
  | set b index => exact row_access_iff (b := .SET) index

theorem exists_row_iff (h : Opening m before q) (target : List Operand) (bs : List UInt8) :
    Bytes q target bs ↔ ∃ e, Row m (before ++ target) e ∧ e.bytes = bs := by
  simp only [h.row_iff target]
  exact bytes_iff before.length

theorem rejection_eq (h : Opening m before q) (target : List Operand) :
    m.rejection (before ++ target) = .illegalOperands := by
  cases h with
  | bit b index | res b index | set b index => exact if_pos index
  | _ => rfl

end Opening

end BitPage

/-! ## The encoder -/

/-- The encoder, which joins the bits of an opcode, goes by the table of the bit page: behind what stands before the target
it writes the bytes of the target, and rejects all other targets. Each mnemonic, with the index of any bit, takes the
targets of every other. -/
theorem Encoder.z80_bitPage (line : Nat) (out : Output) :
    z80 = running Emitter.dispatch ∧
    (∀ s : Statement, ∀ before q target, BitPage.Opening s.mnemonic before q →
      Operand.ofNodes s.operands = .ok (before ++ target) →
      (∀ bs, (∃ out', z80 line s out = (.ok (), out') ∧ out'.bytes = bs) ↔ BitPage.Bytes q target bs) ∧
      ((∀ bs, ¬BitPage.Bytes q target bs) →
        z80 line s out = (.error ⟨s.mnemonic, .illegalOperands, s.column⟩, out.clear))) ∧
    (∀ s : Statement, ∀ before q, BitPage.Opening s.mnemonic before q →
      Operand.ofNodes s.operands = .error .notAnOperand →
      z80 line s out = (.error ⟨s.mnemonic, .illegalOperands, s.column⟩, out.clear)) ∧
    (∀ s t : Statement, ∀ before before' q p target, BitPage.Opening s.mnemonic before q →
      BitPage.Opening t.mnemonic before' p → Operand.ofNodes s.operands = .ok (before ++ target) →
      Operand.ofNodes t.operands = .ok (before' ++ target) →
      ((∃ out', z80 line s out = (.ok (), out')) ↔ ∃ out', z80 line t out = (.ok (), out'))) := by
  have table (s : Statement) {before q target} (opening : BitPage.Opening s.mnemonic before q)
      (hxs : Operand.ofNodes s.operands = .ok (before ++ target)) :=
    z80_of_table line out hxs (opening.exists_row_iff target)
  refine ⟨running_dispatch.symm, fun s before q target opening hxs => ?_, fun s _ _ _ hs => z80_of_notAnOperand hs, ?_⟩
  · obtain ⟨written, rejected⟩ := table s opening hxs
    exact ⟨written, rejected (opening.rejection_eq target)⟩
  · intro s t before before' q p target hs ht hsx htx
    rw [exists_z80_iff_table (table s hs hsx).1, exists_z80_iff_table (table t ht htx).1]
    constructor
    · rintro ⟨bs, h⟩
      exact h.exists_bytes p
    · rintro ⟨bs, h⟩
      exact h.exists_bytes q

/-- `SET 7,(IX-1),B` has its bytes; `RL (HL),C` has none, and neither has `RES 0` before a comma. `BIT 0,A` is encoded as
`SRL A` is. -/
theorem Encoder.z80_bitPage_copy :
    (∃ out', z80 1 ⟨.SET, 0, [(Operand.immediate 7).node, (Operand.indexed .IX (some (-1))).node, (Operand.register .B).node]⟩
      .empty = (.ok (), out') ∧ out'.bytes = [0xDD, 0xCB, 0xFF, 0xF8]) ∧
    z80 1 ⟨.RL, 0, [Operand.hl.node, (Operand.register .C).node]⟩ .empty = (.error ⟨.RL, .illegalOperands, 0⟩, .empty) ∧
    z80 1 ⟨.RES, 0, [(Operand.immediate 0).node, .leaf (.operator .comma) 5]⟩ .empty =
      (.error ⟨.RES, .illegalOperands, 0⟩, .empty) ∧
    ((∃ out', z80 1 ⟨.BIT, 0, [(Operand.immediate 0).node, (Operand.register .A).node]⟩ .empty = (.ok (), out')) ↔
      ∃ out', z80 1 ⟨.SRL, 0, [(Operand.register .A).node]⟩ .empty = (.ok (), out')) := by
  obtain ⟨-, table, symbols, same⟩ := z80_bitPage 1 .empty
  refine ⟨?_, ?_, ?_, ?_⟩
  · exact ((table _ _ _ _ (.set 7 (by decide)) rfl).1 _).2 (.copy .IX (some (-1)) .B)
  · exact (table _ _ _ [Operand.hl, .register .C] .rl rfl).2 nofun
  · exact symbols _ _ _ (.res 0 (by decide)) rfl
  · exact same _ _ _ _ _ _ [.register .A] (.bit 0 (by decide)) .srl rfl rfl

end Z80Asm
