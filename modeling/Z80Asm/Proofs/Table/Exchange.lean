/-
The rows of the instructions that exchange data with the stack, with other registers and with ports, and
those of the interrupt mode.
-/
import Z80Asm.Machine.Stack
import Z80Asm.Machine.Port
import Z80Asm.Proofs.Table.Operand

namespace Z80Asm

open Vocabulary Encoding

/-! ## The stack -/

namespace Stack

/-- The rows that `PUSH` and `POP` share, where `opcode` is that for `BC`. -/
inductive Transferred (opcode : UInt8) : List Operand → Encoding → Prop
  | pair (p : NormalPair) (saved : p ≠ .SP) : Transferred opcode [.normalPair p] (main (opcode + 16 * code p))
  | flags : Transferred opcode [.specialPair .AF] (main (opcode + 0x30))
  | index (i : IndexPair) : Transferred opcode [.indexPair i] ((main (opcode + 0x20)).indexedBy (some i))

theorem encode?_eq_some_iff {opcode : UInt8} {xs : List Operand} {e : Encoding} :
    encode? opcode xs = some e ↔ Transferred opcode xs e := by
  constructor
  · intro h
    unfold encode? at h
    split at h
    · cases h; exact .flags
    · split at h
      case h_2 => cases h
      rename_i p hp
      split at h
      · cases h
      · rename_i hsp
        cases h
        rcases PairPlace.ofOperand?_eq_some hp with ⟨q, rfl, rfl⟩ | ⟨i, rfl, rfl⟩
        · exact .pair q hsp
        · exact .index i
    · cases h
  · intro h
    cases h with
    | pair p saved => simp [encode?, PairPlace.ofOperand?, saved, PairPlace.field, indexedBy, main, ofPage]
    | flags => rfl
    | index i => rfl

/-- The rows of `EX`. -/
inductive Exchange : List Operand → Encoding → Prop
  | flags : Exchange [.specialPair .AF, .specialPair .AFShadow] (main 0x08)
  | pairs : Exchange [.normalPair .DE, .normalPair .HL] (main 0xEB)
  | top : Exchange [.pointer .SP, .normalPair .HL] (main 0xE3)
  | topIndex (i : IndexPair) : Exchange [.pointer .SP, .indexPair i] ((main 0xE3).indexedBy (some i))

theorem exchange?_eq_some_iff {xs : List Operand} {e : Encoding} : exchange? xs = some e ↔ Exchange xs e := by
  constructor
  · intro h
    unfold exchange? at h
    split at h
    · cases h; exact .flags
    · cases h; exact .pairs
    · split at h
      case isFalse => cases h
      rename_i hsp
      obtain rfl := Address.isPair_iff.1 hsp
      obtain ⟨p, hp, h⟩ := Option.bind_eq_some_iff.1 h
      unfold exchangeTop? at h
      split at h
      case isFalse => cases h
      rename_i hl
      cases h
      rcases PairPlace.ofOperand?_eq_some hp with ⟨q, rfl, rfl⟩ | ⟨i, rfl, rfl⟩
      · obtain rfl : q = .HL := by simpa [PairPlace.isHL] using hl
        exact .top
      · exact .topIndex i
    · cases h
  · intro h
    cases h <;> rfl

end Stack

/-! ## Ports -/

namespace Port

/-- The rows of `IN`. -/
inductive Input : List Operand → Encoding → Prop
  | flags : Input [.portC] (extended 0x70)
  | numeric (n : Int32) : Input [.register .A, .numeric n none] ((main 0xDB).withData .u8 n 1)
  | register (r : Register) : Input [.register r, .portC] (extended (0x40 + 8 * code r))

/-- The rows of `OUT`. -/
inductive Output : List Operand → Encoding → Prop
  | zero : Output [.portC, .immediate 0] (extended 0x71)
  | numeric (n : Int32) : Output [.numeric n none, .register .A] ((main 0xD3).withData .u8 n 0)
  | register (r : Register) : Output [.portC, .register r] (extended (0x41 + 8 * code r))

/-- The two ports: a number, and what `C` holds, both without a displacement. -/
theorem ofAddress?_eq_some {a : Address} {p : Port} (h : ofAddress? a = some p) :
    (∃ n, a = ⟨.immediate n, none⟩ ∧ p = .immediate n) ∨ (a = ⟨.register .C, none⟩ ∧ p = .registerC) := by
  obtain ⟨base, d⟩ := a
  cases d with
  | some d => cases h
  | none =>
    cases base with
    | immediate n => cases h; exact .inl ⟨n, rfl, rfl⟩
    | register r =>
      by_cases hr : r = .C
      · subst hr; cases h; exact .inr ⟨rfl, rfl⟩
      · simp [ofAddress?, hr] at h
    | normalPair p => cases h
    | indexPair i => cases h

/-- The accumulator goes to or comes from a numeric port, and every register the port in `C`. -/
theorem transfer?_eq_some {t : Transfer} {r : Register} {a : Address} {e : Encoding} (h : transfer? t r a = some e) :
    (∃ n, r = .A ∧ a = ⟨.immediate n, none⟩ ∧ e = (main (0xD3 + t.bit)).withData .u8 n t.addressOperand) ∨
      (a = ⟨.register .C, none⟩ ∧ e = extended (opcode t + 8 * code r)) := by
  unfold transfer? at h
  split at h
  · rename_i n hp
    split at h
    case isFalse => cases h
    rename_i hr
    cases h
    rcases ofAddress?_eq_some hp with ⟨m, rfl, hm⟩ | ⟨-, hm⟩
    · cases hm; exact .inl ⟨n, hr, rfl, rfl⟩
    · cases hm
  · rename_i hp
    cases h
    rcases ofAddress?_eq_some hp with ⟨n, -, hn⟩ | ⟨rfl, -⟩
    · cases hn
    · exact .inr ⟨rfl, rfl⟩
  · cases h

theorem input?_eq_some_iff {xs : List Operand} {e : Encoding} : input? xs = some e ↔ Input xs e := by
  constructor
  · intro h
    unfold input? at h
    split at h
    · split at h
      case isFalse => cases h
      rename_i hp
      cases h
      rcases ofAddress?_eq_some hp with ⟨n, -, hn⟩ | ⟨rfl, -⟩
      · cases hn
      · exact .flags
    · rcases transfer?_eq_some h with ⟨n, rfl, rfl, rfl⟩ | ⟨rfl, rfl⟩
      · exact .numeric n
      · exact .register _
    · cases h
  · intro h
    cases h <;> rfl

theorem output?_eq_some_iff {xs : List Operand} {e : Encoding} : output? xs = some e ↔ Output xs e := by
  constructor
  · intro h
    unfold output? at h
    split at h
    · rcases transfer?_eq_some h with ⟨n, rfl, rfl, rfl⟩ | ⟨rfl, rfl⟩
      · exact .numeric n
      · exact .register _
    · split at h
      case isFalse => cases h
      rename_i hp
      cases h
      obtain ⟨rfl, hp⟩ := hp
      rcases ofAddress?_eq_some hp with ⟨n, -, hn⟩ | ⟨rfl, -⟩
      · cases hn
      · exact .zero
    · cases h
  · intro h
    cases h <;> rfl

end Port

/-! ## The interrupt mode -/

namespace InterruptMode

/-- The rows of `IM`. -/
inductive Row : List Operand → Encoding → Prop
  | zero : Row [.immediate 0] (extended 0x46)
  | one : Row [.immediate 1] (extended 0x56)
  | two : Row [.immediate 2] (extended 0x5E)

theorem encode_eq_ok_iff {xs : List Operand} {e : Encoding} : encode xs = .ok e ↔ Row xs e := by
  constructor
  · intro h
    unfold encode at h
    split at h
    · split at h
      · subst_vars; cases h; exact .zero
      · split at h
        · subst_vars; cases h; exact .one
        · split at h
          · subst_vars; cases h; exact .two
          · cases h
    · cases h
  · intro h
    cases h <;> rfl

end InterruptMode

end Z80Asm
