/-
The rows of the arithmetic and logic instructions and of `INC` and `DEC`. The eight operations on the
accumulator take the same operands, to opcodes that differ in their row alone.
-/
import Z80Asm.Machine.Arithmetic
import Z80Asm.Proofs.Table.Operand

namespace Z80Asm

open Vocabulary Encoding

/-! ## Operations on the accumulator -/

namespace Alu

/-- The operand of an operation on the accumulator, at its position among the operands. -/
inductive Source (op : Alu) (operand : Nat) : Operand → Encoding → Prop
  | register (r : Register) : Source op operand (.register r) (main (0x80 + 8 * op.row + code r))
  | half (k : IndexHalf) :
    Source op operand (.indexHalf k) ((main (0x80 + 8 * op.row + k.field)).indexedBy (some k.pair))
  | hl : Source op operand .hl (main (0x86 + 8 * op.row))
  | indexed (i : IndexPair) (d : Option Int32) :
    Source op operand (.indexed i d) ((main (0x86 + 8 * op.row)).atIndex i d operand)
  | number (n : Int32) :
    Source op operand (.immediate n) ((main (0xC6 + 8 * op.row)).withData .u8 n operand)

/-- The rows of the operations. -/
inductive Row : Alu → List Operand → Encoding → Prop
  | short {op : Alu} {x : Operand} {e : Encoding} (implicit : op.namesTarget = false) (source : Source op 0 x e) :
    Row op [x] e
  | long {op : Alu} {x : Operand} {e : Encoding} (source : Source op 1 x e) : Row op [.register .A, x] e
  | addPair (p : NormalPair) : Row .ADD [.normalPair .HL, .normalPair p] (main (0x09 + 16 * code p))
  | addToIndex (i : IndexPair) (p : NormalPair) (other : p ≠ .HL) :
    Row .ADD [.indexPair i, .normalPair p] ((main (0x09 + 16 * code p)).indexedBy (some i))
  | addSelf (i : IndexPair) : Row .ADD [.indexPair i, .indexPair i] ((main 0x29).indexedBy (some i))
  | adcPair (p : NormalPair) : Row .ADC [.normalPair .HL, .normalPair p] (extended (0x4A + 16 * code p))
  | sbcPair (p : NormalPair) : Row .SBC [.normalPair .HL, .normalPair p] (extended (0x42 + 16 * code p))

theorem onByte?_eq_some_iff {op : Alu} {x : Operand} {operand : Nat} {e : Encoding} :
    op.onByte? x operand = some e ↔ Source op operand x e := by
  constructor
  · intro h
    unfold onByte? at h
    split at h
    · cases h; exact .number _
    · obtain ⟨p, hp, rfl⟩ := Option.map_eq_some_iff.1 h
      rcases Place.ofOperand?_eq_some hp with ⟨r, rfl, rfl⟩ | ⟨k, rfl, rfl⟩ | ⟨rfl, rfl⟩ | ⟨i, d, rfl, rfl⟩
      · exact .register r
      · exact .half k
      · cases op <;> exact .hl
      · cases op <;> exact .indexed i d
  · intro h
    cases h with
    | hl => cases op <;> rfl
    | indexed i d => cases op <;> rfl
    | _ => rfl

/-- The operations with carry know no pair but `HL` as target, and no index register as source. -/
theorem carry_operands {x y : Operand} {p q : PairPlace} (hp : PairPlace.ofOperand? x = some p)
    (hq : PairPlace.ofOperand? y = some q) (hc : (p == ⟨.HL, none⟩ && q.index.isNone) = true) :
    x = .normalPair .HL ∧ ∃ b, y = .normalPair b ∧ q = ⟨b, none⟩ := by
  rcases PairPlace.ofOperand?_eq_some hp with ⟨a, rfl, rfl⟩ | ⟨i, rfl, rfl⟩ <;>
    rcases PairPlace.ofOperand?_eq_some hq with ⟨b, rfl, rfl⟩ | ⟨j, rfl, rfl⟩ <;> simp at hc
  subst hc
  exact ⟨rfl, b, rfl, rfl⟩

theorem row_of_onPairs? {op : Alu} {x y : Operand} {p q : PairPlace} {e : Encoding}
    (hp : PairPlace.ofOperand? x = some p) (hq : PairPlace.ofOperand? y = some q)
    (h : op.onPairs? p q = some e) : Row op [x, y] e := by
  unfold onPairs? at h
  split at h
  · split at h
    case isFalse => cases h
    rename_i hc
    cases h
    rcases PairPlace.ofOperand?_eq_some hp with ⟨a, rfl, rfl⟩ | ⟨i, rfl, rfl⟩ <;>
      rcases PairPlace.ofOperand?_eq_some hq with ⟨b, rfl, rfl⟩ | ⟨j, rfl, rfl⟩
    -- an index register goes to itself only, and `HL` not to an index register
    · obtain rfl : a = .HL := by simpa [PairPlace.isHL, PairPlace.compatible] using hc
      exact .addPair b
    · simp [PairPlace.isHL, PairPlace.compatible] at hc
    · exact .addToIndex i b (by simpa [PairPlace.isHL, PairPlace.compatible] using hc)
    · obtain rfl : j = i := by simpa [PairPlace.isHL, PairPlace.compatible] using hc
      exact .addSelf j
  · split at h
    case isFalse => cases h
    rename_i hc
    cases h
    obtain ⟨rfl, b, rfl, rfl⟩ := carry_operands hp hq hc
    exact .adcPair b
  · split at h
    case isFalse => cases h
    rename_i hc
    cases h
    obtain ⟨rfl, b, rfl, rfl⟩ := carry_operands hp hq hc
    exact .sbcPair b
  · cases h

/-- An operation on the accumulator has an encoding exactly where there is a row for its operands. -/
theorem encode?_eq_some_iff {op : Alu} {xs : List Operand} {e : Encoding} :
    op.encode? xs = some e ↔ Row op xs e := by
  constructor
  · intro h
    unfold encode? at h
    split at h
    · split at h
      · cases h
      · rename_i hi
        exact .short (by simpa using hi) (onByte?_eq_some_iff.1 h)
    · exact .long (onByte?_eq_some_iff.1 h)
    · obtain ⟨p, hp, h⟩ := Option.bind_eq_some_iff.1 h
      obtain ⟨q, hq, h⟩ := Option.bind_eq_some_iff.1 h
      exact row_of_onPairs? hp hq h
    · cases h
  · intro h
    cases h with
    | short implicit source =>
      simp only [encode?, implicit]
      exact onByte?_eq_some_iff.2 source
    | long source => exact onByte?_eq_some_iff.2 source
    | addToIndex i p other =>
      cases p with
      | HL => exact absurd rfl other
      | _ => rfl
    | addSelf i => cases i <;> rfl
    | _ => rfl

end Alu

/-! ## Steps by one -/

namespace Step

/-- The rows of `INC` and `DEC`. -/
inductive Row (s : Step) : List Operand → Encoding → Prop
  | register (r : Register) : Row s [.register r] (main (0x04 + s.code + 8 * Vocabulary.code r))
  | half (k : IndexHalf) : Row s [.indexHalf k] ((main (0x04 + s.code + 8 * k.field)).indexedBy (some k.pair))
  | hl : Row s [.hl] (main (0x34 + s.code))
  | indexed (i : IndexPair) (d : Option Int32) : Row s [.indexed i d] ((main (0x34 + s.code)).atIndex i d 0)
  | pair (p : NormalPair) : Row s [.normalPair p] (main (0x03 + 8 * s.code + 16 * Vocabulary.code p))
  | index (i : IndexPair) : Row s [.indexPair i] ((main (0x23 + 8 * s.code)).indexedBy (some i))

/-- `INC` and `DEC` have an encoding exactly where there is a row for their operands. -/
theorem encode?_eq_some_iff {s : Step} {xs : List Operand} {e : Encoding} :
    s.encode? xs = some e ↔ Row s xs e := by
  constructor
  · intro h
    unfold encode? at h
    split at h
    case h_2 => cases h
    split at h
    · rename_i p hp
      cases h
      rcases Place.ofOperand?_eq_some hp with ⟨r, rfl, rfl⟩ | ⟨k, rfl, rfl⟩ | ⟨rfl, rfl⟩ | ⟨i, d, rfl, rfl⟩
      · exact .register r
      · exact .half k
      · cases s <;> exact .hl
      · cases s <;> exact .indexed i d
    · obtain ⟨p, hp, rfl⟩ := Option.map_eq_some_iff.1 h
      rcases PairPlace.ofOperand?_eq_some hp with ⟨q, rfl, rfl⟩ | ⟨i, rfl, rfl⟩
      · exact .pair q
      · cases s <;> exact .index i
  · intro h
    cases h with
    | hl => cases s <;> rfl
    | indexed i d => cases s <;> rfl
    | index i => cases s <;> rfl
    | _ => rfl

end Step

end Z80Asm
