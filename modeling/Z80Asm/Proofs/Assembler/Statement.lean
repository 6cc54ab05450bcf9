/-
Encoding a statement: its nodes are operands, and its mnemonic has a row for them. What a buffer holds and
what was reported before has no part in it.
-/
import Z80Asm.Assembler.Encoder
import Z80Asm.Proofs.Field.Feed
import Mathlib.Data.List.Forall2

namespace Z80Asm

/-! ## Operands of nodes -/

/-- What stands in one of two related lists is related to what stands there in the other. -/
theorem exists_getElem?_of_forall₂ {α β : Type} {R : α → β → Prop} {as : List α} {bs : List β} (h : List.Forall₂ R as bs)
    {i : Nat} {a : α} (ha : as[i]? = some a) : ∃ b, bs[i]? = some b ∧ R a b := by
  induction h generalizing i with
  | nil => cases ha
  | cons hab _ ih =>
    cases i with
    | zero => cases ha; exact ⟨_, rfl, hab⟩
    | succ i => exact ih ha

namespace Operand

theorem ofNodes_eq_ok_iff : ∀ {nodes : List Node} {xs : List Operand},
    ofNodes nodes = .ok xs ↔ List.Forall₂ (fun node x => ofNode node = .ok x) nodes xs
  | [], xs => by
    rw [List.forall₂_nil_left_iff]
    constructor
    · intro h; cases h; rfl
    · rintro rfl; rfl
  | node :: nodes, xs => by
    rw [List.forall₂_cons_left_iff]
    constructor
    · intro h
      unfold ofNodes at h
      split at h
      · cases h
      · rename_i x hx
        split at h
        · cases h
        · rename_i ys hys
          cases h
          exact ⟨x, ys, hx, ofNodes_eq_ok_iff.1 hys, rfl⟩
    · rintro ⟨x, ys, hx, hys, rfl⟩
      rw [ofNodes, hx]
      simp only [ofNodes_eq_ok_iff.2 hys]

theorem length_of_ofNodes {nodes : List Node} {xs : List Operand} (h : ofNodes nodes = .ok xs) :
    nodes.length = xs.length := (ofNodes_eq_ok_iff.1 h).length_eq

end Operand

/-- The leaf that a base is. -/
def Base.leaf : Base → Leaf
  | .immediate n => .immediate n
  | .register r => .word (.register r)
  | .normalPair p => .word (.normalPair p)
  | .indexPair p => .word (.indexPair p)

namespace Operand

/-- A node of an operand, with the sign `+` before a displacement. -/
def node : Operand → Node
  | .register r => .leaf (.word (.register r)) 0
  | .specialRegister r => .leaf (.word (.specialRegister r)) 0
  | .indexHalf k => .leaf (.word (.indexHalf k)) 0
  | .normalPair p => .leaf (.word (.normalPair p)) 0
  | .specialPair p => .leaf (.word (.specialPair p)) 0
  | .indexPair i => .leaf (.word (.indexPair i)) 0
  | .condition c => .leaf (.word (.condition c)) 0
  | .immediate n => .leaf (.immediate n) 0
  | .address ⟨base, none⟩ => .address [.leaf base.leaf 0] 0
  | .address ⟨base, some d⟩ => .address [.leaf base.leaf 0, .leaf (.operator .plus) 0, .leaf (.immediate d) 0] 0

theorem ofNode_node {x : Operand} (h : x.isWritable = true) : ofNode x.node = .ok x := by
  cases x with
  | address a =>
    obtain ⟨base, d⟩ := a
    cases d with
    | none => cases base <;> rfl
    | some d =>
      cases base with
      | immediate n => cases h
      | _ => rfl
  | _ => rfl

end Operand

/-! ## Encodings of statements -/

namespace Statement

/-- A statement has an encoding exactly where its nodes are operands with a row in the table. -/
theorem encoding_eq_ok_iff {s : Statement} {e : Encoding} :
    s.encoding = .ok e ↔ ∃ xs, Operand.ofNodes s.operands = .ok xs ∧ Row s.mnemonic xs e := by
  constructor
  · intro h
    unfold encoding at h
    split at h
    · cases h
    · rename_i xs hxs
      split at h
      · cases h
      · rename_i f hf
        cases h
        exact ⟨xs, hxs, Mnemonic.encode_eq_ok_iff.1 hf⟩
  · rintro ⟨xs, hxs, row⟩
    rw [encoding, hxs]
    simp only [Mnemonic.encode_eq_ok_iff.2 row]

theorem encoding_of_fault {s : Statement} {xs : List Operand} {fault : Fault}
    (hxs : Operand.ofNodes s.operands = .ok xs) (h : s.mnemonic.encode xs = .error fault) :
    s.encoding = .error (s.failure fault) := by
  rw [encoding, hxs]
  simp only [h]

theorem row_of_encoding {s : Statement} {xs : List Operand} {e : Encoding} (hxs : Operand.ofNodes s.operands = .ok xs)
    (h : s.encoding = .ok e) : Row s.mnemonic xs e := by
  obtain ⟨ys, hys, row⟩ := encoding_eq_ok_iff.1 h
  cases hxs.symm.trans hys
  exact row

/-- The warnings about an encoded statement. -/
def warnings (line : Nat) (s : Statement) (e : Encoding) : List Diagnostic :=
  (s.overflows e).map fun o => ⟨line, .overflow o⟩

end Statement

/-! ## The encoder -/

namespace Encoder

theorem z80_of_encoding {line : Nat} {s : Statement} {out : Output} {e : Encoding} (h : s.encoding = .ok e) :
    z80 line s out = (.ok (), ⟨e.bytes, out.reports ++ (s.overflows e).map fun o => ⟨line, .overflow o⟩⟩) := by
  rw [z80, h]

theorem z80_of_error {line : Nat} {s : Statement} {out : Output} {fault : EvalError} (h : s.encoding = .error fault) :
    z80 line s out = (.error fault, out.clear) := by
  rw [z80, h]

/-- A success of the encoder is an encoding of the statement. -/
theorem encoding_of_z80 {line : Nat} {s : Statement} {out out' : Output} (h : z80 line s out = (.ok (), out')) :
    ∃ e, s.encoding = .ok e ∧
      out' = ⟨e.bytes, out.reports ++ (s.overflows e).map fun o => ⟨line, .overflow o⟩⟩ := by
  cases he : s.encoding with
  | error fault => rw [z80_of_error he] at h; cases h
  | ok e => rw [z80_of_encoding he] at h; cases h; exact ⟨e, rfl, rfl⟩

/-- What a statement comes to by itself. -/
theorem evaluate_z80 (line : Nat) (s : Statement) (reports : List Diagnostic) :
    evaluate z80 line s reports = (s.encoding.map Encoding.bytes, match s.encoding with
      | .error _ => reports
      | .ok e => reports ++ s.warnings line e) := by
  unfold evaluate
  cases h : s.encoding with
  | error e => rw [z80_of_error h]; rfl
  | ok e => rw [z80_of_encoding h]; rfl

end Encoder

end Z80Asm
