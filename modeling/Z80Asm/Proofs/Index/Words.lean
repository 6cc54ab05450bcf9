/-
The words that an instruction names: the operands that are words, and what its address is based on. The index register of
an encoding is among them, and no other one; nor are `HL`, `H` and `L` where the index register stands in their place
(`Row.names`).
-/
import Z80Asm.Proofs.Assembler.Statement

namespace Z80Asm

/-! ## Words -/

/-- The index register that a word is, or is half of. -/
def Word.index? : Word → Option IndexPair
  | .indexPair i => some i
  | .indexHalf k => some k.pair
  | _ => none

/-- The word that a leaf is. -/
def Leaf.word? : Leaf → Option Word
  | .word w => some w
  | _ => none

/-- The word that a node is, or that stands first in its parentheses. -/
def Node.word? : Node → Option Word
  | .leaf l _ => l.word?
  | .address (.leaf l _ :: _) _ => l.word?
  | .address _ _ => none

/-- The word that a base is. -/
def Base.word? (b : Base) : Option Word := b.leaf.word?

/-- The word that an operand is, or that it is based on. -/
def Operand.word? : Operand → Option Word
  | .register r => some (.register r)
  | .specialRegister r => some (.specialRegister r)
  | .indexHalf k => some (.indexHalf k)
  | .normalPair p => some (.normalPair p)
  | .specialPair p => some (.specialPair p)
  | .indexPair i => some (.indexPair i)
  | .condition c => some (.condition c)
  | .immediate _ => none
  | .address a => a.base.word?

/-- The words that operands name. -/
def Operand.words (xs : List Operand) : List Word := xs.filterMap word?

/-- The words that a statement names. -/
def Statement.words (s : Statement) : List Word := s.operands.filterMap Node.word?

theorem Base.leaf_of_ofLeaf? {l : Leaf} {b : Base} (h : ofLeaf? l = some b) : b.leaf = l := by
  cases l with
  | word w => cases w <;> cases h <;> rfl
  | immediate n => cases h; rfl
  | _ => cases h

/-- What an address is based on stands first in its parentheses. -/
theorem Address.exists_base {children : List Node} {a : Address} (h : ofNodes? children = some a) :
    ∃ column more, children = .leaf a.base.leaf column :: more := by
  unfold ofNodes? at h
  split at h
  · rename_i column
    obtain ⟨base, hb, rfl⟩ := Option.map_eq_some_iff.1 h
    rw [← Base.leaf_of_ofLeaf? hb]
    exact ⟨column, [], rfl⟩
  · rename_i column _ _ _ _
    split at h <;> cases h
    rename_i hb _
    rw [← Base.leaf_of_ofLeaf? hb]
    exact ⟨column, _, rfl⟩
  · cases h

namespace Operand

theorem word?_of_ofNode {node : Node} {x : Operand} (h : ofNode node = .ok x) : x.word? = node.word? := by
  cases node with
  | leaf l column =>
    cases l with
    | word w => cases w <;> cases h <;> rfl
    | immediate n => cases h; rfl
    | _ => cases h
  | address children column =>
    rw [ofNode] at h
    split at h <;> cases h
    rename_i a ha
    obtain ⟨place, more, rfl⟩ := Address.exists_base ha
    rfl

theorem words_of_ofNodes {nodes : List Node} {xs : List Operand} (h : ofNodes nodes = .ok xs) :
    words xs = nodes.filterMap Node.word? := by
  replace h := ofNodes_eq_ok_iff.1 h
  induction h with
  | nil => rfl
  | cons hx _ ih => rw [words, List.filterMap_cons, List.filterMap_cons, word?_of_ofNode hx, ← words, ih]

end Operand

theorem Statement.words_eq {s : Statement} {xs : List Operand} (h : Operand.ofNodes s.operands = .ok xs) :
    s.words = Operand.words xs := (Operand.words_of_ofNodes h).symm

/-! ## The words of a row -/

namespace Operand

attribute [simp] word? Base.word? Base.leaf Leaf.word? Word.index?

@[simp] theorem words_nil : words [] = [] := rfl

@[simp] theorem words_cons (x : Operand) (xs : List Operand) : words (x :: xs) = x.word?.toList ++ words xs := by
  rw [words, List.filterMap_cons]
  cases x.word? <;> rfl

end Operand

namespace Encoding

@[simp] theorem index_main (opcode : UInt8) : (main opcode).index = none := rfl
@[simp] theorem index_bit (opcode : UInt8) : (bit opcode).index = none := rfl
@[simp] theorem index_extended (opcode : UInt8) : (extended opcode).index = none := rfl
@[simp] theorem index_withData (e : Encoding) (w : Width) (v : Int32) (i : Nat) : (e.withData w v i).index = e.index := rfl
@[simp] theorem index_indexedBy (e : Encoding) (i : IndexPair) : (e.indexedBy (some i)).index = some i := rfl
@[simp] theorem index_onMemory (e : Encoding) (i : IndexPair) (d : Int32) (operand : Nat) :
    (e.onMemory (.indexed i d) operand).index = some i := rfl

/-- How the words of operands go with the index prefix of their encoding: they name its register and no other one. Beside
an index register that is an operand or a base they do not name `HL`, and beside half of one neither `H` nor `L`. -/
structure Names (xs : List Operand) (e : Encoding) : Prop where
  index : ∀ i, (∃ w ∈ Operand.words xs, w.index? = some i) ↔ e.index = some i
  pair : ∀ i, .indexPair i ∈ Operand.words xs → .normalPair .HL ∉ Operand.words xs
  half : ∀ k, .indexHalf k ∈ Operand.words xs → .register .H ∉ Operand.words xs ∧ .register .L ∉ Operand.words xs

end Encoding

theorem Load.Row.names {xs : List Operand} {e : Encoding} (h : Row xs e) : e.Names xs := by
  cases h with
  | fromHalf r k plain => constructor <;> simp [eq_comm, plain]
  | toHalf k r plain => constructor <;> simp [eq_comm, plain]
  | half k l same => constructor <;> simp [same]
  | _ => constructor <;> simp

theorem Alu.Source.names {op : Alu} {operand : Nat} {x : Operand} {e : Encoding} (h : Source op operand x e) :
    e.Names [x] ∧ e.Names [.register .A, x] := by
  cases h <;> constructor <;> constructor <;> simp

theorem Alu.Row.names {op : Alu} {xs : List Operand} {e : Encoding} (h : Row op xs e) : e.Names xs := by
  cases h with
  | short implicit source => exact source.names.1
  | long source => exact source.names.2
  | addToIndex i p other => constructor <;> simp [eq_comm, other]
  | _ => constructor <;> simp

theorem Branch.Absolute.names {always onCondition : UInt8} {xs : List Operand} {e : Encoding}
    (h : Absolute always onCondition xs e) : e.Names xs := by
  cases h with
  | always nn => constructor <;> simp
  | conditional slot nn => cases slot <;> constructor <;> simp

theorem Row.names {m : Mnemonic} {xs : List Operand} {e : Encoding} (h : Row m xs e) : e.Names xs := by
  cases h with
  | load row => exact row.names
  | alu op row => exact row.names
  | step s row => cases row <;> constructor <;> simp
  | rotation r row => cases row <;> constructor <;> simp
  | bit b row =>
    obtain ⟨-, row⟩ := row
    cases row <;> constructor <;> simp
  | jump row =>
    cases row with
    | absolute row => exact row.names
    | _ => constructor <;> simp
  | relative row =>
    cases row with
    | always d => constructor <;> simp
    | conditional slot flag d => cases slot <;> constructor <;> simp
  | call row => exact row.names
  | ret row =>
    cases row with
    | always => constructor <;> simp
    | conditional slot => cases slot <;> constructor <;> simp
  | @implied m e opcode => cases m <;> cases opcode <;> constructor <;> simp
  | _ row => cases row <;> constructor <;> simp

/-! ## Words that are not named together -/

/-- Words of which some exclude each other: `H` or `L` and half of an index register, `HL` and an index register, or words
of both index registers. -/
inductive Word.Mixed (ws : List Word) : Prop
  | half {r : Register} (halved : r = .H ∨ r = .L) (k : IndexHalf) (hr : .register r ∈ ws) (hk : .indexHalf k ∈ ws) :
    Mixed ws
  | pair (i : IndexPair) (hp : .normalPair .HL ∈ ws) (hi : .indexPair i ∈ ws) : Mixed ws
  | both {v w : Word} (hv : v ∈ ws) (hw : w ∈ ws) (first : v.index? = some .IX) (second : w.index? = some .IY) : Mixed ws

theorem Row.not_mixed {m : Mnemonic} {xs : List Operand} {e : Encoding} (h : Row m xs e) : ¬Word.Mixed (Operand.words xs) := by
  rintro (⟨rfl | rfl, k, hr, hk⟩ | ⟨i, hp, hi⟩ | ⟨hv, hw, first, second⟩)
  · exact (h.names.half k hk).1 hr
  · exact (h.names.half k hk).2 hr
  · exact h.names.pair i hi hp
  · have ix := (h.names.index .IX).1 ⟨_, hv, first⟩
    rw [(h.names.index .IY).1 ⟨_, hw, second⟩] at ix
    cases ix

/-- A statement with words that exclude each other is not encoded. -/
theorem Encoder.z80_of_mixed {line : Nat} {s : Statement} {out : Output} (h : Word.Mixed s.words) :
    ∃ e, z80 line s out = (.error e, out.clear) := by
  cases he : s.encoding with
  | error e => exact ⟨e, z80_of_error he⟩
  | ok e =>
    obtain ⟨xs, hxs, row⟩ := Statement.encoding_eq_ok_iff.1 he
    rw [Statement.words_eq hxs] at h
    exact absurd h row.not_mixed

end Z80Asm
