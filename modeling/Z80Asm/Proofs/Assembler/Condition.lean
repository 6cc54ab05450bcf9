/-
Conditions. They stand first behind one of four mnemonics, and nowhere else in a statement that is encoded; there the
register whose name the carry flag shares is as good as the condition (`Encoder.z80_condition`). In a line this name is
always read as the register, and the names of the other conditions as conditions.
-/
import Z80Asm.Proofs.Assembler.Atomic
import Z80Asm.Proofs.Assembler.Line
import Z80Asm.Proofs.Assembler.Statement
import Z80Asm.Proofs.Statement.Sentence

namespace Z80Asm

/-- The mnemonics that can test a condition. -/
def Mnemonic.testing : List Mnemonic := [.RET, .JP, .CALL, .JR]

/-! ## Conditions in rows -/

/-- The operands of a mnemonic with a condition among them: the condition is the first, and the mnemonic tests it. -/
structure Condition.Slotted (m : Mnemonic) (xs : List Operand) : Prop where
  testing : ∀ c, .condition c ∈ xs → m ∈ Mnemonic.testing
  first : ∀ c, .condition c ∉ xs.tail

theorem Branch.Absolute.slotted {always onCondition : UInt8} {xs : List Operand} {e : Encoding}
    (h : Absolute always onCondition xs e) {m : Mnemonic} (hm : m ∈ Mnemonic.testing) : Condition.Slotted m xs := by
  cases h <;> exact ⟨fun _ _ => hm, by simp⟩

theorem Row.slotted {m : Mnemonic} {xs : List Operand} {e : Encoding} (h : Row m xs e) : Condition.Slotted m xs := by
  cases h with
  | load row => cases row <;> constructor <;> simp
  | alu op row =>
    cases row with
    | short implicit source => cases source <;> constructor <;> simp
    | long source => cases source <;> constructor <;> simp
    | _ => constructor <;> simp
  | step s row => cases row <;> constructor <;> simp
  | rotation r row => cases row <;> constructor <;> simp
  | bit b row =>
    obtain ⟨-, row⟩ := row
    cases row <;> constructor <;> simp
  | jump row =>
    cases row with
    | absolute row => exact row.slotted (by decide)
    | _ => constructor <;> simp
  | relative row => cases row <;> exact ⟨fun _ _ => by decide, by simp⟩
  | call row => exact row.slotted (by decide)
  | ret row => cases row <;> exact ⟨fun _ _ => by decide, by simp⟩
  | implied opcode => constructor <;> simp
  | _ row => cases row <;> constructor <;> simp

/-! ## Conditions in trees -/

/-- A leaf of a node, at any depth. -/
inductive Node.Holds (l : Leaf) : Node → Prop
  | leaf (column : Nat) : Holds l (.leaf l column)
  | address {n : Node} {children : List Node} (child : n ∈ children) (inside : Holds l n) (column : Nat) :
    Holds l (.address children column)

theorem Node.Holds.eq {l l' : Leaf} {column : Nat} (h : Holds l (.leaf l' column)) : l' = l := by
  cases h
  rfl

/-- No condition stands in the parentheses of an address. -/
theorem Address.not_holds_condition {children : List Node} {a : Address} (h : ofNodes? children = some a) {n : Node}
    (hn : n ∈ children) (c : Condition) : ¬n.Holds (.word (.condition c)) := by
  intro holds
  unfold ofNodes? at h
  split at h
  · obtain rfl := List.mem_singleton.1 hn
    cases holds.eq
    cases h
  · simp only [List.mem_cons, List.not_mem_nil, or_false] at hn
    rcases hn with rfl | rfl | rfl
    · cases holds.eq
      cases h
    · cases holds.eq
    · cases holds.eq
  · cases h

/-- The one node of an operand that holds a condition is the condition itself. -/
theorem Operand.eq_leaf_of_holds {node : Node} {x : Operand} (h : ofNode node = .ok x) {c : Condition}
    (holds : node.Holds (.word (.condition c))) : x = .condition c ∧ ∃ k, node = .leaf (.word (.condition c)) k := by
  cases holds with
  | leaf k =>
    cases h
    exact ⟨rfl, k, rfl⟩
  | address child inside k =>
    rw [ofNode] at h
    split at h <;> cases h
    rename_i ha
    exact absurd inside (Address.not_holds_condition ha child c)

/-- A condition in a statement that is encoded is the first operand, of a mnemonic that tests it. -/
theorem Statement.first_of_encoding {s : Statement} {e : Encoding} (h : s.encoding = .ok e) {i : Nat} {node : Node}
    {c : Condition} (hn : s.operands[i]? = some node) (holds : node.Holds (.word (.condition c))) :
    i = 0 ∧ s.mnemonic ∈ Mnemonic.testing ∧ ∃ k, node = .leaf (.word (.condition c)) k := by
  obtain ⟨xs, hxs, row⟩ := encoding_eq_ok_iff.1 h
  obtain ⟨x, hx, hr⟩ := exists_getElem?_of_forall₂ (Operand.ofNodes_eq_ok_iff.1 hxs) hn
  obtain ⟨rfl, bare⟩ := Operand.eq_leaf_of_holds hr holds
  refine ⟨?_, row.slotted.testing c (List.mem_of_getElem? hx), bare⟩
  cases i with
  | zero => rfl
  | succ i =>
    rw [← List.getElem?_tail] at hx
    exact absurd (List.mem_of_getElem? hx) (row.slotted.first c)

/-! ## The carry flag -/

/-- What tests a condition does not tell the register `C` from the carry flag. -/
theorem Mnemonic.encode_carry {m : Mnemonic} (hm : m ∈ testing) (xs : List Operand) :
    m.encode (.register .C :: xs) = m.encode (.condition .C :: xs) := by
  simp only [testing, List.mem_cons, List.not_mem_nil, or_false] at hm
  match xs with
  | [] => rcases hm with rfl | rfl | rfl | rfl <;> rfl
  | [x] => rcases hm with rfl | rfl | rfl | rfl <;> cases x <;> rfl
  | x :: _ :: _ => rcases hm with rfl | rfl | rfl | rfl <;> cases x <;> rfl

namespace Statement

/-- A statement that begins with the carry flag, named as a register or as a condition. -/
def onCarry (m : Mnemonic) (c : Nat) (carry : Word) (k : Nat) (more : List Node) : Statement :=
  ⟨m, c, .leaf (.word carry) k :: more⟩

variable {m : Mnemonic} (c k : Nat) (more : List Node)

theorem columnOf_onCarry (w w' : Word) : (onCarry m c w k more).columnOf = (onCarry m c w' k more).columnOf := by
  funext i
  cases i <;> rfl

theorem failure_onCarry (w w' : Word) (fault : Fault) :
    (onCarry m c w k more).failure fault = (onCarry m c w' k more).failure fault := by
  rw [failure, failure, columnOf_onCarry c k more w w']
  rfl

theorem overflows_onCarry (w w' : Word) (e : Encoding) :
    (onCarry m c w k more).overflows e = (onCarry m c w' k more).overflows e := by
  rw [overflows, overflows, columnOf_onCarry c k more w w']
  rfl

theorem encoding_onCarry (hm : m ∈ Mnemonic.testing) :
    (onCarry m c (.register .C) k more).encoding = (onCarry m c (.condition .C) k more).encoding := by
  have failure := failure_onCarry (m := m) c k more (.register .C) (.condition .C)
  simp only [encoding, failure]
  simp only [onCarry, Operand.ofNodes, Operand.ofNode, Operand.ofWord]
  cases Operand.ofNodes more with
  | error fault => rfl
  | ok xs => simp only [Mnemonic.encode_carry hm]

theorem z80_onCarry (hm : m ∈ Mnemonic.testing) (line : Nat) (out : Output) :
    Encoder.z80 line (onCarry m c (.register .C) k more) out =
      Encoder.z80 line (onCarry m c (.condition .C) k more) out := by
  simp only [Encoder.z80, encoding_onCarry c k more hm, overflows_onCarry c k more (.register .C) (.condition .C)]

end Statement

/-! ## Conditions in lines -/

/-- The statement of a line is that of its tokens. -/
theorem Statement.ofTokens_of_scan {text : String} {t : Token} {rest : List Token} {s : Statement}
    (scanned : Token.scan text = .ok (t :: rest)) (h : ofLine? text = .ok (some s)) : ofTokens (t :: rest) = .ok s := by
  rw [ofLine?, scanned] at h
  simp only at h
  split at h
  · cases h
  · rename_i read
    cases h
    exact read

/-- The word that the name of a condition is read as where an operand stands. -/
def Condition.operandWord : Condition → Word
  | .C => .register .C
  | c => .condition c

theorem Word.operand?_condition {name : String} {c : Condition} (h : name.toUpper = Vocabulary.name c) :
    operand? name = some c.operandWord := by
  rw [operand?, classify?_bits, h]
  cases c <;> rfl

theorem Node.lead_condition {name : String} {c : Condition} (h : name.toUpper = Vocabulary.name c) (column : Nat)
    (rest : List Token) : lead ⟨.identifier name, column⟩ rest = .ok (.leaf (.word c.operandWord) column, 0) := by
  simp only [lead, Word.operand?_condition h]

theorem Node.Phrase.eq_condition {name : String} {c : Condition} (h : name.toUpper = Vocabulary.name c) {column : Nat}
    {node : Node} (phrase : Phrase [⟨.identifier name, column⟩] node) : node = .leaf (.word c.operandWord) column := by
  cases phrase with
  | word first =>
    have read := Word.classify?_eq_some_iff.2 first
    cases read.symm.trans (Word.operand?_condition h)
    rfl

theorem Statement.Sentence.getElem?_condition {t : Token} {rest : List Token} {s : Statement}
    (h : Sentence (t :: rest) s) {name : String} {c : Condition} (upper : name.toUpper = Vocabulary.name c) {i column : Nat}
    (piece : (rest.splitOnP Token.isComma)[i]? = some [⟨.identifier name, column⟩]) :
    s.operands[i]? = some (.leaf (.word c.operandWord) column) := by
  cases h with
  | alone =>
    -- there is no name between the commas of no tokens
    cases i <;> cases piece
  | operands spelled j phrases =>
    obtain ⟨node, hn, phrase⟩ := exists_getElem?_of_forall₂ phrases piece
    rw [hn, phrase.eq_condition upper]

/-! ## The encoder -/

/-- Conditions live in the condition slot alone. In a statement that is encoded, the one place of a condition is the first
operand, and the mnemonic is one of four; a statement with a condition anywhere else, in parentheses or not, is not encoded.
In the slot the register `C` means what the carry flag does, to every outcome of the encoder. Where an operand stands in a
line, the name `C` is read as the register, in any letter case, and the names of the other conditions as conditions. -/
theorem Encoder.z80_condition (line : Nat) (out : Output) :
    z80 = running Emitter.dispatch ∧
    (∀ (s : Statement) (out' : Output), z80 line s out = (.ok (), out') → ∀ i node c, s.operands[i]? = some node →
      node.Holds (.word (.condition c)) →
        i = 0 ∧ s.mnemonic ∈ Mnemonic.testing ∧ ∃ k, node = .leaf (.word (.condition c)) k) ∧
    (∀ (s : Statement) i node c, s.operands[i]? = some node → node.Holds (.word (.condition c)) →
      ¬(i = 0 ∧ s.mnemonic ∈ Mnemonic.testing ∧ ∃ k, node = .leaf (.word (.condition c)) k) →
        ∃ e, z80 line s out = (.error e, out.clear)) ∧
    (∀ m ∈ Mnemonic.testing, ∀ c k more,
      z80 line ⟨m, c, .leaf (.word (.register .C)) k :: more⟩ out =
        z80 line ⟨m, c, .leaf (.word (.condition .C)) k :: more⟩ out) ∧
    (∀ (name : String) (c : Condition), name.toUpper = Vocabulary.name c → ∀ column rest,
      Node.lead ⟨.identifier name, column⟩ rest = .ok (.leaf (.word c.operandWord) column, 0)) ∧
    ∀ (text : String) (t : Token) (rest : List Token) (s : Statement), Token.scan text = .ok (t :: rest) →
      Statement.ofLine? text = .ok (some s) → ∀ (i : Nat) (name : String) (c : Condition) (column : Nat),
        name.toUpper = Vocabulary.name c → (rest.splitOnP Token.isComma)[i]? = some [⟨.identifier name, column⟩] →
        s.operands[i]? = some (.leaf (.word c.operandWord) column) := by
  refine ⟨running_dispatch.symm, ?_, ?_, fun m hm c k more => Statement.z80_onCarry c k more hm line out, ?_, ?_⟩
  · intro s out' written i node c hn holds
    obtain ⟨e, he, -⟩ := encoding_of_z80 written
    exact Statement.first_of_encoding he hn holds
  · intro s i node c hn holds elsewhere
    cases he : s.encoding with
    | error e => exact ⟨e, z80_of_error he⟩
    | ok e => exact absurd (Statement.first_of_encoding he hn holds) elsewhere
  · intro name c upper column rest
    exact Node.lead_condition upper column rest
  · intro text t rest s scanned read i name c column upper piece
    have tokens := Statement.ofTokens_of_scan scanned read
    exact (Statement.ofTokens_eq_ok_iff_sentence.1 tokens).getElem?_condition upper piece

/-- `JR NC,5` begins with its condition, `PUSH (Z)` is not encoded, `RET C` is the same either way, and in `jp c,nz` the
first operand is a register and the second a condition. -/
theorem Encoder.z80_condition_carry :
    (0 = 0 ∧ .JR ∈ Mnemonic.testing ∧ ∃ k, Node.leaf (.word (.condition .NC)) 3 = .leaf (.word (.condition .NC)) k) ∧
    (∃ e, z80 1 ⟨.PUSH, 0, [.address [.leaf (.word (.condition .Z)) 6] 5]⟩ .empty = (.error e, .empty)) ∧
    z80 1 ⟨.RET, 0, [.leaf (.word (.register .C)) 4]⟩ .empty = z80 1 ⟨.RET, 0, [.leaf (.word (.condition .C)) 4]⟩ .empty ∧
    Node.lead ⟨.identifier "Po", 3⟩ [] = .ok (.leaf (.word (.condition .PO)) 3, 0) ∧
    ∃ s, Statement.ofLine? "jp c,nz" = .ok (some s) ∧ s.operands[0]? = some (.leaf (.word (.register .C)) 3) ∧
      s.operands[1]? = some (.leaf (.word (.condition .NZ)) 5) := by
  obtain ⟨-, encoded, elsewhere, carry, leading, lines⟩ := z80_condition 1 .empty
  refine ⟨?_, ?_, ?_, ?_, ?_⟩
  · exact encoded ⟨.JR, 0, [.leaf (.word (.condition .NC)) 3, .leaf (.immediate 5) 6]⟩ _ rfl 0 _ .NC rfl (.leaf 3)
  · exact elsewhere _ 0 _ .Z rfl (.address List.mem_cons_self (.leaf 6) 5) fun h => absurd h.2.1 (by decide)
  · exact carry .RET (by decide) 0 4 []
  · exact leading "Po" .PO (by decide +kernel) 3 []
  · have scanned : Token.scan "jp c,nz" = .ok [⟨.identifier "jp", 0⟩, ⟨.identifier "c", 3⟩, ⟨.operator .comma, 4⟩,
        ⟨.identifier "nz", 5⟩] := by decide +kernel
    have isOk : (Statement.ofLine? "jp c,nz").toOption.join.isSome := by decide +kernel
    cases h : Statement.ofLine? "jp c,nz" with
    | error e => rw [h] at isOk; cases isOk
    | ok read =>
      cases read with
      | none => rw [h] at isOk; cases isOk
      | some s =>
        refine ⟨s, rfl, ?_, ?_⟩
        · exact lines _ _ _ s scanned h 0 "c" .C 3 (by decide +kernel) rfl
        · exact lines _ _ _ s scanned h 1 "nz" .NZ 5 (by decide +kernel) rfl

end Z80Asm
