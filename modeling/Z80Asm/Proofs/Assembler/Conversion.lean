/-
Converting the nodes of any tree to operands. Which nodes fold to an address is said by their shapes
(`Address.ofNodes?_eq_some_iff`), and the first node that is no operand decides what becomes of a statement, before its
mnemonic is looked at (`Encoder.asserting_conversion`).
-/
import Z80Asm.Proofs.Assembler.Assertion
import Z80Asm.Proofs.Bytes.Table

namespace Z80Asm

/-! ## Shapes -/

/-- The base that a word is. -/
inductive Base.OfWord : Word → Base → Prop
  | register (r : Register) : OfWord (.register r) (.register r)
  | normalPair (p : NormalPair) : OfWord (.normalPair p) (.normalPair p)
  | indexPair (p : IndexPair) : OfWord (.indexPair p) (.indexPair p)

/-- The nodes that fold to an address: a number, the word of a base, or such a word with a sign and a number. -/
inductive Address.Folds : List Node → Address → Prop
  | absolute (n : Int32) (i : Nat) : Folds [.leaf (.immediate n) i] ⟨.immediate n, none⟩
  | bare {w : Word} {b : Base} (h : Base.OfWord w b) (i : Nat) : Folds [.leaf (.word w) i] ⟨b, none⟩
  | plus {w : Word} {b : Base} (h : Base.OfWord w b) (n : Int32) (i j k : Nat) :
    Folds [.leaf (.word w) i, .leaf (.operator .plus) j, .leaf (.immediate n) k] ⟨b, some n⟩
  | minus {w : Word} {b : Base} (h : Base.OfWord w b) (n : Int32) (i j k : Nat) :
    Folds [.leaf (.word w) i, .leaf (.operator .minus) j, .leaf (.immediate n) k] ⟨b, some (-n)⟩

namespace Node

/-- The operand that a node is converted to. -/
inductive Converts : Node → Operand → Prop
  | word (w : Word) (i : Nat) : Converts (.leaf (.word w) i) (.ofWord w)
  | immediate (n : Int32) (i : Nat) : Converts (.leaf (.immediate n) i) (.immediate n)
  | address {children : List Node} {a : Address} (h : Address.Folds children a) (i : Nat) :
    Converts (.address children i) (.address a)

/-- The nodes that are no operands: mnemonics and symbols, and addresses that are not folded. -/
inductive Rejected : OperandFault → Node → Prop
  | mnemonic (m : Mnemonic) (i : Nat) : Rejected .notAnOperand (.leaf (.mnemonic m) i)
  | operator (o : Operator) (i : Nat) : Rejected .notAnOperand (.leaf (.operator o) i)
  | address {children : List Node} (h : ∀ a, ¬Address.Folds children a) (i : Nat) :
    Rejected .malformedAddress (.address children i)

/-- The first of some nodes that is no operand is rejected with a fault. -/
def FirstRejected (fault : OperandFault) (nodes : List Node) : Prop :=
  ∃ before node behind, nodes = before ++ node :: behind ∧ Rejected fault node ∧ ∀ m ∈ before, ∀ f, ¬Rejected f m

end Node

/-! ## Addresses -/

namespace Address

/-- The base that the first of some nodes is. -/
def firstBase? : List Node → Option Base
  | .leaf b _ :: _ => Base.ofLeaf? b
  | _ => none

/-- The address of some nodes, worked out step by step: the base is looked for before the nodes are counted, and a
number is not displaced. -/
def fold? (children : List Node) : Option Address :=
  (firstBase? children).bind fun base =>
    match children with
    | [_] => some ⟨base, none⟩
    | [_, sign, displacement] =>
      match base, sign, displacement with
      | .immediate _, _, _ => none
      | base, .leaf (.operator .plus) _, .leaf (.immediate n) _ => some ⟨base, some n⟩
      | base, .leaf (.operator .minus) _, .leaf (.immediate n) _ => some ⟨base, some (-n)⟩
      | _, _, _ => none
    | _ => none

theorem ofLeaf?_eq_some_iff {l : Leaf} {b : Base} :
    Base.ofLeaf? l = some b ↔ (∃ n, l = .immediate n ∧ b = .immediate n) ∨ ∃ w, l = .word w ∧ Base.OfWord w b := by
  constructor
  · intro h
    unfold Base.ofLeaf? at h
    split at h <;> cases h
    · exact .inl ⟨_, rfl, rfl⟩
    · exact .inr ⟨_, rfl, .register _⟩
    · exact .inr ⟨_, rfl, .normalPair _⟩
    · exact .inr ⟨_, rfl, .indexPair _⟩
  · rintro (⟨n, rfl, rfl⟩ | ⟨w, rfl, h⟩)
    · rfl
    · cases h <;> rfl

/-- Nodes fold to an address exactly if they have one of the shapes. -/
theorem ofNodes?_eq_some_iff {children : List Node} {a : Address} : ofNodes? children = some a ↔ Folds children a := by
  constructor
  · intro h
    unfold ofNodes? at h
    split at h
    · rename_i l i
      obtain ⟨b, hb, rfl⟩ := Option.map_eq_some_iff.1 h
      rcases ofLeaf?_eq_some_iff.1 hb with ⟨n, rfl, rfl⟩ | ⟨w, rfl, word⟩
      · exact .absolute n i
      · exact .bare word i
    · rename_i l i o j n k
      split at h <;> cases h
      rename_i b d other hb hd
      rcases ofLeaf?_eq_some_iff.1 hb with ⟨n, rfl, rfl⟩ | ⟨w, rfl, word⟩
      · exact absurd rfl (other n)
      · cases o <;> cases hd
        · exact .plus word n i j k
        · exact .minus word n i j k
    · cases h
  · intro h
    cases h with
    | absolute => rfl
    | bare h => cases h <;> rfl
    | plus h => cases h <;> rfl
    | minus h => cases h <;> rfl

theorem fold?_eq_some_iff {children : List Node} {a : Address} : fold? children = some a ↔ Folds children a := by
  constructor
  · intro h
    obtain ⟨b, hb, hf⟩ := Option.bind_eq_some_iff.1 h
    unfold firstBase? at hb
    split at hb
    · split at hf
      · rename_i first hc
        cases hc
        cases hf
        rcases ofLeaf?_eq_some_iff.1 hb with ⟨n, rfl, rfl⟩ | ⟨w, rfl, word⟩
        · exact .absolute n _
        · exact .bare word _
      · rename_i first sign displacement hc
        cases hc
        rcases ofLeaf?_eq_some_iff.1 hb with ⟨n, rfl, rfl⟩ | ⟨w, rfl, word⟩
        · cases hf
        · split at hf <;> cases hf
          · exact .plus word _ _ _ _
          · exact .minus word _ _ _ _
      · cases hf
    · cases hb
  · intro h
    cases h with
    | absolute => rfl
    | bare h => cases h <;> rfl
    | plus h => cases h <;> rfl
    | minus h => cases h <;> rfl

/-- In which order the nodes are looked at makes no difference. -/
theorem fold?_eq (children : List Node) : fold? children = ofNodes? children :=
  Option.ext fun _ => fold?_eq_some_iff.trans ofNodes?_eq_some_iff.symm

theorem ofNodes?_eq_none_iff {children : List Node} : ofNodes? children = none ↔ ∀ a, ¬Folds children a := by
  rw [Option.eq_none_iff_forall_ne_some]
  simp only [ne_eq, ofNodes?_eq_some_iff]

section

variable {children : List Node} {a : Address}

/-- A displacement is what the second and third node make. -/
theorem Folds.isSome_displacement_iff (h : Folds children a) : a.displacement.isSome = true ↔ children.length = 3 := by
  cases h <;> simp

/-- Nothing is added to a number. -/
theorem Folds.displacement_of_immediate (h : Folds children a) {n : Int32} (hb : a.base = .immediate n) :
    a.displacement = none := by
  cases h with
  | absolute => rfl
  | bare => rfl
  | plus h => cases h <;> cases hb
  | minus h => cases h <;> cases hb

/-- The displacement is the number, or its negation in 32 bits. -/
theorem Folds.displacement_eq {b : Node} {o : Operator} {n : Int32} {j k : Nat}
    (h : Folds [b, .leaf (.operator o) j, .leaf (.immediate n) k] a) :
    (o = .plus ∧ a.displacement = some n ∧ a.offset = n) ∨
      o = .minus ∧ a.displacement = some (-n) ∧ a.offset.toInt = (-n.toInt).bmod Int32.size := by
  cases h with
  | plus => exact .inl ⟨rfl, rfl, rfl⟩
  | minus => exact .inr ⟨rfl, rfl, Int32.toInt_neg n⟩

end

/-- The memory operand of an address is settled by its base and by whether there is a displacement. -/
theorem memory?_eq_some_iff {a : Address} {m : Memory} :
    a.memory? = some m ↔ (a = ⟨.normalPair .HL, none⟩ ∧ m = .hl) ∨ ∃ p, a.base = .indexPair p ∧ m = .indexed p a.offset := by
  constructor
  · intro h
    rcases memory?_eq_some h with hl | ⟨p, d, rfl, rfl⟩
    · exact .inl hl
    · exact .inr ⟨p, rfl, rfl⟩
  · rintro (⟨rfl, rfl⟩ | ⟨p, h, rfl⟩)
    · rfl
    · obtain ⟨base, d⟩ := a
      cases h
      rfl

end Address

/-! ## Nodes -/

namespace Operand

theorem ofNode_eq_ok_iff {node : Node} {x : Operand} : ofNode node = .ok x ↔ node.Converts x := by
  constructor
  · intro h
    unfold ofNode at h
    split at h
    · cases h
      exact .word _ _
    · cases h
      exact .immediate _ _
    · cases h
    · cases h
    · split at h <;> cases h
      rename_i ha
      exact .address (Address.ofNodes?_eq_some_iff.1 ha) _
  · intro h
    cases h with
    | word => rfl
    | immediate => rfl
    | address h => rw [ofNode, Address.ofNodes?_eq_some_iff.2 h]

theorem ofNode_eq_error_iff {node : Node} {fault : OperandFault} : ofNode node = .error fault ↔ node.Rejected fault := by
  constructor
  · intro h
    unfold ofNode at h
    split at h
    · cases h
    · cases h
    · cases h
      exact .mnemonic _ _
    · cases h
      exact .operator _ _
    · split at h <;> cases h
      rename_i ha
      exact .address (Address.ofNodes?_eq_none_iff.1 ha) _
  · intro h
    cases h with
    | mnemonic => rfl
    | operator => rfl
    | address h => rw [ofNode, Address.ofNodes?_eq_none_iff.2 h]

/-- The first node that is no operand decides the fault, whatever stands behind it. -/
theorem ofNodes_eq_error_iff {nodes : List Node} {fault : OperandFault} :
    ofNodes nodes = .error fault ↔ Node.FirstRejected fault nodes := by
  induction nodes with
  | nil =>
    constructor
    · intro h
      cases h
    · rintro ⟨before, node, behind, cut, -⟩
      simp at cut
  | cons n nodes ih =>
    constructor
    · intro h
      unfold ofNodes at h
      split at h
      · rename_i f hn
        cases h
        exact ⟨[], n, nodes, rfl, ofNode_eq_error_iff.1 hn, nofun⟩
      · rename_i x hn
        split at h
        · rename_i f rest
          cases h
          obtain ⟨before, node, behind, rfl, rejected, first⟩ := ih.1 rest
          refine ⟨n :: before, node, behind, rfl, rejected, List.forall_mem_cons.2 ⟨fun f hf => ?_, first⟩⟩
          rw [ofNode_eq_error_iff.2 hf] at hn
          cases hn
        · cases h
    · rintro ⟨before, node, behind, cut, rejected, first⟩
      cases before with
      | nil =>
        cases cut
        rw [ofNodes, ofNode_eq_error_iff.2 rejected]
      | cons m before =>
        cases cut
        have rest := ih.2 ⟨before, node, behind, rfl, rejected, fun k hk => first k (List.mem_cons_of_mem n hk)⟩
        cases hn : ofNode n with
        | error f => exact absurd (ofNode_eq_error_iff.1 hn) (first n List.mem_cons_self f)
        | ok x => rw [ofNodes, hn, rest]

theorem ofNodes_eq_ok_iff_converts {nodes : List Node} {xs : List Operand} :
    ofNodes nodes = .ok xs ↔ List.Forall₂ Node.Converts nodes xs := by
  rw [ofNodes_eq_ok_iff]
  simp only [ofNode_eq_ok_iff]

end Operand

/-! ## Statements -/

/-- Some node is no operand exactly if one of them is the first. -/
theorem Node.exists_firstRejected_iff {nodes : List Node} :
    (∃ fault, FirstRejected fault nodes) ↔ ∃ node ∈ nodes, ∃ fault, Rejected fault node := by
  constructor
  · rintro ⟨fault, before, node, behind, rfl, rejected, -⟩
    exact ⟨node, List.mem_append_right before List.mem_cons_self, fault, rejected⟩
  · rintro ⟨node, hn, fault, rejected⟩
    cases h : Operand.ofNodes nodes with
    | error f => exact ⟨f, Operand.ofNodes_eq_error_iff.1 h⟩
    | ok xs =>
      obtain ⟨i, hi⟩ := List.getElem?_of_mem hn
      obtain ⟨x, -, hx⟩ := exists_getElem?_of_forall₂ (Operand.ofNodes_eq_ok_iff.1 h) hi
      rw [Operand.ofNode_eq_error_iff.2 rejected] at hx
      cases hx

namespace Encoder

/-- Encoding ends the program exactly at an address of the wrong shape, if all nodes before it are operands. -/
theorem asserting_eq_none_iff {line : Nat} {s : Statement} {out : Output} :
    asserting line s out = none ↔ Operand.ofNodes s.operands = .error .malformedAddress := by
  unfold asserting
  split
  · rename_i h
    simp [h]
  · rename_i other
    exact ⟨nofun, fun h => absurd h other⟩

theorem asserting_of_ne {line : Nat} {s : Statement} {out : Output}
    (h : Operand.ofNodes s.operands ≠ .error .malformedAddress) : asserting line s out = some (z80 line s out) := by
  unfold asserting
  split
  · rename_i malformed
    exact absurd malformed h
  · rw [running_dispatch]

/-- The nodes that fold to an address are a number, the word of a base, or such a word with a sign and a number; a
displacement is that number or its negation, which wraps, and a number is not displaced. In a statement with any nodes,
the first that is no operand settles what becomes of it. An address of the wrong shape ends the program, and a mnemonic
or a symbol is an illegal operand at the column of the statement's mnemonic; the rows of the mnemonic have a part only
where all nodes are operands. -/
theorem asserting_conversion :
    (∀ children, Address.fold? children = Address.ofNodes? children) ∧
    (∀ children a, Address.ofNodes? children = some a ↔ Address.Folds children a) ∧
    (∀ children a, Address.Folds children a →
      (a.displacement.isSome = true ↔ children.length = 3) ∧ (a.displacement = none → a.offset = 0) ∧
      (∀ n, a.base = .immediate n → a.displacement = none) ∧
      ∀ b o n j k, children = [b, .leaf (.operator o) j, .leaf (.immediate n) k] →
        (o = .plus ∧ a.displacement = some n ∧ a.offset = n) ∨
          o = .minus ∧ a.displacement = some (-n) ∧ a.offset.toInt = (-n.toInt).bmod Int32.size) ∧
    (∀ (a : Address) m, a.memory? = some m ↔
      (a = ⟨.normalPair .HL, none⟩ ∧ m = .hl) ∨ ∃ p, a.base = .indexPair p ∧ m = .indexed p a.offset) ∧
    ∀ line s out,
      (asserting line s out = none ↔ Node.FirstRejected .malformedAddress s.operands) ∧
      (Node.FirstRejected .malformedAddress s.operands →
        z80 line s out = (.error ⟨s.mnemonic, .malformedAddress, s.column⟩, out.clear)) ∧
      (Node.FirstRejected .notAnOperand s.operands →
        z80 line s out = (.error ⟨s.mnemonic, .illegalOperands, s.column⟩, out.clear) ∧
        asserting line s out = some (z80 line s out)) ∧
      ((∀ node ∈ s.operands, ∀ fault, ¬node.Rejected fault) →
        ∃ xs, List.Forall₂ Node.Converts s.operands xs ∧ asserting line s out = some (z80 line s out) ∧
          (∀ e, Row s.mnemonic xs e → z80 line s out =
            (.ok (), ⟨e.bytes, out.reports ++ (s.overflows e).map fun o => ⟨line, .overflow o⟩⟩)) ∧
          ((∀ e, ¬Row s.mnemonic xs e) →
            z80 line s out = (.error (s.failure (s.mnemonic.rejection xs)), out.clear))) ∧
      ∀ node ∈ s.operands, ∀ fault, node.Rejected fault → ∃! f, Node.FirstRejected f s.operands := by
  refine ⟨Address.fold?_eq, fun children a => Address.ofNodes?_eq_some_iff, fun children a h => ?_,
    fun a m => Address.memory?_eq_some_iff, fun line s out => ?_⟩
  · refine ⟨h.isSome_displacement_iff, fun none => by rw [Address.offset, none]; rfl, fun n => h.displacement_of_immediate,
      fun b o n j k shape => ?_⟩
    subst shape
    exact h.displacement_eq
  · refine ⟨asserting_eq_none_iff.trans Operand.ofNodes_eq_error_iff, fun h => ?_, fun h => ?_, fun h => ?_,
      fun node hn fault rejected => ?_⟩
    · exact z80_of_rejected (Operand.ofNodes_eq_error_iff.2 h)
    · have rejected := Operand.ofNodes_eq_error_iff.2 h
      exact ⟨z80_of_notAnOperand rejected, asserting_of_ne (by rw [rejected]; exact nofun)⟩
    · cases hxs : Operand.ofNodes s.operands with
      | error fault =>
        obtain ⟨node, hn, f, rejected⟩ := Node.exists_firstRejected_iff.1 ⟨fault, Operand.ofNodes_eq_error_iff.1 hxs⟩
        exact absurd rejected (h node hn f)
      | ok xs =>
        refine ⟨xs, Operand.ofNodes_eq_ok_iff_converts.1 hxs, asserting_of_operands hxs, fun e row => ?_, z80_of_no_row hxs⟩
        exact z80_of_encoding (Statement.encoding_eq_ok_iff.2 ⟨xs, hxs, row⟩)
    · obtain ⟨f, first⟩ := Node.exists_firstRejected_iff.2 ⟨node, hn, fault, rejected⟩
      refine ⟨f, first, fun g other => ?_⟩
      have same := (Operand.ofNodes_eq_error_iff.2 other).symm.trans (Operand.ofNodes_eq_error_iff.2 first)
      cases same
      rfl

/-- Of an address in an address and a sign, the one that comes first counts. The least number is its own negation. -/
theorem asserting_conversion_nested :
    let register : Node := .leaf (.word (.register .A)) 3
    let nested : Node := .address [.address [.leaf (.word (.indexPair .IX)) 7] 6] 5
    let sign : Node := .leaf (.operator .plus) 11
    asserting 1 ⟨.LD, 0, [register, nested, sign]⟩ .empty = none ∧
    z80 1 ⟨.LD, 0, [register, sign, nested]⟩ .empty = (.error ⟨.LD, .illegalOperands, 0⟩, .empty) ∧
    ∃ a, Address.Folds [.leaf (.word (.indexPair .IX)) 0, .leaf (.operator .minus) 2, .leaf (.immediate Int32.minValue) 3] a ∧
      a.offset.toInt = -2147483648 := by
  intro register nested sign
  obtain ⟨-, -, displaced, -, encodes⟩ := asserting_conversion
  have operand : ∀ m ∈ [register], ∀ f, ¬m.Rejected f := by
    rintro m hm f h
    obtain rfl := List.mem_singleton.1 hm
    change Node.Rejected f (.leaf (.word (.register .A)) 3) at h
    cases h
  have shape : ∀ a, ¬Address.Folds [.address [.leaf (.word (.indexPair .IX)) 7] 6] a := fun a h => by cases h
  refine ⟨(encodes 1 _ .empty).1.2 ?_, ((encodes 1 _ .empty).2.2.1 ?_).1, _, .minus (.indexPair .IX) _ _ _ _, ?_⟩
  · exact ⟨[register], nested, [sign], rfl, .address shape 5, operand⟩
  · exact ⟨[register], sign, [nested], rfl, .operator .plus 11, operand⟩
  · obtain ⟨-, -, -, signed⟩ := displaced _ _ (.minus (.indexPair .IX) Int32.minValue 0 2 3)
    rcases signed _ _ _ _ _ rfl with ⟨plus, -⟩ | ⟨-, -, offset⟩
    · cases plus
    · exact offset

end Encoder

end Z80Asm
