/-
The two index registers are interchangeable. A statement with `IX` and `IY` exchanged, and their halves, has the bytes
of the statement with the prefix exchanged, and the same warnings or the same error (`Encoder.evaluate_swap`). An
exchange is its own inverse, so that the rows of the table are mapped onto each other.
-/
import Z80Asm.Proofs.Assembler.Statement
import Z80Asm.Proofs.OpcodeMap.Disassemble
import Z80Asm.Proofs.Table.Rejection

namespace Z80Asm

/-! ## The exchange -/

/-- The other index register. -/
def IndexPair.swap : IndexPair → IndexPair
  | .IX => .IY
  | .IY => .IX

/-- The same half of the other index register. -/
def IndexHalf.swap : IndexHalf → IndexHalf
  | .IXL => .IYL
  | .IXH => .IYH
  | .IYL => .IXL
  | .IYH => .IXH

/-- A word with the index registers exchanged. -/
def Word.swap : Word → Word
  | .indexHalf k => .indexHalf k.swap
  | .indexPair i => .indexPair i.swap
  | w => w

/-- A leaf with the index registers exchanged. -/
def Leaf.swap : Leaf → Leaf
  | .word w => .word w.swap
  | l => l

mutual

/-- A node with the index registers exchanged everywhere in it. -/
def Node.swap : Node → Node
  | .leaf l column => .leaf l.swap column
  | .address children column => .address (Node.swapAll children) column

/-- Nodes that stand side by side, with the index registers exchanged. -/
def Node.swapAll : List Node → List Node
  | [] => []
  | n :: more => Node.swap n :: Node.swapAll more

end

/-- A statement with the index registers exchanged. -/
def Statement.swap (s : Statement) : Statement := { s with operands := s.operands.map Node.swap }

/-- A base with the index registers exchanged. -/
def Base.swap : Base → Base
  | .indexPair i => .indexPair i.swap
  | b => b

/-- An address with the index registers exchanged. -/
def Address.swap (a : Address) : Address := { a with base := a.base.swap }

/-- An operand with the index registers exchanged. -/
def Operand.swap : Operand → Operand
  | .indexHalf k => .indexHalf k.swap
  | .indexPair i => .indexPair i.swap
  | .address a => .address a.swap
  | x => x

/-- A machine instruction under the other index prefix. -/
def Encoding.swap (e : Encoding) : Encoding := { e with index := e.index.map IndexPair.swap }

/-- Bytes with the index prefix at their front exchanged. -/
def swapPrefix : List UInt8 → List UInt8
  | [] => []
  | b :: rest => (if b = 0xDD then 0xFD else if b = 0xFD then 0xDD else b) :: rest

theorem IndexPair.swap_swap (i : IndexPair) : i.swap.swap = i := by cases i <;> rfl

theorem Operand.swap_swap (x : Operand) : x.swap.swap = x := by
  cases x with
  | indexHalf k => cases k <;> rfl
  | indexPair i => cases i <;> rfl
  | address a =>
    obtain ⟨base, d⟩ := a
    cases base with
    | indexPair i => cases i <;> rfl
    | _ => rfl
  | _ => rfl

theorem Operand.map_swap_swap (xs : List Operand) : (xs.map swap).map swap = xs := by
  simp only [List.map_map, Function.comp_def, swap_swap, List.map_id']

/-! ## The table -/

theorem Load.Row.swap {xs : List Operand} {e : Encoding} (h : Row xs e) : Row (xs.map Operand.swap) e.swap := by
  have same := h
  cases h with
  | fromIndexed r i d => exact .fromIndexed r i.swap d
  | toIndexed i d r => exact .toIndexed i.swap d r
  | numberToIndexed i d n => exact .numberToIndexed i.swap d n
  | fromHalf r k plain => cases k <;> exact .fromHalf r _ plain
  | toHalf k r plain => cases k <;> exact .toHalf _ r plain
  | half k l pair => cases k <;> cases l <;> first | exact .half _ _ rfl | cases pair
  | numberToHalf k n => cases k <;> exact .numberToHalf _ n
  | indexNumber i nn => exact .indexNumber i.swap nn
  | indexFromNumeric i nn d => exact .indexFromNumeric i.swap nn d
  | indexToNumeric i nn d => exact .indexToNumeric i.swap nn d
  | stackPointerIndex i => exact .stackPointerIndex i.swap
  | _ => exact same

theorem Alu.Source.swap {op : Alu} {operand : Nat} {x : Operand} {e : Encoding} (h : Source op operand x e) :
    Source op operand x.swap e.swap := by
  have same := h
  cases h with
  | half k => cases k <;> exact .half _
  | indexed i d => exact .indexed i.swap d
  | _ => exact same

theorem Alu.Row.swap {op : Alu} {xs : List Operand} {e : Encoding} (h : Row op xs e) : Row op (xs.map Operand.swap) e.swap := by
  have same := h
  cases h with
  | short implicit source => exact .short implicit source.swap
  | long source => exact .long source.swap
  | addToIndex i p other => exact .addToIndex i.swap p other
  | addSelf i => exact .addSelf i.swap
  | _ => exact same

theorem Step.Row.swap {s : Step} {xs : List Operand} {e : Encoding} (h : Row s xs e) : Row s (xs.map Operand.swap) e.swap := by
  have same := h
  cases h with
  | half k => cases k <;> exact .half _
  | indexed i d => exact .indexed i.swap d
  | index i => exact .index i.swap
  | _ => exact same

theorem BitPage.Target.swap {opcode : UInt8} {first : Nat} {xs : List Operand} {e : Encoding} (h : Target opcode first xs e) :
    Target opcode first (xs.map Operand.swap) e.swap := by
  have same := h
  cases h with
  | indexed i d => exact .indexed i.swap d
  | copy i d r => exact .copy i.swap d r
  | _ => exact same

theorem Branch.Absolute.swap {always onCondition : UInt8} {xs : List Operand} {e : Encoding}
    (h : Absolute always onCondition xs e) : Absolute always onCondition (xs.map Operand.swap) e.swap := by
  cases h with
  | always nn => exact .always nn
  | conditional slot nn => cases slot <;> exact .conditional (by constructor) nn

/-- The exchange maps the rows of the table to rows. -/
theorem Row.swap {m : Mnemonic} {xs : List Operand} {e : Encoding} (h : Row m xs e) : Row m (xs.map Operand.swap) e.swap := by
  have same := h
  cases h with
  | load row => exact .load row.swap
  | alu op row => exact .alu op row.swap
  | step s row => exact .step s row.swap
  | rotation r row => exact .rotation r row.swap
  | bit b row =>
    obtain ⟨index, row⟩ := row
    exact .bit b (.intro index row.swap)
  | jump row =>
    cases row with
    | absolute row => exact .jump (.absolute row.swap)
    | hl => exact same
    | index i => exact .jump (.index i.swap)
  | relative row =>
    cases row with
    | always d => exact same
    | conditional slot flag d => cases slot <;> exact same
  | call row => exact .call row.swap
  | ret row =>
    cases row with
    | always => exact same
    | conditional slot => cases slot <;> exact same
  | push row =>
    cases row with
    | index i => exact .push (.index i.swap)
    | _ => exact same
  | pop row =>
    cases row with
    | index i => exact .pop (.index i.swap)
    | _ => exact same
  | exchange row =>
    cases row with
    | topIndex i => exact .exchange (.topIndex i.swap)
    | _ => exact same
  | @implied m e opcode => cases m <;> cases opcode <;> exact same
  | _ row => cases row <;> exact same

/-! ## Mnemonics with operands -/

theorem Load.rejection_swap : ∀ xs : List Operand, rejection (xs.map Operand.swap) = rejection xs
  | [] => rfl
  | [x] => by cases x <;> rfl
  | [x, y] => by cases x <;> cases y <;> rfl
  | x :: y :: _ :: _ => by cases x <;> cases y <;> rfl

theorem BitAccess.rejection_swap (xs : List Operand) : rejection (xs.map Operand.swap) = rejection xs := by
  cases xs with
  | nil => rfl
  | cons x target => cases x <;> rfl

theorem Branch.rejection_swap : ∀ xs : List Operand, rejection (xs.map Operand.swap) = rejection xs
  | [] => rfl
  | x :: more => by cases x <;> cases more <;> rfl

theorem InterruptMode.rejection_swap : ∀ xs : List Operand, rejection (xs.map Operand.swap) = rejection xs
  | [] => rfl
  | x :: more => by cases x <;> cases more <;> rfl

namespace Mnemonic

theorem rejection_swap (m : Mnemonic) (xs : List Operand) : m.rejection (xs.map Operand.swap) = m.rejection xs := by
  cases m with
  | LD => exact Load.rejection_swap xs
  | BIT | RES | SET => exact BitAccess.rejection_swap xs
  | RST => exact Branch.rejection_swap xs
  | IM => exact InterruptMode.rejection_swap xs
  | _ => rfl

/-- A mnemonic encodes exchanged operands under the other prefix, and rejects them as it does the operands. -/
theorem encode_swap (m : Mnemonic) (xs : List Operand) :
    m.encode (xs.map Operand.swap) = (m.encode xs).map Encoding.swap := by
  cases h : m.encode xs with
  | ok e => exact encode_of_row (row_of_encode h).swap
  | error fault =>
    obtain ⟨none, rfl⟩ := encode_eq_error_iff.1 h
    refine encode_eq_error_iff.2 ⟨fun e row => ?_, (rejection_swap m xs).symm⟩
    -- a row for the exchanged operands comes back as one for the operands
    have back := row.swap
    rw [Operand.map_swap_swap] at back
    exact none _ back

end Mnemonic

/-! ## Bytes -/

theorem Row.bytes_swap {m : Mnemonic} {xs : List Operand} {e : Encoding} (h : Row m xs e) :
    e.swap.bytes = swapPrefix e.bytes := by
  have regular := Cell.opcode_of_form? h.form?_cell
  obtain ⟨index, page, opcode, displacement, data⟩ := e
  cases index with
  | some i => cases i <;> cases page <;> rfl
  | none =>
    cases page with
    | main =>
      -- no opcode looks like a prefix
      obtain ⟨-, notDD, -, notFD⟩ := regular rfl
      have same : (if opcode = 0xDD then 0xFD else if opcode = 0xFD then 0xDD else opcode) = opcode :=
        (if_neg notDD).trans (if_neg notFD)
      exact congrArg (fun b => b :: _) same.symm
    | _ => rfl

/-! ## Nodes -/

theorem Node.swapAll_eq (nodes : List Node) : swapAll nodes = nodes.map swap := by
  induction nodes with
  | nil => rw [swapAll, List.map_nil]
  | cons n more ih => rw [swapAll, List.map_cons, ih]

theorem Node.column_swap (node : Node) : node.swap.column = node.column := by cases node <;> rfl

theorem Base.ofLeaf?_swap (l : Leaf) : ofLeaf? l.swap = (ofLeaf? l).map swap := by
  cases l with
  | word w => cases w <;> rfl
  | _ => rfl

theorem Address.ofNodes?_swap : ∀ nodes : List Node, ofNodes? (nodes.map Node.swap) = (ofNodes? nodes).map swap
  | [] => rfl
  | [.leaf b _] => by
    simp only [List.map_cons, List.map_nil, Node.swap, ofNodes?, Base.ofLeaf?_swap]
    cases Base.ofLeaf? b <;> rfl
  | [.leaf _ _, .leaf l _] => by cases l <;> rfl
  | .leaf b i :: .leaf l j :: .leaf k c :: more => by
    cases l with
    | operator o =>
      cases k with
      | immediate n =>
        cases more with
        | nil =>
          show ofNodes? [.leaf b.swap i, .leaf (.operator o) j, .leaf (.immediate n) c] = _
          simp only [ofNodes?, Base.ofLeaf?_swap]
          rcases Base.ofLeaf? b with _ | base
          · rfl
          · cases base <;> cases o.signed? n <;> rfl
        | cons _ _ => rfl
      | _ => cases more <;> rfl
    | _ => rfl
  | .leaf _ _ :: .leaf l _ :: .address _ _ :: _ => by cases l <;> rfl
  | .leaf _ _ :: .address _ _ :: _ => rfl
  | .address _ _ :: _ => rfl

namespace Operand

theorem ofNode_swap (node : Node) : ofNode node.swap = (ofNode node).map swap := by
  cases node with
  | leaf l column =>
    cases l with
    | word w => cases w <;> rfl
    | _ => rfl
  | address children column =>
    rw [Node.swap, Node.swapAll_eq, ofNode, ofNode, Address.ofNodes?_swap]
    cases Address.ofNodes? children <;> rfl

theorem ofNodes_swap (nodes : List Node) : ofNodes (nodes.map Node.swap) = (ofNodes nodes).map (List.map swap) := by
  induction nodes with
  | nil => rfl
  | cons node more ih =>
    rw [List.map_cons, ofNodes, ofNodes, ofNode_swap, ih]
    cases ofNode node with
    | error fault => rfl
    | ok x => cases ofNodes more <;> rfl

end Operand

/-! ## Statements -/

namespace Statement

theorem columnOf_swap (s : Statement) (operand : Nat) : s.swap.columnOf operand = s.columnOf operand := by
  simp only [columnOf, swap, List.getElem?_map]
  cases s.operands[operand]? with
  | none => rfl
  | some node => exact Node.column_swap node

theorem failure_swap (s : Statement) (fault : Fault) : s.swap.failure fault = s.failure fault := by
  have columns : s.swap.columnOf = s.columnOf := funext s.columnOf_swap
  rw [failure, failure, columns]
  rfl

theorem overflows_swap (s : Statement) (e : Encoding) : s.swap.overflows e.swap = s.overflows e := by
  have columns : s.swap.columnOf = s.columnOf := funext s.columnOf_swap
  rw [overflows, overflows, columns]
  rfl

theorem encoding_swap (s : Statement) : s.swap.encoding = s.encoding.map Encoding.swap := by
  have operands : Operand.ofNodes s.swap.operands = _ := Operand.ofNodes_swap s.operands
  have mnemonic : s.swap.mnemonic = s.mnemonic := rfl
  simp only [encoding, operands, mnemonic, failure_swap]
  cases Operand.ofNodes s.operands with
  | error fault => rfl
  | ok xs =>
    simp only [Except.map, Mnemonic.encode_swap]
    cases s.mnemonic.encode xs <;> rfl

end Statement

/-- A statement with `IX` and `IY` and their halves exchanged: it fails with the same error, or it succeeds with the same
reports and the same bytes, except that the index prefix at their front is exchanged. -/
theorem Encoder.evaluate_swap (line : Nat) (s : Statement) (reports : List Diagnostic) :
    evaluate z80 line s.swap reports =
      ((evaluate z80 line s reports).1.map swapPrefix, (evaluate z80 line s reports).2) := by
  rw [evaluate_z80, evaluate_z80, Statement.encoding_swap]
  cases h : s.encoding with
  | error e => rfl
  | ok e =>
    obtain ⟨xs, -, row⟩ := Statement.encoding_eq_ok_iff.1 h
    simp only [Except.map, Statement.warnings, Statement.overflows_swap, row.bytes_swap]

end Z80Asm
