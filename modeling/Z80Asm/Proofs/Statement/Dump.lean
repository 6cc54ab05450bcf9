/-
The dump of a statement as text. It is the same for two statements only if they are equal up to their columns, and its
lines are indented by four blanks for each block that is open (`Statement.dump_unambiguous`).
-/
import Z80Asm.Statement.Dump
import Z80Asm.Proofs.Statement.Columns
import Z80Asm.Proofs.Text.Lines
import Z80Asm.Proofs.Vocabulary.Precedence

namespace Z80Asm

/-! ## Lines in blocks -/

namespace Dump

/-- The number of blanks that a line starts with. -/
def indent (line : String) : Nat := (line.toList.takeWhile (· == ' ')).length

/-- Whether a line opens a block: a brace is its last character. -/
def opens (line : String) : Bool := line.toList.getLast? == some '\x7b'

/-- Whether a line closes a block: it is a brace behind its blanks. -/
def closes (line : String) : Bool := line.toList.dropWhile (· == ' ') == ['\x7d']

/-- Lines that are indented by four blanks for each open block, of which there are `level` before the lines and `last`
behind them. The line that closes a block is not in it. -/
structure Run (level last : Nat) (lines : List String) : Prop where
  indented : ∀ before line behind, lines = before ++ line :: behind →
    indent line + 4 * (before ++ [line]).countP closes = 4 * (level + before.countP opens)
  settled : last + lines.countP closes = level + lines.countP opens

/-- Lines in `level` open blocks. They close none of these, and all that they open. -/
structure Nested (level : Nat) (lines : List String) : Prop where
  within : ∀ line ∈ lines, 4 * level ≤ indent line
  run : Run level level lines

/-- Lines that are one block at a level, with as many more blocks in it. -/
def Block (level blocks : Nat) (lines : List String) : Prop :=
  ∃ opening inner closing, lines = opening :: inner ++ [closing] ∧ opens opening = true ∧ closes closing = true ∧
    indent opening = 4 * level ∧ indent closing = 4 * level ∧ Nested (level + 1) inner ∧ inner.countP opens = blocks

namespace Run

theorem nil (level : Nat) : Run level level [] := ⟨by simp, rfl⟩

theorem append {level middle last : Nat} {a b : List String} (ha : Run level middle a) (hb : Run middle last b) :
    Run level last (a ++ b) := by
  have first := ha.settled
  have second := hb.settled
  constructor
  · intro before line behind cut
    -- The line is in the second run, with the whole first one before it, or in the first run.
    obtain ⟨inner, rfl, rfl⟩ | ⟨inner, rfl, tail⟩ := List.append_eq_append_iff.1 cut
    · have inside := hb.indented inner line behind rfl
      simp only [List.countP_append] at inside ⊢
      omega
    · cases inner with
      | nil =>
        have inside := hb.indented [] line behind (by simpa using tail.symm)
        simp only [List.append_nil, List.nil_append, List.countP_nil, List.countP_append] at inside first ⊢
        omega
      | cons c inner =>
        obtain ⟨rfl, -⟩ := List.cons.inj tail
        exact ha.indented before line inner rfl
  · simp only [List.countP_append]
    omega

/-- A single line. -/
theorem singleton {level last : Nat} {line : String} (hi : indent line + 4 * [line].countP closes = 4 * level)
    (hs : last + [line].countP closes = level + [line].countP opens) : Run level last [line] := by
  refine ⟨fun before l behind cut => ?_, hs⟩
  cases before with
  | nil =>
    obtain ⟨rfl, -⟩ := List.cons.inj cut
    exact hi
  | cons c before => simp at cut

end Run

namespace Nested

theorem nil (level : Nat) : Nested level [] := ⟨by simp, Run.nil level⟩

theorem append {level : Nat} {a b : List String} (ha : Nested level a) (hb : Nested level b) : Nested level (a ++ b) := by
  refine ⟨fun line hl => ?_, ha.run.append hb.run⟩
  rcases List.mem_append.1 hl with hl | hl
  · exact ha.within line hl
  · exact hb.within line hl

/-- A line that opens and closes no block. -/
theorem plain {level : Nat} {line : String} (hi : indent line = 4 * level) (ho : opens line = false)
    (hc : closes line = false) : Nested level [line] :=
  ⟨by simp [hi], .singleton (by simp [hi, hc]) (by simp [ho, hc])⟩

/-- Lines as a block, between the line that opens it and the one that closes it. -/
theorem block {level : Nat} {opening closing : String} {inner : List String} (hi : indent opening = 4 * level)
    (hi' : indent closing = 4 * level) (ho : opens opening = true) (hc : closes opening = false)
    (ho' : opens closing = false) (hc' : closes closing = true) (h : Nested (level + 1) inner) :
    Nested level (opening :: inner ++ [closing]) := by
  constructor
  · intro line hl
    rw [List.cons_append, List.mem_cons, List.mem_append, List.mem_singleton] at hl
    rcases hl with rfl | hl | rfl
    · exact hi.ge
    · have := h.within line hl
      omega
    · exact hi'.ge
  · have first : Run level (level + 1) [opening] := .singleton (by simp [hi, hc]) (by simp [ho, hc])
    have final : Run (level + 1) level [closing] := .singleton (by simp [hi', hc']; omega) (by simp [ho', hc'])
    exact (first.append h.run).append final

end Nested

end Dump

/-! ## The text of a line -/

namespace Statement

theorem toList_indented (depth : Nat) (text : String) :
    (indented depth text).toList = List.replicate (4 * depth) ' ' ++ text.toList := by
  rw [indented, String.toList_append, String.toList_ofList]

theorem blank_of_mem {n : Nat} (c : Char) (h : c ∈ List.replicate n ' ') : (c == ' ') = true := by
  rw [List.eq_of_mem_replicate h, beq_self_eq_true]

theorem indent_indented {depth : Nat} {text : String} (h : text.toList.head? ≠ some ' ') :
    Dump.indent (indented depth text) = 4 * depth := by
  have none : text.toList.takeWhile (· == ' ') = [] := by
    cases hl : text.toList with
    | nil => rfl
    | cons c rest =>
      rw [hl, List.head?_cons, ne_eq, Option.some_inj] at h
      rw [List.takeWhile_cons_of_neg (by simpa using h)]
  rw [Dump.indent, toList_indented, List.takeWhile_append_of_pos blank_of_mem, none, List.append_nil, List.length_replicate]

theorem opens_indented (depth : Nat) {text : String} (h : text ≠ "") : Dump.opens (indented depth text) = Dump.opens text := by
  have some : text.toList ≠ [] := fun he => h (String.toList_inj.1 he)
  rw [Dump.opens, toList_indented, List.getLast?_append_of_ne_nil _ some, Dump.opens]

theorem closes_indented (depth : Nat) (text : String) : Dump.closes (indented depth text) = Dump.closes text := by
  rw [Dump.closes, toList_indented, List.dropWhile_append_of_pos blank_of_mem, Dump.closes]

theorem indented_inj {depth : Nat} {a b : String} (h : indented depth a = indented depth b) : a = b := by
  rw [← String.toList_inj, toList_indented, toList_indented] at h
  exact String.toList_inj.1 (List.append_cancel_left h)

theorem isLine_indented {depth : Nat} {text : String} (h : Text.IsLine text) (some : text ≠ "") :
    Text.IsLine (indented depth text) := by
  have some : text.toList ≠ [] := fun he => some (String.toList_inj.1 he)
  constructor
  · rw [toList_indented, List.mem_append]
    rintro (hc | hc)
    · cases List.eq_of_mem_replicate hc
    · exact h.1 hc
  · rw [toList_indented, List.getLast?_append_of_ne_nil _ some]
    exact h.2

end Statement

namespace Category

/-- The label of the leaves of a category. -/
def label : Category → String
  | .register => "REGISTER"
  | .specialRegister => "SPECREG"
  | .indexHalf => "IREG"
  | .normalPair => "NORMPAIR"
  | .specialPair => "SPECPAIR"
  | .indexPair => "IPAIR"
  | .condition => "CONDITION"
  | .mnemonic => "MNEMONIC"

theorem label_inj {j k : Category} : j.label = k.label → j = k := by cases j <;> cases k <;> decide

theorem label_ne (k : Category) : k.label ≠ "IMM" ∧ k.label ≠ "OPERATOR" := by cases k <;> decide

end Category

namespace Leaf

/-- The line of a leaf without its blanks. -/
def line (l : Leaf) : String := "(" ++ l.label ++ ") \x7b " ++ l.text ++ " \x7d"

theorem toList_line (l : Leaf) :
    l.line.toList = '(' :: (l.label.toList ++ ')' :: (" \x7b ".toList ++ l.text.toList ++ " \x7d".toList)) := by
  have start : ") \x7b ".toList = ')' :: " \x7b ".toList := rfl
  have paren : "(".toList = ['('] := rfl
  simp only [line, String.toList_append, start, paren, List.append_assoc, List.cons_append, List.nil_append]

theorem getLast?_line (l : Leaf) : l.line.toList.getLast? = some '\x7d' := by
  rw [line, String.toList_append, List.getLast?_append_of_ne_nil _ (by simp)]
  rfl

theorem text_mnemonic_inj {a b : Mnemonic} (h : (mnemonic a).text = (mnemonic b).text) : a = b := by
  have same : Vocabulary.name a = Vocabulary.name b := h
  have found := Mnemonic.lookup?_name a
  rw [same, Mnemonic.lookup?_name b] at found
  exact (Option.some.inj found).symm

theorem text_immediate_inj {n m : Int32} (h : (immediate n).text = (immediate m).text) : n = m := by
  have same : n.toInt.repr = m.toInt.repr := h
  exact Int32.toInt_inj.1 (Int.repr_inj.1 same)

theorem text_operator_inj {a b : Operator} (h : (operator a).text = (operator b).text) : a = b := by
  have same : String.singleton a.symbol = String.singleton b.symbol := h
  have found := Operator.ofSymbol?_symbol a
  rw [show a.symbol = b.symbol by simpa using same, Operator.ofSymbol?_symbol] at found
  exact (Option.some.inj found).symm

theorem label_word (w : Word) : (word w).label = w.category.label := by cases w <;> rfl

theorem label_mnemonic (m : Mnemonic) : (mnemonic m).label = Category.mnemonic.label := rfl

theorem label_word_ne_mnemonic (w : Word) (m : Mnemonic) : (word w).label ≠ (mnemonic m).label := by
  rw [label_word, label_mnemonic]
  exact fun h => w.category_ne_mnemonic (Category.label_inj h)

/-- A label says what kind a leaf is of, and the text what it holds. The text alone does not: `C` is a register and a
condition. -/
theorem eq_of_label_eq {l m : Leaf} (hl : l.label = m.label) (ht : l.text = m.text) : l = m := by
  cases l with
  | mnemonic a =>
    cases m with
    | mnemonic b => rw [text_mnemonic_inj ht]
    | word w => exact absurd hl.symm (label_word_ne_mnemonic w a)
    | immediate | operator => simp [label] at hl
  | word v =>
    cases m with
    | mnemonic b => exact absurd hl (label_word_ne_mnemonic v b)
    | word w =>
      rw [label_word, label_word] at hl
      rw [Word.eq_of_category_eq (Category.label_inj hl) ht]
    | immediate k =>
      rw [label_word] at hl
      exact absurd hl v.category.label_ne.1
    | operator b =>
      rw [label_word] at hl
      exact absurd hl v.category.label_ne.2
  | immediate n =>
    cases m with
    | word w =>
      rw [label_word] at hl
      exact absurd hl.symm w.category.label_ne.1
    | immediate k => rw [text_immediate_inj ht]
    | mnemonic | operator => simp [label] at hl
  | operator a =>
    cases m with
    | word w =>
      rw [label_word] at hl
      exact absurd hl.symm w.category.label_ne.2
    | operator b => rw [text_operator_inj ht]
    | mnemonic | immediate => simp [label] at hl

theorem isUpper_of_mem_label (l : Leaf) : ∀ c ∈ l.label.toList, c.isUpper = true := by
  apply List.all_eq_true.1
  cases l with
  | word w => cases w <;> (rw [label]; decide +kernel)
  | mnemonic | immediate | operator =>
    rw [label]
    decide +kernel

/-- The label is what stands between the first parenthesis and the next closing one. -/
theorem label_eq_takeWhile (l : Leaf) : l.label.toList = l.line.toList.tail.takeWhile (· != ')') := by
  have letters : ∀ c ∈ l.label.toList, (c != ')') = true := fun c hc => bne_iff_ne.2 fun h => by
    have := l.isUpper_of_mem_label c hc
    rw [h] at this
    cases this
  rw [toList_line, List.tail_cons, List.takeWhile_append_of_pos letters, List.takeWhile_cons_of_neg (by decide),
    List.append_nil]

theorem line_inj {l m : Leaf} (h : l.line = m.line) : l = m := by
  have labels : l.label.toList = m.label.toList := by rw [label_eq_takeWhile, label_eq_takeWhile, h]
  have same := congrArg String.toList h
  rw [toList_line, toList_line, labels] at same
  have behind := (List.cons.inj (List.append_cancel_left (List.cons.inj same).2)).2
  have texts := List.append_cancel_left (List.append_cancel_right behind)
  exact eq_of_label_eq (String.toList_inj.1 labels) (String.toList_inj.1 texts)

theorem feed_notMem_text (l : Leaf) : '\n' ∉ l.text.toList := by
  cases l with
  | mnemonic a => cases a <;> decide
  | word w =>
    cases w with
    | _ x => cases x <;> decide
  | operator o => cases o <;> decide
  | immediate n =>
    show '\n' ∉ n.toInt.repr.toList
    have digits (m : Nat) : '\n' ∉ m.repr.toList := by
      intro h
      rw [Nat.repr, String.toList_ofList] at h
      cases Nat.isDigit_of_mem_toDigits (by decide) (by decide) h
    rcases n.toInt with m | m
    · exact digits m
    · show '\n' ∉ ("-" ++ (m + 1).repr).toList
      simpa using digits (m + 1)

theorem isLine_line (l : Leaf) : Text.IsLine l.line := by
  constructor
  · have label : '\n' ∉ l.label.toList := fun h => by cases l.isUpper_of_mem_label _ h
    simp [toList_line, label, l.feed_notMem_text]
  · rw [getLast?_line]
    decide

theorem opens_line (l : Leaf) : Dump.opens l.line = false := by
  rw [Dump.opens, getLast?_line]
  rfl

theorem line_ne_empty (l : Leaf) : l.line ≠ "" := fun h => by simpa [h] using l.getLast?_line

theorem closes_line (l : Leaf) : Dump.closes l.line = false := by
  rw [Dump.closes, toList_line, List.dropWhile_cons_of_neg (by decide)]
  rfl

end Leaf

/-! ## The lines of nodes -/

mutual

/-- The number of addresses in a node, and of the node itself if it is one. -/
def Node.addresses : Node → Nat
  | .leaf _ _ => 0
  | .address children _ => Node.allAddresses children + 1

/-- The number of addresses in nodes that stand side by side. -/
def Node.allAddresses : List Node → Nat
  | [] => 0
  | n :: more => Node.addresses n + Node.allAddresses more

end

namespace Node

theorem dumpAll_leaf (depth : Nat) (l : Leaf) (column : Nat) (more : List Node) :
    dumpAll depth (leaf l column :: more) = Statement.indented depth l.line :: dumpAll depth more := by
  rw [dumpAll, dump, List.singleton_append, Leaf.line]

theorem dumpAll_address (depth : Nat) (children : List Node) (column : Nat) (more : List Node) :
    dumpAll depth (address children column :: more) = Statement.indented depth "(ADR) \x7b" ::
      dumpAll (depth + 1) children ++ Statement.indented depth "\x7d" :: dumpAll depth more := by
  rw [dumpAll, dump, List.append_assoc, List.singleton_append]

section

variable {P : Nat → List String → Prop} (nil : ∀ depth, P depth [])
  (append : ∀ depth a b, P depth a → P depth b → P depth (a ++ b))
  (line : ∀ depth l, P depth [Statement.indented depth (Leaf.line l)])
  (block : ∀ depth inner, P (depth + 1) inner →
    P depth (Statement.indented depth "(ADR) \x7b" :: inner ++ [Statement.indented depth "\x7d"]))

include nil append line block

/-- What holds of the line of every leaf, of lines one behind the other and of lines in a block, holds of the lines of
all nodes. -/
theorem dumpAll_induction (depth : Nat) (nodes : List Node) : P depth (dumpAll depth nodes) := by
  match nodes with
  | [] =>
    rw [dumpAll]
    exact nil depth
  | .leaf l column :: more =>
    rw [dumpAll_leaf]
    exact append depth _ _ (line depth l) (dumpAll_induction depth more)
  | .address children column :: more =>
    rw [dumpAll, dump]
    exact append depth _ _ (block depth _ (dumpAll_induction (depth + 1) children)) (dumpAll_induction depth more)
termination_by sizeOf nodes

end

theorem nested_dumpAll (depth : Nat) (nodes : List Node) : Dump.Nested depth (dumpAll depth nodes) := by
  refine dumpAll_induction Dump.Nested.nil (fun depth a b => .append) (fun depth l => ?_) (fun depth inner h => ?_) depth nodes
  · have start : l.line.toList.head? ≠ some ' ' := by
      rw [Leaf.toList_line]
      exact nofun
    refine .plain (Statement.indent_indented start) ?_ ?_
    · rw [Statement.opens_indented depth l.line_ne_empty, l.opens_line]
    · rw [Statement.closes_indented, l.closes_line]
  · refine .block (Statement.indent_indented (by decide)) (Statement.indent_indented (by decide)) ?_ ?_ ?_ ?_ h
    · rw [Statement.opens_indented depth (by decide)]
      rfl
    · rw [Statement.closes_indented]
      rfl
    · rw [Statement.opens_indented depth (by decide)]
      rfl
    · rw [Statement.closes_indented]
      rfl

theorem isLine_of_mem_dumpAll (depth : Nat) (nodes : List Node) : ∀ line ∈ dumpAll depth nodes, Text.IsLine line := by
  refine dumpAll_induction (P := fun _ lines => ∀ line ∈ lines, Text.IsLine line) ?_ ?_ ?_ ?_ depth nodes
  · simp
  · intro depth a b ha hb line h
    exact (List.mem_append.1 h).elim (ha line) (hb line)
  · intro depth l line h
    rw [List.mem_singleton.1 h]
    exact Statement.isLine_indented l.isLine_line l.line_ne_empty
  · intro depth inner h line hl
    rw [List.cons_append, List.mem_cons, List.mem_append, List.mem_singleton] at hl
    rcases hl with rfl | hl | rfl
    · exact Statement.isLine_indented ⟨by decide, by decide⟩ (by decide)
    · exact h line hl
    · exact Statement.isLine_indented ⟨by decide, by decide⟩ (by decide)

/-- Each address opens one block. -/
theorem countP_opens_dumpAll (depth : Nat) (nodes : List Node) :
    (dumpAll depth nodes).countP Dump.opens = allAddresses nodes := by
  match nodes with
  | [] =>
    rw [dumpAll, allAddresses]
    rfl
  | .leaf l column :: more =>
    have plain : Dump.opens (Statement.indented depth l.line) = false :=
      (Statement.opens_indented depth l.line_ne_empty).trans l.opens_line
    rw [dumpAll_leaf, allAddresses, addresses, List.countP_cons_of_neg (by simp [plain]), countP_opens_dumpAll depth more,
      Nat.zero_add]
  | .address children column :: more =>
    have opening : Dump.opens (Statement.indented depth "(ADR) \x7b") = true := Statement.opens_indented depth (by decide)
    have closing : Dump.opens (Statement.indented depth "\x7d") = false := Statement.opens_indented depth (by decide)
    rw [dumpAll_address, allAddresses, addresses, List.countP_append, List.countP_cons_of_pos opening,
      countP_opens_dumpAll (depth + 1) children, List.countP_cons_of_neg (by simp [closing]), countP_opens_dumpAll depth more]
termination_by sizeOf nodes

theorem block_dumpAll (depth : Nat) (nodes : List Node) {text : String} (start : text.toList.head? ≠ some ' ')
    (brace : Dump.opens text = true) : Dump.Block depth (allAddresses nodes)
      (Statement.indented depth text :: dumpAll (depth + 1) nodes ++ [Statement.indented depth "\x7d"]) := by
  have some : text ≠ "" := by
    rintro rfl
    cases brace
  have opening : Dump.opens (Statement.indented depth text) = true := (Statement.opens_indented depth some).trans brace
  have closing : Dump.closes (Statement.indented depth "\x7d") = true := Statement.closes_indented depth "\x7d"
  exact ⟨_, _, _, rfl, opening, closing, Statement.indent_indented start, Statement.indent_indented (by decide),
    nested_dumpAll (depth + 1) nodes, countP_opens_dumpAll (depth + 1) nodes⟩

/-- The columns have no part in a dump. -/
theorem dumpAll_mapAllColumns (f : Nat → Nat) (depth : Nat) (nodes : List Node) :
    dumpAll depth (mapAllColumns f nodes) = dumpAll depth nodes := by
  match nodes with
  | [] => rw [mapAllColumns]
  | .leaf l column :: more =>
    rw [mapAllColumns, mapColumns, dumpAll_leaf, dumpAll_leaf, dumpAll_mapAllColumns f depth more]
  | .address children column :: more =>
    rw [mapAllColumns, mapColumns, dumpAll_address, dumpAll_address, dumpAll_mapAllColumns f (depth + 1) children,
      dumpAll_mapAllColumns f depth more]
termination_by sizeOf nodes

/-! ## Reading a dump back -/

/-- The line that closes the block around nodes is none of their lines. -/
theorem indented_ne_closing (depth : Nat) (text : String) :
    Statement.indented (depth + 1) text ≠ Statement.indented depth "\x7d" := by
  intro h
  have same := congrArg String.toList h
  rw [Statement.toList_indented, Statement.toList_indented, Nat.mul_succ, List.replicate_add, List.append_assoc] at same
  cases List.append_cancel_left same

theorem line_ne_opening (l : Leaf) : l.line ≠ "(ADR) \x7b" := by
  intro h
  have last := l.getLast?_line
  rw [h] at last
  cases last

theorem exists_dumpAll_eq_cons (depth : Nat) (n : Node) (more : List Node) :
    ∃ text tail, dumpAll depth (n :: more) = Statement.indented depth text :: tail := by
  cases n with
  | leaf l column => exact ⟨_, _, dumpAll_leaf depth l column more⟩
  | address children column => exact ⟨_, _, dumpAll_address depth children column more⟩

/-- The nodes in a block are known from its lines, up to their columns, and so is what stands behind the block. -/
theorem dumpAll_append_inj {depth : Nat} {nodes others : List Node} {rest rest' : List String}
    (h : dumpAll (depth + 1) nodes ++ Statement.indented depth "\x7d" :: rest =
      dumpAll (depth + 1) others ++ Statement.indented depth "\x7d" :: rest') :
    nodes.map unplaced = others.map unplaced ∧ rest = rest' := by
  match nodes, others with
  | [], [] =>
    rw [dumpAll, List.nil_append, List.nil_append] at h
    exact ⟨rfl, (List.cons.inj h).2⟩
  | [], m :: others =>
    obtain ⟨text, tail, hm⟩ := exists_dumpAll_eq_cons (depth + 1) m others
    rw [dumpAll, hm] at h
    exact absurd (List.cons.inj h).1.symm (indented_ne_closing depth text)
  | n :: nodes, [] =>
    obtain ⟨text, tail, hn⟩ := exists_dumpAll_eq_cons (depth + 1) n nodes
    rw [dumpAll, hn] at h
    exact absurd (List.cons.inj h).1 (indented_ne_closing depth text)
  | .leaf l c :: nodes, .leaf k d :: others =>
    rw [dumpAll_leaf, dumpAll_leaf] at h
    obtain ⟨first, behind⟩ := List.cons.inj h
    obtain ⟨same, tail⟩ := dumpAll_append_inj behind
    obtain rfl := Leaf.line_inj (Statement.indented_inj first)
    exact ⟨by rw [List.map_cons, List.map_cons, same, unplaced_leaf, unplaced_leaf], tail⟩
  | .leaf l c :: nodes, .address children d :: others =>
    rw [dumpAll_leaf, dumpAll_address] at h
    exact absurd (Statement.indented_inj (List.cons.inj h).1) (line_ne_opening l)
  | .address children c :: nodes, .leaf k d :: others =>
    rw [dumpAll_leaf, dumpAll_address] at h
    exact absurd (Statement.indented_inj (List.cons.inj h).1).symm (line_ne_opening k)
  | .address children c :: nodes, .address children' d :: others =>
    rw [dumpAll_address, dumpAll_address, List.append_assoc, List.append_assoc] at h
    -- First the block of the two addresses, then what stands behind it in the outer block.
    obtain ⟨inner, behind⟩ := dumpAll_append_inj (List.cons.inj h).2
    obtain ⟨same, tail⟩ := dumpAll_append_inj behind
    exact ⟨by rw [List.map_cons, List.map_cons, same, unplaced_address, unplaced_address, inner], tail⟩
termination_by sizeOf nodes

end Node

namespace Statement

theorem isLine_of_mem_dumpLines (s : Statement) : ∀ line ∈ s.dumpLines, Text.IsLine line := by
  intro line h
  rw [dumpLines, List.cons_append, List.mem_cons, List.mem_append, List.mem_singleton] at h
  rcases h with rfl | h | rfl
  · exact ⟨by decide, by decide⟩
  · exact Node.isLine_of_mem_dumpAll 1 s.nodes line h
  · exact ⟨by decide, by decide⟩

theorem lines_dump (s : Statement) : Text.lines s.dump = s.dumpLines := Text.lines_join s.isLine_of_mem_dumpLines

theorem dumpLines_unplaced (s : Statement) : s.unplaced.dumpLines = s.dumpLines := by
  have nodes : s.unplaced.nodes = Node.mapAllColumns (fun _ => 0) s.nodes := by
    rw [Node.mapAllColumns_eq]
    rfl
  rw [dumpLines, nodes, Node.dumpAll_mapAllColumns, dumpLines]

theorem dump_eq_iff {s t : Statement} : s.dump = t.dump ↔ s.unplaced = t.unplaced := by
  constructor
  · intro h
    have lines : s.dumpLines = t.dumpLines := by rw [← lines_dump, ← lines_dump, h]
    have brace : indented 0 "\x7d" = "\x7d" := rfl
    rw [dumpLines, dumpLines, ← brace] at lines
    obtain ⟨same, -⟩ := Node.dumpAll_append_inj (List.cons.inj lines).2
    obtain ⟨m, column, operands⟩ := s
    obtain ⟨m', column', operands'⟩ := t
    simp only [nodes, root, List.map_cons, Node.unplaced_leaf, List.cons.injEq, Node.leaf.injEq, Leaf.mnemonic.injEq,
      and_true] at same
    rw [unplaced_mk, unplaced_mk, same.1, same.2]
  · intro h
    rw [dump, dump, ← dumpLines_unplaced s, h, dumpLines_unplaced]

theorem nested_dumpLines (s : Statement) : Dump.Nested 0 s.dumpLines :=
  .block rfl rfl rfl rfl rfl rfl (Node.nested_dumpAll 1 s.nodes)

theorem allAddresses_nodes (s : Statement) : Node.allAddresses s.nodes = Node.allAddresses s.operands := by
  rw [nodes, root, Node.allAddresses, Node.addresses, Nat.zero_add]

theorem countP_opens_dumpLines (s : Statement) : s.dumpLines.countP Dump.opens = Node.allAddresses s.operands + 1 := by
  have opening : Dump.opens "(INSTRUCTION) \x7b" = true := rfl
  have closing : Dump.opens "\x7d" = false := rfl
  rw [dumpLines, List.countP_append, List.countP_cons_of_pos opening, Node.countP_opens_dumpAll, List.countP_singleton,
    closing, allAddresses_nodes]
  rfl

/-- A dump shows the whole tree but its columns: two statements have the same dump exactly if they are equal up to their
columns. Each of its lines is indented by four blanks for each block that is open there. The dump is one block, each
address is one block in it at the level of its node, and the lines that close blocks balance those that open them. -/
theorem dump_unambiguous :
    (∀ s t : Statement, s.dump = t.dump ↔ s.unplaced = t.unplaced) ∧
    (∀ s : Statement, Text.lines s.dump = s.dumpLines ∧ Dump.Nested 0 s.dumpLines ∧
      Dump.Block 0 (Node.allAddresses s.operands) s.dumpLines ∧
      s.dumpLines.countP Dump.opens = Node.allAddresses s.operands + 1 ∧
      s.dumpLines.countP Dump.closes = Node.allAddresses s.operands + 1) ∧
    ∀ depth children column,
      Dump.Block depth (Node.allAddresses children) (Node.dump depth (.address children column)) := by
  refine ⟨fun s t => dump_eq_iff, fun s => ?_, fun depth children column => ?_⟩
  · have opened := s.countP_opens_dumpLines
    have closed := s.nested_dumpLines.run.settled
    refine ⟨s.lines_dump, s.nested_dumpLines, ?_, opened, by omega⟩
    rw [← allAddresses_nodes]
    exact @Node.block_dumpAll 0 s.nodes "(INSTRUCTION) \x7b" (by decide) rfl
  · rw [Node.dump]
    exact Node.block_dumpAll depth children (by decide) rfl

end Statement

end Z80Asm
