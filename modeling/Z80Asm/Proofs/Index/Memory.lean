/-
The byte at `(HL)` and the byte at an index address. Except for jumps, an instruction on the one is an instruction on
the other, under the index prefix and with the displacement inserted behind its first byte; the copies to a register
on the bit page are the only instructions on an index address alone (`Encoder.z80_indexed`).
-/
import Z80Asm.Proofs.Assembler.Congruence

namespace Z80Asm

open Encoding

/-! ## Encodings that can take an index address -/

/-- Whether an index prefix and a displacement can be added to an instruction. -/
structure Encoding.Unprefixed (e : Encoding) : Prop where
  index : e.index = none
  displacement : e.displacement = none
  page : e.page ≠ .extended

namespace Encoding

theorem unprefixed_main (opcode : UInt8) : (main opcode).Unprefixed := ⟨rfl, rfl, nofun⟩

theorem unprefixed_bit (opcode : UInt8) : (bit opcode).Unprefixed := ⟨rfl, rfl, nofun⟩

theorem Unprefixed.withData {e : Encoding} (h : e.Unprefixed) (w : Width) (v : Int32) (operand : Nat) :
    (e.withData w v operand).Unprefixed := ⟨h.index, h.displacement, h.page⟩

/-- On an index address, the prefix comes first, and the displacement behind the byte that was first. -/
theorem Unprefixed.bytes_onMemory {e : Encoding} (h : e.Unprefixed) (p : IndexPair) (d : Int32) (operand : Nat) :
    ∃ b rest, e.bytes = b :: rest ∧
      (e.onMemory (.indexed p d) operand).bytes = p.prefixByte :: b :: Width.lowByte d :: rest := by
  obtain ⟨index, page, opcode, displacement, data⟩ := e
  obtain rfl : index = none := h.index
  obtain rfl : displacement = none := h.displacement
  cases page with
  | extended => exact absurd rfl h.page
  | main => exact ⟨opcode, fieldBytes data, rfl, rfl⟩
  | bit => exact ⟨0xCB, opcode :: fieldBytes data, rfl, rfl⟩

end Encoding

/-! ## Instructions without addresses -/

/-- Whether an operand stands in parentheses. -/
def Operand.isAddress : Operand → Bool
  | .address _ => true
  | _ => false

theorem Branch.Slot.isAddress {x : Operand} {c : Condition} (h : Slot x c) : x.isAddress = false := by cases h <;> rfl

theorem Branch.Absolute.isAddress {always onCondition : UInt8} {xs : List Operand} {e : Encoding}
    (h : Absolute always onCondition xs e) : ∀ x ∈ xs, x.isAddress = false := by
  cases h with
  | always nn => exact List.forall_mem_singleton.2 rfl
  | conditional slot nn => exact List.forall_mem_cons.2 ⟨slot.isAddress, List.forall_mem_singleton.2 rfl⟩

theorem Branch.Relative.isAddress {xs : List Operand} {e : Encoding} (h : Relative xs e) : ∀ x ∈ xs, x.isAddress = false := by
  cases h with
  | always d => exact List.forall_mem_singleton.2 rfl
  | conditional slot flag d => exact List.forall_mem_cons.2 ⟨slot.isAddress, List.forall_mem_singleton.2 rfl⟩

theorem Branch.Return.isAddress {xs : List Operand} {e : Encoding} (h : Return xs e) : ∀ x ∈ xs, x.isAddress = false := by
  cases h with
  | always => exact List.forall_mem_nil _
  | conditional slot => exact List.forall_mem_singleton.2 slot.isAddress

/-- An operand in parentheses is not among operands without any. -/
theorem not_getElem?_address {xs : List Operand} (h : ∀ x ∈ xs, x.isAddress = false) (i : Nat) (a : Address) :
    xs[i]? ≠ some (.address a) := fun hx => Bool.noConfusion (h _ (List.mem_of_getElem? hx))

/-! ## From `(HL)` to an index address -/

section OnIndex

variable {xs : List Operand} {e : Encoding} {i : Nat} (p : IndexPair) (d : Option Int32)

theorem Load.Row.onIndex (h : Row xs e) (hx : xs[i]? = some .hl) :
    Row (xs.set i (.indexed p d)) (e.atIndex p d i) ∧ e.Unprefixed := by
  cases h <;> rcases i with _ | _ | i <;> cases hx
  case fromHL.succ.zero.refl r => exact ⟨.fromIndexed r p d, unprefixed_main _⟩
  case toHL.zero.refl r => exact ⟨.toIndexed p d r, unprefixed_main _⟩
  case numberToHL.zero.refl n => exact ⟨.numberToIndexed p d n, (unprefixed_main _).withData ..⟩
  -- the pointers of the accumulator are other pairs than `HL`
  case fromPointer.succ.zero.refl wide => rcases wide with wide | wide <;> cases wide
  case toPointer.zero.refl wide => rcases wide with wide | wide <;> cases wide

theorem Alu.Source.onIndex {op : Alu} {operand : Nat} (h : Source op operand .hl e) :
    Source op operand (.indexed p d) (e.atIndex p d operand) ∧ e.Unprefixed := by
  cases h
  exact ⟨.indexed p d, unprefixed_main _⟩

theorem Alu.Row.onIndex {op : Alu} (h : Row op xs e) (hx : xs[i]? = some .hl) :
    Row op (xs.set i (.indexed p d)) (e.atIndex p d i) ∧ e.Unprefixed := by
  cases h <;> rcases i with _ | _ | i <;> cases hx
  case short.zero.refl implicit source =>
    obtain ⟨source, plain⟩ := source.onIndex p d
    exact ⟨.short implicit source, plain⟩
  case long.succ.zero.refl source =>
    obtain ⟨source, plain⟩ := source.onIndex p d
    exact ⟨.long source, plain⟩

theorem Step.Row.onIndex {s : Step} (h : Row s xs e) (hx : xs[i]? = some .hl) :
    Row s (xs.set i (.indexed p d)) (e.atIndex p d i) ∧ e.Unprefixed := by
  cases h <;> rcases i with _ | i <;> cases hx
  exact ⟨.indexed p d, unprefixed_main _⟩

theorem BitPage.Target.onIndex {opcode : UInt8} {first : Nat} (h : Target opcode first xs e) (hx : xs[i]? = some .hl) :
    Target opcode first (xs.set i (.indexed p d)) (e.atIndex p d (first + i)) ∧ e.Unprefixed := by
  cases h <;> rcases i with _ | _ | i <;> cases hx
  exact ⟨.indexed p d, unprefixed_bit _⟩

/-- An instruction on `(HL)` that is no jump can be on an index address. -/
theorem Row.onIndex {m : Mnemonic} (h : Row m xs e) (hm : m ≠ .JP) (hx : xs[i]? = some .hl) :
    Row m (xs.set i (.indexed p d)) (e.atIndex p d i) ∧ e.Unprefixed := by
  cases h with
  | load row =>
    obtain ⟨row, plain⟩ := row.onIndex p d hx
    exact ⟨.load row, plain⟩
  | alu op row =>
    obtain ⟨row, plain⟩ := row.onIndex p d hx
    exact ⟨.alu op row, plain⟩
  | step s row =>
    obtain ⟨row, plain⟩ := row.onIndex p d hx
    exact ⟨.step s row, plain⟩
  | rotation r row =>
    obtain ⟨row, plain⟩ := row.onIndex p d hx
    rw [Nat.zero_add] at row
    exact ⟨.rotation r row, plain⟩
  | bit b row =>
    obtain ⟨index, row⟩ := row
    rcases i with _ | i
    · cases hx
    · obtain ⟨row, plain⟩ := row.onIndex p d hx
      rw [Nat.add_comm] at row
      exact ⟨.bit b (.intro index row), plain⟩
  | jump row => exact absurd rfl hm
  | relative row => exact absurd hx (not_getElem?_address row.isAddress i _)
  | call row => exact absurd hx (not_getElem?_address row.isAddress i _)
  | ret row => exact absurd hx (not_getElem?_address row.isAddress i _)
  | implied opcode => cases hx
  -- the stack, the ports and the rest have no operand `(HL)`
  | _ row => cases row <;> rcases i with _ | _ | i <;> cases hx

end OnIndex

/-! ## Copies to a register -/

/-- The operands of an instruction of the bit page that leaves a copy of the byte at an index address in a register. -/
inductive Mnemonic.Copies : Mnemonic → List Operand → Prop
  | rotation (r : Rotation) (p : IndexPair) (d : Option Int32) (s : Register) :
    Copies r.mnemonic [.indexed p d, .register s]
  | bit (b : BitAccess) {n : Int32} (index : n ∈ BitAccess.indices) (p : IndexPair) (d : Option Int32) (s : Register) :
    Copies b.mnemonic [.immediate n, .indexed p d, .register s]

namespace Mnemonic

/-- A copy has an encoding. -/
theorem Copies.exists_row {m : Mnemonic} {xs : List Operand} (h : m.Copies xs) : ∃ e, Row m xs e := by
  cases h with
  | rotation r p d s => exact ⟨_, .rotation r (.copy p d s)⟩
  | bit b index p d s => exact ⟨_, .bit b (.intro index (.copy p d s))⟩

/-- There is no copy of the byte at `(HL)`. -/
theorem Copies.encode_hl {m : Mnemonic} {xs : List Operand} (h : m.Copies xs) {i : Nat} {p : IndexPair} {d : Option Int32}
    (hx : xs[i]? = some (.indexed p d)) : m.encode (xs.set i .hl) = .error .illegalOperands := by
  cases h with
  | rotation r p d s =>
    rcases i with _ | _ | i <;> cases hx
    cases r <;> rfl
  | @bit b n index p d s =>
    rcases i with _ | _ | _ | i <;> cases hx
    have range := BitAccess.mem_indices_iff.1 index
    have rejected : b.encode [.immediate n, .hl, .register s] = .error .illegalOperands := if_pos range
    cases b <;> exact rejected

end Mnemonic

/-! ## From an index address to `(HL)` -/

section OfIndex

variable {ys : List Operand} {f : Encoding} {i : Nat} {p : IndexPair} {d : Option Int32}

theorem Load.Row.ofIndex (h : Row ys f) (hy : ys[i]? = some (.indexed p d)) : ∃ e, Row (ys.set i .hl) e := by
  cases h <;> rcases i with _ | _ | i <;> cases hy
  case fromIndexed.succ.zero.refl r => exact ⟨_, .fromHL r⟩
  case toIndexed.zero.refl r => exact ⟨_, .toHL r⟩
  case numberToIndexed.zero.refl n => exact ⟨_, .numberToHL n⟩

theorem Alu.Row.ofIndex {op : Alu} (h : Row op ys f) (hy : ys[i]? = some (.indexed p d)) : ∃ e, Row op (ys.set i .hl) e := by
  cases h <;> rcases i with _ | _ | i <;> cases hy
  case short.zero.refl implicit source => exact ⟨_, .short implicit .hl⟩
  case long.succ.zero.refl source => exact ⟨_, .long .hl⟩

theorem Step.Row.ofIndex {s : Step} (h : Row s ys f) (hy : ys[i]? = some (.indexed p d)) : ∃ e, Row s (ys.set i .hl) e := by
  cases h <;> rcases i with _ | i <;> cases hy
  exact ⟨_, .hl⟩

theorem BitPage.Target.ofIndex {opcode : UInt8} {first : Nat} (h : Target opcode first ys f)
    (hy : ys[i]? = some (.indexed p d)) :
    (∃ r, ys = [.indexed p d, .register r]) ∨ ∃ e, Target opcode first (ys.set i .hl) e := by
  cases h <;> rcases i with _ | _ | i <;> cases hy
  case indexed.zero.refl => exact .inr ⟨_, .hl⟩
  case copy.zero.refl r => exact .inl ⟨r, rfl⟩

/-- An instruction on an index address that is no jump can be on `(HL)`, unless it is a copy. -/
theorem Row.ofIndex {m : Mnemonic} (h : Row m ys f) (hm : m ≠ .JP) (hy : ys[i]? = some (.indexed p d)) :
    m.Copies ys ∨ ∃ e, Row m (ys.set i .hl) e := by
  cases h with
  | load row =>
    obtain ⟨e, row⟩ := row.ofIndex hy
    exact .inr ⟨e, .load row⟩
  | alu op row =>
    obtain ⟨e, row⟩ := row.ofIndex hy
    exact .inr ⟨e, .alu op row⟩
  | step s row =>
    obtain ⟨e, row⟩ := row.ofIndex hy
    exact .inr ⟨e, .step s row⟩
  | rotation r row =>
    rcases row.ofIndex hy with ⟨s, rfl⟩ | ⟨e, row⟩
    · exact .inl (.rotation r p d s)
    · exact .inr ⟨e, .rotation r row⟩
  | bit b row =>
    obtain ⟨index, row⟩ := row
    rcases i with _ | i
    · cases hy
    · rcases row.ofIndex hy with ⟨s, rfl⟩ | ⟨e, row⟩
      · exact .inl (.bit b index p d s)
      · exact .inr ⟨e, .bit b (.intro index row)⟩
  | jump row => exact absurd rfl hm
  | relative row => exact absurd hy (not_getElem?_address row.isAddress i _)
  | call row => exact absurd hy (not_getElem?_address row.isAddress i _)
  | ret row => exact absurd hy (not_getElem?_address row.isAddress i _)
  | implied opcode => cases hy
  | _ row => cases row <;> rcases i with _ | _ | i <;> cases hy

end OfIndex

/-! ## One address -/

/-- No instruction has two operands in parentheses. -/
theorem Row.countP_isAddress_le {m : Mnemonic} {xs : List Operand} {e : Encoding} (h : Row m xs e) :
    xs.countP Operand.isAddress ≤ 1 := by
  have none {xs : List Operand} (h : ∀ x ∈ xs, x.isAddress = false) : xs.countP Operand.isAddress ≤ 1 := by
    rw [List.countP_eq_zero.2 fun x hx => Bool.eq_false_iff.1 (h x hx)]
    exact Nat.zero_le 1
  cases h with
  | load row => cases row <;> exact Nat.le_of_ble_eq_true rfl
  | alu op row =>
    cases row with
    | short implicit source => cases source <;> exact Nat.le_of_ble_eq_true rfl
    | long source => cases source <;> exact Nat.le_of_ble_eq_true rfl
    | _ => exact Nat.le_of_ble_eq_true rfl
  | step s row => cases row <;> exact Nat.le_of_ble_eq_true rfl
  | rotation r row => cases row <;> exact Nat.le_of_ble_eq_true rfl
  | bit b row =>
    obtain ⟨-, row⟩ := row
    cases row <;> exact Nat.le_of_ble_eq_true rfl
  | jump row =>
    cases row with
    | absolute row => exact none row.isAddress
    | _ => exact Nat.le_of_ble_eq_true rfl
  | relative row => exact none row.isAddress
  | call row => exact none row.isAddress
  | ret row => exact none row.isAddress
  | implied opcode => exact Nat.zero_le 1
  | _ row => cases row <;> exact Nat.le_of_ble_eq_true rfl

/-! ## Nodes -/

/-- Whether a node is an address. -/
def Node.isAddress : Node → Bool
  | .address _ _ => true
  | .leaf _ _ => false

/-- The nodes of an index address with a displacement: the register by itself, which counts as displaced by zero, or with
a sign and a number behind it. -/
inductive Node.AtIndex (p : IndexPair) : Int32 → Node → Prop
  | bare (place column : Nat) : AtIndex p 0 (.address [.leaf (.word (.indexPair p)) place] column)
  | signed {o : Operator} {n d : Int32} (hs : o.signed? n = some d) (i j k column : Nat) :
    AtIndex p d (.address [.leaf (.word (.indexPair p)) i, .leaf (.operator o) j, .leaf (.immediate n) k] column)

/-- The node of `(HL)`. -/
def Node.hl (place column : Nat) : Node := .address [.leaf (.word (.normalPair .HL)) place] column

theorem Node.AtIndex.ofNode {p : IndexPair} {d : Int32} {node : Node} (h : node.AtIndex p d) :
    ∃ w, Operand.ofNode node = .ok (.indexed p w) ∧ w.getD 0 = d := by
  cases h with
  | bare place column => exact ⟨none, rfl, rfl⟩
  | @signed o n d hs i j k column =>
    refine ⟨some d, ?_, rfl⟩
    simp only [Operand.ofNode, Address.ofNodes?, Base.ofLeaf?, hs]

/-- An operand whose base is an index register is such a node. -/
theorem Node.exists_atIndex {p : IndexPair} {place column : Nat} {more : List Node} {x : Operand}
    (h : Operand.ofNode (.address (.leaf (.word (.indexPair p)) place :: more) column) = .ok x) :
    ∃ d, AtIndex p d (.address (.leaf (.word (.indexPair p)) place :: more) column) := by
  rw [Operand.ofNode] at h
  split at h
  case h_2 => cases h
  rename_i a ha
  unfold Address.ofNodes? at ha
  split at ha
  · rename_i hn
    cases hn
    exact ⟨0, .bare place column⟩
  · rename_i b i o j n k hn
    cases hn
    -- the register is no number, so that what stands behind it is a sign and a number
    cases hs : o.signed? n with
    | none => rw [hs] at ha; cases ha
    | some d => exact ⟨d, .signed hs place j k column⟩
  · cases ha

namespace Operand

theorem isAddress_of_ofNode {node : Node} {x : Operand} (h : ofNode node = .ok x) : x.isAddress = node.isAddress := by
  cases node with
  | leaf l column =>
    cases l with
    | word w => cases w <;> cases h <;> rfl
    | immediate n => cases h; rfl
    | _ => cases h
  | address children column =>
    rw [ofNode] at h
    split at h <;> cases h
    rfl

theorem countP_isAddress {nodes : List Node} {xs : List Operand} (h : ofNodes nodes = .ok xs) :
    xs.countP isAddress = nodes.countP Node.isAddress := by
  replace h := ofNodes_eq_ok_iff.1 h
  induction h with
  | nil => rfl
  | cons hx _ ih => rw [List.countP_cons, List.countP_cons, ih, isAddress_of_ofNode hx]

end Operand

theorem Node.AtIndex.getElem?_eq {p : IndexPair} {d : Int32} {node : Node} (h : node.AtIndex p d) {nodes : List Node}
    {xs : List Operand} (hxs : Operand.ofNodes nodes = .ok xs) {i : Nat} (hn : nodes[i]? = some node) :
    ∃ w, xs[i]? = some (.indexed p w) := by
  obtain ⟨w, hw, -⟩ := h.ofNode
  obtain ⟨x, hx, hr⟩ := exists_getElem?_of_forall₂ (Operand.ofNodes_eq_ok_iff.1 hxs) hn
  cases hw.symm.trans hr
  exact ⟨w, hx⟩

/-! ## Statements -/

/-- Whether `(HL)` is the operand of a statement at a place, and its only address, and the statement is no jump. -/
structure Statement.AtHL (s : Statement) (i : Nat) : Prop where
  noJump : s.mnemonic ≠ .JP
  hl : ∃ place column, s.operands[i]? = some (Node.hl place column)
  one : s.operands.countP Node.isAddress = 1

namespace Statement

/-- Whether a statement is a copy to a register. -/
def Copies (s : Statement) : Prop := ∃ xs, Operand.ofNodes s.operands = .ok xs ∧ s.mnemonic.Copies xs

theorem getElem?_replace {s : Statement} {i : Nat} {old : Node} (h : s.operands[i]? = some old) (node : Node) :
    (s.replace i node).operands[i]? = some node := List.getElem?_set_self (List.getElem?_eq_some_iff.1 h).1

theorem replace_replace {s : Statement} {i : Nat} {old : Node} (h : s.operands[i]? = some old) (node : Node) :
    (s.replace i node).replace i old = s := by
  obtain ⟨lt, rfl⟩ := List.getElem?_eq_some_iff.1 h
  simp only [replace, List.set_set, List.set_getElem_self]

variable {s : Statement} {i : Nat} {p : IndexPair} {d : Int32} {node : Node}

theorem AtHL.getElem?_eq (h : s.AtHL i) {xs : List Operand} (hxs : Operand.ofNodes s.operands = .ok xs) : xs[i]? = some .hl := by
  obtain ⟨place, column, hn⟩ := h.hl
  obtain ⟨x, hx, hr⟩ := exists_getElem?_of_forall₂ (Operand.ofNodes_eq_ok_iff.1 hxs) hn
  cases hr
  exact hx

theorem encoding_onIndex (h : s.AtHL i) (hn : node.AtIndex p d) {e : Encoding} (he : s.encoding = .ok e) :
    e.Unprefixed ∧ (s.replace i node).encoding = .ok (e.onMemory (.indexed p d) i) := by
  obtain ⟨xs, hxs, row⟩ := encoding_eq_ok_iff.1 he
  obtain ⟨w, hy, rfl⟩ := hn.ofNode
  obtain ⟨row, plain⟩ := row.onIndex p w h.noJump (h.getElem?_eq hxs)
  exact ⟨plain, encoding_eq_ok_iff.2 ⟨_, Operand.ofNodes_set hxs hy i, row⟩⟩

/-- A statement on an index address that is no jump is a copy, or is encoded with `(HL)` in place of the address. -/
theorem encoding_ofIndex (hm : s.mnemonic ≠ .JP) (hn : s.operands[i]? = some node) (hi : node.AtIndex p d) {f : Encoding}
    (hf : s.encoding = .ok f) : s.Copies ∨ ∀ place column, ∃ e, (s.replace i (Node.hl place column)).encoding = .ok e := by
  obtain ⟨ys, hys, row⟩ := encoding_eq_ok_iff.1 hf
  obtain ⟨w, hy⟩ := hi.getElem?_eq hys hn
  rcases row.ofIndex hm hy with copies | ⟨e, row⟩
  · exact .inl ⟨ys, hys, copies⟩
  · refine .inr fun place column => ⟨e, encoding_eq_ok_iff.2 ⟨_, Operand.ofNodes_set hys rfl i, row⟩⟩

/-- A copy is encoded, and with `(HL)` in place of the address it is not. -/
theorem Copies.encoding (h : s.Copies) (hn : s.operands[i]? = some node) (hi : node.AtIndex p d) :
    (∃ f, s.encoding = .ok f) ∧ ∀ place column, ∃ e, (s.replace i (Node.hl place column)).encoding = .error e := by
  obtain ⟨ys, hys, copies⟩ := h
  obtain ⟨w, hy⟩ := hi.getElem?_eq hys hn
  constructor
  · obtain ⟨f, row⟩ := copies.exists_row
    exact ⟨f, encoding_eq_ok_iff.2 ⟨ys, hys, row⟩⟩
  · intro place column
    have replaced : Operand.ofNodes (s.replace i (Node.hl place column)).operands = .ok (ys.set i .hl) :=
      Operand.ofNodes_set hys rfl i
    exact ⟨_, encoding_of_fault replaced (copies.encode_hl hy)⟩

/-! ## Reports -/

/-- The reports of the operands in front of a place. -/
def reportsBefore (line : Nat) (s : Statement) (xs : List Operand) (i : Nat) : List Diagnostic :=
  ((s.operands.zip xs).take i).filterMap fun (node, x) => x.report? line s.mnemonic xs node.column

/-- The reports of the operands behind a place. -/
def reportsBehind (line : Nat) (s : Statement) (xs : List Operand) (i : Nat) : List Diagnostic :=
  ((s.operands.zip xs).drop (i + 1)).filterMap fun (node, x) => x.report? line s.mnemonic xs node.column

/-- The reports of a displacement at a column: one, if it is outside the range of a signed byte. -/
def displacementReports (line : Nat) (s : Statement) (d : Int32) (column : Nat) : List Diagnostic :=
  if -0x80 ≤ d.toInt ∧ d.toInt ≤ 0x7F then [] else [⟨line, .overflow ⟨s.mnemonic, .s8, d, column⟩⟩]

/-- The widths of fields depend on no address among the operands. -/
theorem width?_set_address {m : Mnemonic} {xs : List Operand} {i : Nat} {a : Address} (hx : xs[i]? = some (.address a))
    (b : Address) : m.width? (xs.set i (.address b)) = m.width? xs := by
  have number : m.numberWidth? (xs.set i (.address b)) = m.numberWidth? xs := by
    cases m with
    | LD =>
      rcases xs with _ | ⟨x, more⟩
      · rfl
      · cases i with
        | zero => cases hx; rfl
        | succ i => cases x <;> rfl
    | _ => rfl
  funext x
  cases x with
  | immediate n => exact number
  | _ => rfl

theorem report?_indexed (hm : s.mnemonic ≠ .JP) (line : Nat) (xs : List Operand) (w : Option Int32) (column : Nat) :
    ((Operand.indexed p w).report? line s.mnemonic xs column).toList = s.displacementReports line (w.getD 0) column := by
  have width : s.mnemonic.width? xs (.indexed p w) = some .s8 := if_neg hm
  have fits : Width.s8.fits (w.getD 0) = true ↔ -0x80 ≤ (w.getD 0).toInt ∧ (w.getD 0).toInt ≤ 0x7F := Width.fits_iff
  have value : (Operand.indexed p w).value = w.getD 0 := rfl
  rw [Operand.report?, width, Option.bind_some, value, displacementReports]
  by_cases h : -0x80 ≤ (w.getD 0).toInt ∧ (w.getD 0).toInt ≤ 0x7F
  · rw [if_pos h, if_pos (fits.2 h)]
    rfl
  · rw [if_neg h, if_neg (mt fits.1 h)]
    rfl

/-- Nothing is reported of `(HL)`, and of an index address in its place its displacement. -/
theorem reports_onIndex (line : Nat) (p : IndexPair) (w : Option Int32) (node : Node) {xs : List Operand}
    (hxs : Operand.ofNodes s.operands = .ok xs) (hx : xs[i]? = some .hl) (hm : s.mnemonic ≠ .JP) :
    s.reports line xs = s.reportsBefore line xs i ++ s.reportsBehind line xs i ∧
    (s.replace i node).reports line (xs.set i (.indexed p w)) = s.reportsBefore line xs i ++
      (s.displacementReports line (w.getD 0) node.column ++ s.reportsBehind line xs i) := by
  obtain ⟨lt, here⟩ := List.getElem?_eq_some_iff.1 hx
  have length := Operand.length_of_ofNodes hxs
  have inside : i < (s.operands.zip xs).length := by
    rw [List.length_zip]
    omega
  have parts := filterMap_set (f := fun (node, x) => Operand.report? line s.mnemonic xs x node.column) inside
  constructor
  · have own := parts (s.operands.zip xs)[i]
    rw [List.set_getElem_self, List.getElem_zip, here] at own
    exact own
  · have own := parts (node, .indexed p w)
    rw [report?_indexed hm line xs w node.column, ← zip_set_set] at own
    rw [reports]
    simp only [Operand.report?, width?_set_address hx]
    exact own

/-- In an encoded statement `(HL)` is the only address. -/
theorem atHL_of_encoding (hm : s.mnemonic ≠ .JP) {place column : Nat} (hn : s.operands[i]? = some (Node.hl place column))
    {e : Encoding} (he : s.encoding = .ok e) : s.AtHL i := by
  obtain ⟨xs, hxs, row⟩ := encoding_eq_ok_iff.1 he
  refine ⟨hm, ⟨place, column, hn⟩, Nat.le_antisymm ?_ ?_⟩
  · rw [← Operand.countP_isAddress hxs]
    exact row.countP_isAddress_le
  · exact List.one_le_countP_iff.2 ⟨_, List.mem_of_getElem? hn, rfl⟩

end Statement

/-! ## The encoder -/

theorem Encoder.exists_z80_iff {line : Nat} {s : Statement} {out : Output} :
    (∃ out', z80 line s out = (.ok (), out')) ↔ ∃ e, s.encoding = .ok e := by
  constructor
  · rintro ⟨out', h⟩
    obtain ⟨e, he, -⟩ := encoding_of_z80 h
    exact ⟨e, he⟩
  · rintro ⟨e, he⟩
    exact ⟨_, z80_of_encoding he⟩

section

variable {line : Nat} {out out' : Output} {s : Statement} {i : Nat} {p : IndexPair} {d : Int32} {node : Node}

theorem Encoder.z80_of_copies (h : s.AtHL i) (hn : node.AtIndex p d) (copies : (s.replace i node).Copies) :
    (∃ e, z80 line s out = (.error e, out.clear)) ∧ ∃ out', z80 line (s.replace i node) out = (.ok (), out') := by
  obtain ⟨place, column, hl⟩ := h.hl
  obtain ⟨⟨f, hf⟩, none⟩ := copies.encoding (Statement.getElem?_replace hl node) hn
  obtain ⟨e, he⟩ := none place column
  rw [Statement.replace_replace hl] at he
  exact ⟨⟨e, z80_of_error he⟩, _, z80_of_encoding hf⟩

theorem Encoder.z80_replace_iff (h : s.AtHL i) (hn : node.AtIndex p d) (other : ¬(s.replace i node).Copies) :
    (∃ out', z80 line (s.replace i node) out = (.ok (), out')) ↔ ∃ out', z80 line s out = (.ok (), out') := by
  rw [exists_z80_iff, exists_z80_iff]
  constructor
  · rintro ⟨f, hf⟩
    obtain ⟨place, column, hl⟩ := h.hl
    rcases Statement.encoding_ofIndex (s := s.replace i node) h.noJump (Statement.getElem?_replace hl node) hn hf with
      copies | encoded
    · exact absurd copies other
    · obtain ⟨e, he⟩ := encoded place column
      rw [Statement.replace_replace hl] at he
      exact ⟨e, he⟩
  · rintro ⟨e, he⟩
    exact ⟨_, (Statement.encoding_onIndex h hn he).2⟩

/-- The bytes and the reports of an encoded statement with an index address in place of `(HL)`. -/
theorem Encoder.z80_onIndex (h : s.AtHL i) (hn : node.AtIndex p d) (hs : z80 line s out = (.ok (), out')) :
    ∃ xs b rest, Operand.ofNodes s.operands = .ok xs ∧
      out' = ⟨b :: rest, out.reports ++ (s.reportsBefore line xs i ++ s.reportsBehind line xs i)⟩ ∧
      z80 line (s.replace i node) out = (.ok (), ⟨p.prefixByte :: b :: Width.lowByte d :: rest,
        out.reports ++ (s.reportsBefore line xs i ++
          (s.displacementReports line d node.column ++ s.reportsBehind line xs i))⟩) := by
  obtain ⟨e, he, rfl⟩ := encoding_of_z80 hs
  obtain ⟨xs, hxs, row⟩ := Statement.encoding_eq_ok_iff.1 he
  obtain ⟨plain, replaced⟩ := Statement.encoding_onIndex h hn he
  obtain ⟨b, rest, bytes, indexed⟩ := plain.bytes_onMemory p d i
  obtain ⟨w, hy, rfl⟩ := hn.ofNode
  have hys : Operand.ofNodes (s.replace i node).operands = .ok (xs.set i (.indexed p w)) := Operand.ofNodes_set hxs hy i
  obtain ⟨reports, reported⟩ := Statement.reports_onIndex line p w node hxs (h.getElem?_eq hxs) h.noJump
  refine ⟨xs, b, rest, hxs, ?_, ?_⟩
  · rw [bytes, Statement.overflows_eq_reports hxs row, reports]
  · rw [z80_of_encoding replaced, indexed, Statement.overflows_eq_reports hys (Statement.row_of_encoding hys replaced),
      reported]

/-- An encoded statement with an index address is a copy to a register, or comes from an encoded one with `(HL)`. -/
theorem Encoder.z80_ofIndex {place column : Nat} {more : List Node} (hm : s.mnemonic ≠ .JP)
    (hn : s.operands[i]? = some (.address (.leaf (.word (.indexPair p)) place :: more) column))
    (hs : z80 line s out = (.ok (), out')) :
    s.Copies ∨ ∃ t d node, Statement.AtHL t i ∧ Node.AtIndex p d node ∧ s = t.replace i node ∧
      ∃ out'', z80 line t out = (.ok (), out'') := by
  obtain ⟨f, hf, -⟩ := encoding_of_z80 hs
  obtain ⟨ys, hys, -⟩ := Statement.encoding_eq_ok_iff.1 hf
  obtain ⟨y, -, hy⟩ := exists_getElem?_of_forall₂ (Operand.ofNodes_eq_ok_iff.1 hys) hn
  obtain ⟨d, hd⟩ := Node.exists_atIndex hy
  rcases Statement.encoding_ofIndex hm hn hd hf with copies | encoded
  · exact .inl copies
  · obtain ⟨e, he⟩ := encoded place column
    have atHL : (s.replace i (Node.hl place column)).AtHL i :=
      Statement.atHL_of_encoding hm (Statement.getElem?_replace hn _) he
    exact .inr ⟨_, d, _, atHL, hd, (Statement.replace_replace hn _).symm, exists_z80_iff.2 ⟨e, he⟩⟩

end

/-- `(HL)` and an index address in its place. The one statement is encoded exactly if the other is, unless it is a copy to
a register, which there is from an index address alone. The index address puts its prefix in front of the bytes and the
lowest byte of its displacement behind the first of them, and adds a report, in the order of the operands, exactly if the
displacement is outside the range of a signed byte. Conversely, a statement with an index address is a copy to a
register or comes from an encoded statement with `(HL)`. -/
theorem Encoder.z80_indexed (line : Nat) (out : Output) :
    (∀ (s : Statement) (i : Nat) (p : IndexPair) (d : Int32) (node : Node), s.AtHL i → node.AtIndex p d →
      ((s.replace i node).Copies → (∃ e, z80 line s out = (.error e, out.clear)) ∧
        ∃ out', z80 line (s.replace i node) out = (.ok (), out')) ∧
      (¬(s.replace i node).Copies → ((∃ out', z80 line (s.replace i node) out = (.ok (), out')) ↔
        ∃ out', z80 line s out = (.ok (), out'))) ∧
      ∀ out', z80 line s out = (.ok (), out') → ∃ xs b rest, Operand.ofNodes s.operands = .ok xs ∧
        out' = ⟨b :: rest, out.reports ++ (s.reportsBefore line xs i ++ s.reportsBehind line xs i)⟩ ∧
        z80 line (s.replace i node) out = (.ok (), ⟨p.prefixByte :: b :: Width.lowByte d :: rest,
          out.reports ++ (s.reportsBefore line xs i ++
            (s.displacementReports line d node.column ++ s.reportsBehind line xs i))⟩)) ∧
    ∀ (t : Statement) (i : Nat) (p : IndexPair) (place column : Nat) (more : List Node) (out' : Output), t.mnemonic ≠ .JP →
      t.operands[i]? = some (.address (.leaf (.word (.indexPair p)) place :: more) column) →
      z80 line t out = (.ok (), out') →
      t.Copies ∨ ∃ s d node, Statement.AtHL s i ∧ Node.AtIndex p d node ∧ t = s.replace i node ∧
        ∃ out'', z80 line s out = (.ok (), out'') := by
  constructor
  · intro s i p d node h hn
    refine ⟨fun copies => ?_, fun other => ?_, fun out' hs => ?_⟩
    · exact z80_of_copies h hn copies
    · exact z80_replace_iff h hn other
    · exact z80_onIndex h hn hs
  · intro t i p place column more out' hm ht hs
    exact z80_ofIndex hm ht hs

/-- `LD (HL),300`. -/
def Statement.loadHL : Statement := ⟨.LD, 0, [Node.hl 4 3, .leaf (.immediate 300) 12]⟩

/-- `LD (IX+200),300` comes from `LD (HL),300`. -/
theorem Encoder.z80_indexed_load :
    (∃ out', z80 1 (Statement.loadHL.replace 0 (Operand.indexed .IX (some 200)).node) .empty = (.ok (), out') ∧
      out'.bytes = [0xDD, 0x36, 0xC8, 0x2C] ∧ out'.reports.map Diagnostic.column = [0, 12]) ∧
    (Statement.overflowing.Copies ∨ ∃ s d node, Statement.AtHL s 0 ∧ Node.AtIndex .IX d node ∧
      Statement.overflowing = s.replace 0 node ∧ ∃ out', z80 1 s .empty = (.ok (), out')) := by
  have atHL : Statement.loadHL.AtHL 0 := ⟨by decide, ⟨4, 3, rfl⟩, rfl⟩
  have atIndex : Node.AtIndex .IX 200 (Operand.indexed .IX (some 200)).node := .signed rfl 0 0 0 0
  refine ⟨?_, (z80_indexed 1 .empty).2 .overflowing 0 .IX 4 3 _ _ (by decide) rfl rfl⟩
  obtain ⟨xs, b, rest, hxs, out, h⟩ := ((z80_indexed 1 .empty).1 .loadHL 0 .IX 200 _ atHL atIndex).2.2 _ rfl
  cases hxs
  have bytes : [0x36, 0x2C] = b :: rest := congrArg Output.bytes out
  cases bytes
  exact ⟨_, h, rfl, rfl⟩

/-- `RLC (HL),B`. -/
def Statement.rotateHL : Statement := ⟨.RLC, 0, [Node.hl 5 4, .leaf (.word (.register .B)) 9]⟩

/-- `RLC (IX+5),B` is encoded, while `RLC (HL),B` is not. -/
theorem Encoder.z80_copy_indexed_alone :
    Statement.rotateHL.AtHL 0 ∧ Node.AtIndex .IX 5 (Operand.indexed .IX (some 5)).node ∧
    ¬((∃ out', z80 1 (Statement.rotateHL.replace 0 (Operand.indexed .IX (some 5)).node) .empty = (.ok (), out')) ↔
      ∃ out', z80 1 Statement.rotateHL .empty = (.ok (), out')) := by
  have atHL : Statement.rotateHL.AtHL 0 := ⟨by decide, ⟨5, 4, rfl⟩, rfl⟩
  refine ⟨atHL, .signed rfl 0 0 0 0, fun iff => ?_⟩
  obtain ⟨out', h⟩ := iff.1 ⟨_, rfl⟩
  cases h

end Z80Asm
