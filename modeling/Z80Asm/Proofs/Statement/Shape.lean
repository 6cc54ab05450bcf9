/-
The shape of a statement that is read from tokens (`Statement.isRead_of_ofTokens`). Its operands are words, numbers
and addresses of a few shapes, all of which are operands of an instruction (`Node.IsRead.exists_operand`).
-/
import Z80Asm.Operand.Basic
import Z80Asm.Proofs.Statement.Grammar

namespace Z80Asm

/-! ## Shapes -/

/-- The words that can be the base of an address. -/
inductive Word.IsBase : Word → Prop
  | register (r : Register) : IsBase (.register r)
  | normalPair (p : NormalPair) : IsBase (.normalPair p)
  | indexPair (p : IndexPair) : IsBase (.indexPair p)

/-- The nodes that reading makes of operands. The carry condition is not among the words, since its word is read as
the register of that name. -/
inductive Node.IsRead : Node → Prop
  | word {w : Word} (h : w ≠ .condition .C) (column : Nat) : IsRead (.leaf (.word w) column)
  | immediate (n : Int32) (column : Nat) : IsRead (.leaf (.immediate n) column)
  | absolute (n : Int32) (inner column : Nat) : IsRead (.address [.leaf (.immediate n) inner] column)
  | based {w : Word} (h : w.IsBase) (inner column : Nat) : IsRead (.address [.leaf (.word w) inner] column)
  | displaced {w : Word} {o : Operator} (h : w.IsBase) (ho : o = .plus ∨ o = .minus) (d : Int32) (i j k column : Nat) :
    IsRead (.address [.leaf (.word w) i, .leaf (.operator o) j, .leaf (.immediate d) k] column)

/-! ## Words -/

namespace Word

theorem only?_bit (k : Category) : (⟨k.bit⟩ : CategorySet).only? = some k := by cases k <;> rfl

theorem classify?_bits (word : String) (order : List Category) :
    classify? word (order.map (⟨·.bit⟩)) = order.findSome? (·.word? word.toUpper) := by
  rw [classify?, List.findSome?_map]
  congr 1
  funext k
  exact congrArg (Option.bind · _) (only?_bit k)

/-- A word that names the carry condition names the register before it. -/
theorem operand?_ne_carry {word : String} {w : Word} (h : operand? word = some w) : w ≠ .condition .C := by
  rintro rfl
  rw [operand?, classify?_bits] at h
  obtain ⟨k, -, hk⟩ := List.exists_of_findSome?_eq_some h
  have spelled : word.toUpper = "C" := by
    cases k with
    | condition =>
      obtain ⟨c, hc, hw⟩ := Option.map_eq_some_iff.1 hk
      cases hw
      exact (Vocabulary.name_of_find? hc).symm
    | mnemonic => cases hk
    | _ =>
      obtain ⟨x, -, hw⟩ := Option.map_eq_some_iff.1 hk
      cases hw
  rw [spelled] at h
  cases h

theorem isBase_of_base? {word : String} {w : Word} (h : base? word = some w) : w.IsBase := by
  rw [base?, classify?_bits] at h
  obtain ⟨k, hk, h⟩ := List.exists_of_findSome?_eq_some h
  simp only [baseOrder, List.mem_cons, List.not_mem_nil, or_false] at hk
  rcases hk with rfl | rfl | rfl
  · obtain ⟨p, -, rfl⟩ := Option.map_eq_some_iff.1 h
    exact .normalPair p
  · obtain ⟨p, -, rfl⟩ := Option.map_eq_some_iff.1 h
    exact .indexPair p
  · obtain ⟨r, -, rfl⟩ := Option.map_eq_some_iff.1 h
    exact .register r

end Word

/-! ## Reading -/

theorem Node.Inside.isRead {tokens : List Token} {children : List Node} (h : Inside tokens children) (column : Nat) :
    IsRead (.address children column) := by
  cases h with
  | absolute n inner => exact .absolute n inner column
  | based hw inner => exact .based (Word.isBase_of_base? hw) inner column
  | displaced hw ho d i j k =>
    rename_i o
    have sign : o = .plus ∨ o = .minus := by cases o <;> simp [Operator.isSign] at ho ⊢
    exact .displaced (Word.isBase_of_base? hw) sign d i j k column

theorem Node.Reads.isRead {tokens : List Token} {node : Node} (h : Reads tokens node) : node.IsRead := by
  cases h with
  | word hw column => exact .word (Word.operand?_ne_carry hw) column
  | number n column => exact .immediate n column
  | signed hs i j => exact .immediate _ i
  | address hi i j => exact hi.isRead i

/-- Each operand is read from tokens of its own. -/
theorem Node.ReadsAll.exists_reads {tokens : List Token} {nodes : List Node} (h : ReadsAll tokens nodes) {node : Node}
    (hn : node ∈ nodes) : ∃ part, part ⊆ tokens ∧ Reads part node := by
  induction h with
  | one h =>
    obtain rfl := List.mem_singleton.1 hn
    exact ⟨_, List.Subset.refl _, h⟩
  | more h column hr ih =>
    rcases List.mem_cons.1 hn with rfl | hn
    · exact ⟨_, List.subset_append_left .., h⟩
    · obtain ⟨part, sub, reads⟩ := ih hn
      exact ⟨part, fun t ht => List.mem_append_right _ (List.mem_cons_of_mem _ (sub ht)), reads⟩

theorem Statement.Reads.exists_reads {tokens : List Token} {s : Statement} (h : Reads tokens s) {node : Node}
    (hn : node ∈ s.operands) : ∃ part, part ⊆ tokens ∧ Node.Reads part node := by
  cases h with
  | alone => cases hn
  | operands hm column hr =>
    obtain ⟨part, sub, reads⟩ := hr.exists_reads hn
    exact ⟨part, List.subset_cons_of_subset _ sub, reads⟩

theorem Statement.isRead_of_ofTokens {tokens : List Token} {s : Statement} (h : ofTokens tokens = .ok s) :
    ∀ node ∈ s.operands, node.IsRead := by
  intro node hn
  obtain ⟨part, -, reads⟩ := (ofTokens_eq_ok_iff.1 h).exists_reads hn
  exact reads.isRead

/-! ## Operands of an instruction -/

/-- The nodes of an address that was read fold to an address. -/
theorem Node.IsRead.exists_address {children : List Node} {column : Nat} (h : IsRead (.address children column)) :
    ∃ a, Address.ofNodes? children = some a := by
  cases h with
  | absolute n inner => exact ⟨⟨.immediate n, none⟩, rfl⟩
  | based hw inner => cases hw <;> exact ⟨_, rfl⟩
  | displaced hw ho d => rcases ho with rfl | rfl <;> cases hw <;> exact ⟨_, rfl⟩

/-- A node that was read is an operand. -/
theorem Node.IsRead.exists_operand {node : Node} (h : node.IsRead) : ∃ x, Operand.ofNode node = .ok x := by
  cases node with
  | leaf l column =>
    cases h with
    | word hw => exact ⟨_, rfl⟩
    | immediate n => exact ⟨_, rfl⟩
  | address children column =>
    obtain ⟨a, ha⟩ := h.exists_address
    exact ⟨.address a, by rw [Operand.ofNode, ha]⟩

theorem Operand.exists_ofNodes {nodes : List Node} (h : ∀ node ∈ nodes, node.IsRead) : ∃ xs, ofNodes nodes = .ok xs := by
  induction nodes with
  | nil => exact ⟨[], rfl⟩
  | cons node nodes ih =>
    obtain ⟨x, hx⟩ := (h node List.mem_cons_self).exists_operand
    obtain ⟨xs, hxs⟩ := ih fun n hn => h n (List.mem_cons_of_mem node hn)
    refine ⟨x :: xs, ?_⟩
    simp only [ofNodes, hx, hxs]

end Z80Asm
