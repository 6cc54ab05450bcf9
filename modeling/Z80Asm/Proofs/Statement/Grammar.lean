/-
The grammar of statements, as a relation between tokens and the tree that is made of them. Tokens are read as a
statement exactly if the grammar derives it from them (`Statement.ofTokens_eq_ok_iff`).
-/
import Z80Asm.Proofs.Statement.Walk

namespace Z80Asm

/-! ## Derivations -/

/-- The tokens between two parentheses, and the nodes they are read as: a number, the base of an address, or a base, a
sign and a number. -/
inductive Node.Inside : List Token → List Node → Prop
  | absolute (n : Int32) (column : Nat) : Inside [⟨.number n, column⟩] [.leaf (.immediate n) column]
  | based {name : String} {w : Word} (h : Word.base? name = some w) (column : Nat) :
    Inside [⟨.identifier name, column⟩] [.leaf (.word w) column]
  | displaced {name : String} {w : Word} {o : Operator} (h : Word.base? name = some w) (ho : o.isSign = true) (n : Int32)
    (i j k : Nat) : Inside [⟨.identifier name, i⟩, ⟨.operator o, j⟩, ⟨.number n, k⟩]
      [.leaf (.word w) i, .leaf (.operator o) j, .leaf (.immediate n) k]

/-- The tokens of an operand, and the node they are read as. -/
inductive Node.Reads : List Token → Node → Prop
  | word {name : String} {w : Word} (h : Word.operand? name = some w) (column : Nat) :
    Reads [⟨.identifier name, column⟩] (.leaf (.word w) column)
  | number (n : Int32) (column : Nat) : Reads [⟨.number n, column⟩] (.leaf (.immediate n) column)
  | signed {o : Operator} {n value : Int32} (h : o.signed? n = some value) (i j : Nat) :
    Reads [⟨.operator o, i⟩, ⟨.number n, j⟩] (.leaf (.immediate value) i)
  | address {inner : List Token} {children : List Node} (h : Inside inner children) (i j : Nat) :
    Reads (⟨.operator .leftParen, i⟩ :: (inner ++ [⟨.operator .rightParen, j⟩])) (.address children i)

/-- The tokens of one or more operands, with single commas between them. -/
inductive Node.ReadsAll : List Token → List Node → Prop
  | one {tokens : List Token} {node : Node} (h : Reads tokens node) : ReadsAll tokens [node]
  | more {tokens rest : List Token} {node : Node} {nodes : List Node} (h : Reads tokens node) (column : Nat)
    (hr : ReadsAll rest nodes) : ReadsAll (tokens ++ ⟨.operator .comma, column⟩ :: rest) (node :: nodes)

/-- The tokens of a statement: the name of a mnemonic by itself, or with operands. -/
inductive Statement.Reads : List Token → Statement → Prop
  | alone {name : String} {m : Mnemonic} (h : Mnemonic.lookup? name.toUpper = some m) (column : Nat) :
    Reads [⟨.identifier name, column⟩] ⟨m, column, []⟩
  | operands {name : String} {m : Mnemonic} {tokens : List Token} {nodes : List Node}
    (h : Mnemonic.lookup? name.toUpper = some m) (column : Nat) (ho : Node.ReadsAll tokens nodes) :
    Reads (⟨.identifier name, column⟩ :: tokens) ⟨m, column, nodes⟩

/-! ## Results -/

theorem exists_of_bind_eq_ok {ε α β : Type} {x : Except ε α} {f : α → Except ε β} {b : β} (h : x >>= f = .ok b) :
    ∃ a, x = .ok a ∧ f a = .ok b := by
  cases x with
  | error e => cases h
  | ok a => exact ⟨a, rfl, h⟩

theorem exists_of_map_eq_ok {ε α β : Type} {x : Except ε α} {f : α → β} {b : β} (h : x.map f = .ok b) :
    ∃ a, x = .ok a ∧ f a = b := by
  cases x <;> cases h
  exact ⟨_, rfl, rfl⟩

namespace Node

/-! ## Addresses -/

theorem exists_of_base {t : Token} {node : Node} (h : base t = .ok node) :
    ∃ name w, t.kind = .identifier name ∧ Word.base? name = some w ∧ node = .leaf (.word w) t.column := by
  unfold base at h
  split at h
  · rename_i name hk
    split at h <;> cases h
    rename_i w hw
    exact ⟨name, w, hk, hw, rfl⟩
  · cases h

theorem exists_of_sign {t : Token} {node : Node} (h : sign t = .ok node) :
    ∃ o, t.kind = .operator o ∧ o.isSign = true ∧ node = .leaf (.operator o) t.column := by
  unfold sign at h
  split at h
  · rename_i o hk
    split at h <;> cases h
    rename_i ho
    exact ⟨o, hk, ho, rfl⟩
  · cases h

theorem exists_of_magnitude {t : Token} {node : Node} (h : magnitude t = .ok node) :
    ∃ n, t.kind = .number n ∧ node = .leaf (.immediate n) t.column := by
  unfold magnitude at h
  split at h <;> cases h
  rename_i n hk
  exact ⟨n, hk, rfl⟩

theorem inside_of_addressChildren {opening : Nat} {tokens : List Token} {children : List Node}
    (h : addressChildren opening tokens = .ok children) : Inside tokens children := by
  unfold addressChildren at h
  split at h
  · cases h
  · rename_i t
    obtain ⟨kind, column⟩ := t
    split at h
    · rename_i n hk
      cases hk
      cases h
      exact .absolute n column
    · obtain ⟨b, hb, rfl⟩ := exists_of_map_eq_ok h
      obtain ⟨name, w, ⟨⟩, hw, rfl⟩ := exists_of_base hb
      exact .based hw column
  · rename_i t s d
    obtain ⟨b, hb, h⟩ := exists_of_bind_eq_ok h
    obtain ⟨o, ho, h⟩ := exists_of_bind_eq_ok h
    obtain ⟨n, hn, h⟩ := exists_of_bind_eq_ok h
    cases h
    obtain ⟨name, w, hk, hw, rfl⟩ := exists_of_base hb
    obtain ⟨o, ho', sign, rfl⟩ := exists_of_sign ho
    obtain ⟨n, hn', rfl⟩ := exists_of_magnitude hn
    obtain ⟨_, i⟩ := t
    obtain ⟨_, j⟩ := s
    obtain ⟨_, k⟩ := d
    cases hk
    cases ho'
    cases hn'
    exact .displaced hw sign n i j k
  · cases h

theorem addressChildren_of_inside {tokens : List Token} {children : List Node} (h : Inside tokens children) (opening : Nat) :
    addressChildren opening tokens = .ok children := by
  cases h with
  | absolute n column => rfl
  | based hw column => simp [addressChildren, base, hw]; rfl
  | displaced hw ho n i j k => simp [addressChildren, base, hw, sign, ho, magnitude]; rfl

/-- No parenthesis stands in an address. -/
theorem Inside.closes_eq_false {tokens : List Token} {children : List Node} (h : Inside tokens children) :
    ∀ t ∈ tokens, closes t = false := by
  cases h with
  | absolute n column => simp [closes]
  | based hw column => simp [closes]
  | displaced hw ho n i j k =>
    rename_i o
    cases o <;> simp [closes, Operator.isSign] at ho ⊢

/-- A parenthesis reaches to the first one that closes. -/
theorem Inside.takeWhile_closes {inner : List Token} {children : List Node} (h : Inside inner children) (j : Nat)
    (rest : List Token) : (inner ++ ⟨.operator .rightParen, j⟩ :: rest).takeWhile (fun t => !closes t) = inner := by
  rw [List.takeWhile_append_of_pos fun t ht => by rw [h.closes_eq_false t ht]; rfl]
  exact List.append_nil inner

theorem exists_of_closes {rest : List Token} (h : (rest.takeWhile fun t => !closes t).length < rest.length) :
    ∃ j behind, rest = (rest.takeWhile fun t => !closes t) ++ ⟨.operator .rightParen, j⟩ :: behind := by
  have cut := List.takeWhile_append_dropWhile (p := fun t => !closes t) (l := rest)
  have stop := List.head?_dropWhile_not (fun t => !closes t) rest
  cases hd : rest.dropWhile fun t => !closes t with
  | nil =>
    rw [hd, List.append_nil] at cut
    rw [cut] at h
    exact absurd h (Nat.lt_irrefl _)
  | cons t behind =>
    obtain ⟨kind, j⟩ := t
    rw [hd] at stop cut
    obtain rfl : kind = .operator .rightParen := by simpa [closes] using stop
    exact ⟨j, behind, cut.symm⟩

/-! ## Operands -/

theorem lead_of_reads {t : Token} {more : List Token} {node : Node} (h : Reads (t :: more) node) (rest : List Token) :
    lead t (more ++ rest) = .ok (node, more.length) := by
  cases h with
  | word hw column => simp [lead, hw]
  | number n column => rfl
  | signed hs i j =>
    rename_i o n value
    cases o with
    | plus => cases hs; rfl
    | minus => cases hs; rfl
    | _ => cases hs
  | address hi i j =>
    rename_i inner children
    have stop := hi.takeWhile_closes j rest
    have lt : inner.length < (inner ++ ⟨.operator .rightParen, j⟩ :: rest).length := by simp
    simp only [lead, List.append_assoc, List.singleton_append, stop, if_pos lt, addressChildren_of_inside hi]
    simp [Except.map]

theorem reads_of_lead {t : Token} {rest : List Token} {node : Node} {extra : Nat} (h : lead t rest = .ok (node, extra)) :
    ∃ more behind, more ++ behind = rest ∧ more.length = extra ∧ Reads (t :: more) node := by
  obtain ⟨kind, column⟩ := t
  unfold lead at h
  split at h
  · rename_i name hk
    cases hk
    split at h <;> cases h
    rename_i w hw
    exact ⟨[], rest, rfl, rfl, .word hw column⟩
  · rename_i n hk
    cases hk
    cases h
    exact ⟨[], rest, rfl, rfl, .number n column⟩
  · rename_i hk
    cases hk
    simp only at h
    split at h
    · rename_i lt
      obtain ⟨children, hc, he⟩ := exists_of_map_eq_ok h
      cases he
      obtain ⟨j, behind, cut⟩ := exists_of_closes lt
      refine ⟨(rest.takeWhile fun t => !closes t) ++ [⟨.operator .rightParen, j⟩], behind, ?_, ?_,
        .address (inside_of_addressChildren hc) column j⟩
      · rw [List.append_assoc, List.singleton_append, ← cut]
      · rw [List.length_append, List.length_singleton]
    · cases h
  · rename_i o _ hk
    cases hk
    split at h
    · rename_i n j behind
      split at h <;> cases h
      rename_i hs
      exact ⟨[⟨.number n, j⟩], behind, rfl, rfl, .signed hs column j⟩
    · cases h

theorem Reads.exists_cons {tokens : List Token} {node : Node} (h : Reads tokens node) : ∃ t more, tokens = t :: more := by
  cases h <;> exact ⟨_, _, rfl⟩

theorem ReadsAll.ne_nil {tokens : List Token} {nodes : List Node} (h : ReadsAll tokens nodes) : tokens ≠ [] := by
  cases h with
  | one h =>
    obtain ⟨t, more, rfl⟩ := h.exists_cons
    exact List.cons_ne_nil t more
  | more => simp

/-! ## Lists of operands -/

theorem operands_of_readsAll {tokens : List Token} {nodes : List Node} (h : ReadsAll tokens nodes) :
    operands tokens = .ok nodes := by
  induction h with
  | one h =>
    obtain ⟨t, more, rfl⟩ := h.exists_cons
    have first := lead_of_reads h []
    rw [List.append_nil] at first
    simp only [Statement.operands_cons, first, List.drop_length, Statement.follows]
  | more h column hr ih =>
    obtain ⟨t, more, rfl⟩ := h.exists_cons
    have next := List.isEmpty_eq_false_iff.2 hr.ne_nil
    rw [List.cons_append, Statement.operands_cons, lead_of_reads h]
    simp [Statement.follows, next, ih, Except.map, ← List.tail_drop]

theorem readsAll_of_operands {tokens : List Token} {nodes : List Node} (h : operands tokens = .ok nodes) :
    tokens = [] ∧ nodes = [] ∨ ReadsAll tokens nodes := by
  fun_induction operands tokens generalizing nodes with
  | case1 =>
    cases h
    exact .inl ⟨rfl, rfl⟩
  | case2 => cases h
  | case3 t rest node extra hl hd =>
    cases h
    obtain ⟨more, behind, rfl, rfl, first⟩ := reads_of_lead hl
    rw [List.drop_left] at hd
    rw [hd, List.append_nil]
    exact .inr (.one first)
  | case4 => cases h
  | case5 => cases h
  | case6 t rest node extra hl column more hd hne nodes hm ih =>
    cases h
    obtain ⟨tokens, behind, rfl, rfl, first⟩ := reads_of_lead hl
    rw [List.drop_left] at hd
    have others := (ih hm).resolve_left fun none => hne (by rw [none.1]; rfl)
    rw [hd, ← List.cons_append]
    exact .inr (.more first column others)
  | case7 => cases h

end Node

/-! ## Statements -/

namespace Statement

theorem exists_of_mnemonic? {t : Token} {m : Mnemonic} (h : mnemonic? t = some m) :
    ∃ name, t = ⟨.identifier name, t.column⟩ ∧ Mnemonic.lookup? name.toUpper = some m := by
  obtain ⟨kind, column⟩ := t
  cases kind with
  | identifier name => exact ⟨name, rfl, h⟩
  | _ => cases h

/-- Tokens are read as the statement that the grammar derives from them, and as nothing where it derives none. -/
theorem ofTokens_eq_ok_iff {tokens : List Token} {s : Statement} : ofTokens tokens = .ok s ↔ Reads tokens s := by
  constructor
  · intro h
    cases tokens with
    | nil => cases h
    | cons t rest =>
      rw [ofTokens] at h
      split at h
      · cases h
      · rename_i m hm
        obtain ⟨nodes, hn, rfl⟩ := exists_of_map_eq_ok h
        obtain ⟨name, ht, hm⟩ := exists_of_mnemonic? hm
        rw [ht]
        rcases Node.readsAll_of_operands hn with ⟨rfl, rfl⟩ | hr
        · exact .alone hm t.column
        · exact .operands hm t.column hr
  · rintro (⟨hm, column⟩ | ⟨hm, column, hr⟩)
    · simp [ofTokens, mnemonic?, hm, Node.operands, Except.map]
    · simp [ofTokens, mnemonic?, hm, Node.operands_of_readsAll hr, Except.map]

end Statement

end Z80Asm
