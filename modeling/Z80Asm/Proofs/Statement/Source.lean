/-
The round trip between statements and their source text. A statement that can be written is read back from every text
that it can be written as, up to its columns, and every statement that is read can be written
(`Statement.ofLine?_writtenAs`).
-/
import Z80Asm.Assembler.Error
import Z80Asm.Proofs.Statement.Columns
import Z80Asm.Proofs.Statement.Shape
import Z80Asm.Proofs.Token.Tiling

namespace Z80Asm

/-! ## Statements that can be written -/

/-- Whether the numbers of a node can be written. The least number has no magnitude that fits, and in parentheses a
number has no sign of its own. -/
def Node.InRange : Node → Prop
  | .leaf (.immediate n) _ => n ≠ Int32.minValue
  | .leaf _ _ => True
  | .address children _ => ∀ n column, .leaf (.immediate n) column ∈ children → 0 ≤ n.toInt

/-- Whether a statement can be written: its operands are words other than the carry condition, numbers, and addresses
of a number, of a base, or of a base displaced by a number, all with numbers in range. -/
def Statement.Writable (s : Statement) : Prop := ∀ node ∈ s.operands, node.IsRead ∧ node.InRange

/-! ## Their tokens -/

/-- The tokens of a leaf. A negative number is a sign and a magnitude. -/
def Leaf.lexemes : Leaf → List TokenKind
  | .mnemonic m => [.identifier (Vocabulary.name m)]
  | .word w => [.identifier w.name]
  | .immediate n => if n.toInt < 0 then [.operator .minus, .number (-n)] else [.number n]
  | .operator o => [.operator o]

mutual

/-- The tokens of a node. -/
def Node.lexemes : Node → List TokenKind
  | .leaf l _ => l.lexemes
  | .address children _ => .operator .leftParen :: (Node.allLexemes children ++ [.operator .rightParen])

/-- The tokens of nodes that stand side by side. -/
def Node.allLexemes : List Node → List TokenKind
  | [] => []
  | n :: more => Node.lexemes n ++ Node.allLexemes more

end

/-- The tokens of operands, with commas between them. -/
def Node.separated : List Node → List TokenKind
  | [] => []
  | [n] => n.lexemes
  | n :: more => n.lexemes ++ .operator .comma :: separated more

/-- The tokens of a statement. -/
def Statement.lexemes (s : Statement) : List TokenKind :=
  .identifier (Vocabulary.name s.mnemonic) :: Node.separated s.operands

/-! ## Their texts -/

/-- A token in upper case. -/
def TokenKind.toUpper : TokenKind → TokenKind
  | .identifier name => .identifier name.toUpper
  | kind => kind

/-- Whether a statement is written as a text: the text has its tokens, with names in any letter case, and numbers in any
base; between the tokens are any blanks, and behind them there can be a comment. -/
def Statement.WrittenAs (s : Statement) (text : String) : Prop :=
  ∃ tokens, Token.Tiles 0 tokens text.toList ∧ tokens.map (·.kind.toUpper) = s.lexemes

/-- What a token is written as: names as they are, and numbers in decimal. -/
def TokenKind.text : TokenKind → List Char
  | .operator o => [o.symbol]
  | .identifier name => name.toList
  | .number n => Nat.toDigits 10 n.toInt.toNat

/-- A statement written in upper case and decimal, with a blank behind each token. -/
def Statement.source (s : Statement) : String := String.ofList (s.lexemes.flatMap fun kind => kind.text ++ [' '])

/-! ## Names -/

theorem Mnemonic.lookup?_name (m : Mnemonic) : lookup? (Vocabulary.name m) = some m := by cases m <;> rfl

theorem Word.operand?_of_name {name : String} {w : Word} (h : name.toUpper = w.name) (hw : w ≠ .condition .C) :
    operand? name = some w := by
  rw [operand?, classify?_bits, h]
  cases w with
  | condition c => cases c <;> first | rfl | exact absurd rfl hw
  | _ x => cases x <;> rfl

theorem Word.base?_of_name {name : String} {w : Word} (h : name.toUpper = w.name) (hw : w.IsBase) : base? name = some w := by
  rw [base?, classify?_bits, h]
  cases hw with
  | _ x => cases x <;> rfl

/-! ## Reading what is written -/

namespace Token

theorem eq_operator {t : Token} {o : Operator} (h : t.kind.toUpper = .operator o) : t = ⟨.operator o, t.column⟩ := by
  obtain ⟨kind, column⟩ := t
  cases kind <;> cases h
  rfl

theorem eq_number {t : Token} {n : Int32} (h : t.kind.toUpper = .number n) : t = ⟨.number n, t.column⟩ := by
  obtain ⟨kind, column⟩ := t
  cases kind <;> cases h
  rfl

theorem exists_identifier {t : Token} {word : String} (h : t.kind.toUpper = .identifier word) :
    ∃ name : String, t = ⟨.identifier name, t.column⟩ ∧ name.toUpper = word := by
  obtain ⟨kind, column⟩ := t
  cases kind <;> cases h
  exact ⟨_, rfl, rfl⟩

end Token

theorem Leaf.lexemes_of_nonneg {n : Int32} (h : 0 ≤ n.toInt) : (immediate n).lexemes = [.number n] := if_neg (by omega)

namespace Node

theorem exists_inside {children : List Node} {column : Nat} (hr : IsRead (.address children column))
    (hi : InRange (.address children column)) {inner : List Token} (h : inner.map (·.kind.toUpper) = allLexemes children) :
    ∃ nodes, Inside inner nodes ∧ nodes.map unplaced = children.map unplaced := by
  cases hr with
  | absolute n place =>
    have nonneg := hi n place List.mem_cons_self
    simp only [allLexemes, lexemes, Leaf.lexemes_of_nonneg nonneg, List.append_nil] at h
    obtain ⟨t, rfl, ht⟩ := List.map_eq_singleton_iff.1 h
    rw [Token.eq_number ht]
    exact ⟨_, .absolute n t.column, by simp⟩
  | based hw place =>
    obtain ⟨t, rfl, ht⟩ := List.map_eq_singleton_iff.1 h
    obtain ⟨name, ht, hn⟩ := Token.exists_identifier ht
    rw [ht]
    exact ⟨_, .based (Word.base?_of_name hn hw) t.column, by simp⟩
  | displaced hw ho d i j k =>
    rename_i w o
    have nonneg := hi d k (by simp)
    simp only [allLexemes, lexemes, Leaf.lexemes_of_nonneg nonneg, List.append_nil] at h
    obtain ⟨t, _, rfl, ht, h⟩ := List.map_eq_cons_iff.1 h
    obtain ⟨s, _, rfl, hs, h⟩ := List.map_eq_cons_iff.1 h
    obtain ⟨n, rfl, hd⟩ := List.map_eq_singleton_iff.1 h
    obtain ⟨name, ht, hn⟩ := Token.exists_identifier ht
    have sign : o.isSign = true := by rcases ho with rfl | rfl <;> rfl
    rw [ht, Token.eq_operator hs, Token.eq_number hd]
    exact ⟨_, .displaced (Word.base?_of_name hn hw) sign d t.column s.column n.column, by simp⟩

/-- An operand is read back from its tokens. -/
theorem exists_reads {node : Node} (hr : node.IsRead) (hi : node.InRange) {tokens : List Token}
    (h : tokens.map (·.kind.toUpper) = node.lexemes) : ∃ node', Reads tokens node' ∧ node'.unplaced = node.unplaced := by
  cases node with
  | leaf l column =>
    cases hr with
    | word hw =>
      obtain ⟨t, rfl, ht⟩ := List.map_eq_singleton_iff.1 h
      obtain ⟨name, ht, hn⟩ := Token.exists_identifier ht
      rw [ht]
      exact ⟨_, .word (Word.operand?_of_name hn hw) t.column, by simp⟩
    | immediate n =>
      by_cases neg : n.toInt < 0
      · simp only [lexemes, Leaf.lexemes, if_pos neg] at h
        obtain ⟨s, _, rfl, hs, h⟩ := List.map_eq_cons_iff.1 h
        obtain ⟨t, rfl, ht⟩ := List.map_eq_singleton_iff.1 h
        have signed : Operator.signed? .minus (-n) = some n := by simp [Operator.signed?]
        rw [Token.eq_operator hs, Token.eq_number ht]
        exact ⟨_, .signed signed s.column t.column, by simp⟩
      · simp only [lexemes, Leaf.lexemes, if_neg neg] at h
        obtain ⟨t, rfl, ht⟩ := List.map_eq_singleton_iff.1 h
        rw [Token.eq_number ht]
        exact ⟨_, .number n t.column, by simp⟩
  | address children column =>
    rw [lexemes] at h
    obtain ⟨t, _, rfl, ht, h⟩ := List.map_eq_cons_iff.1 h
    obtain ⟨inner, _, rfl, hin, h⟩ := List.map_eq_append_iff.1 h
    obtain ⟨s, rfl, hs⟩ := List.map_eq_singleton_iff.1 h
    obtain ⟨nodes, reads, same⟩ := exists_inside hr hi hin
    rw [Token.eq_operator ht, Token.eq_operator hs]
    exact ⟨_, .address reads t.column s.column, by simp [same]⟩

/-- Operands are read back from their tokens. -/
theorem exists_readsAll {nodes : List Node} (h : ∀ node ∈ nodes, node.IsRead ∧ node.InRange) (ne : nodes ≠ [])
    {tokens : List Token} (ht : tokens.map (·.kind.toUpper) = separated nodes) :
    ∃ nodes', ReadsAll tokens nodes' ∧ nodes'.map unplaced = nodes.map unplaced := by
  fun_induction separated nodes generalizing tokens with
  | case1 => exact absurd rfl ne
  | case2 node =>
    obtain ⟨hr, hi⟩ := h node List.mem_cons_self
    obtain ⟨node', reads, same⟩ := exists_reads hr hi ht
    exact ⟨[node'], .one reads, by simp [same]⟩
  | case3 node more some ih =>
    obtain ⟨hr, hi⟩ := h node List.mem_cons_self
    obtain ⟨front, _, rfl, hf, ht⟩ := List.map_eq_append_iff.1 ht
    obtain ⟨t, rest, rfl, hc, ht⟩ := List.map_eq_cons_iff.1 ht
    obtain ⟨node', reads, same⟩ := exists_reads hr hi hf
    obtain ⟨nodes', readsAll, others⟩ := ih (fun n hn => h n (List.mem_cons_of_mem node hn)) some ht
    rw [Token.eq_operator hc]
    exact ⟨node' :: nodes', .more reads t.column readsAll, by simp [same, others]⟩

end Node

namespace Statement

/-- A statement is read back from its tokens. -/
theorem exists_reads_of_lexemes {s : Statement} (h : s.Writable) {tokens : List Token}
    (ht : tokens.map (·.kind.toUpper) = s.lexemes) : ∃ s', Reads tokens s' ∧ s'.unplaced = s.unplaced := by
  obtain ⟨m, column, nodes⟩ := s
  obtain ⟨t, rest, rfl, ht, hr⟩ := List.map_eq_cons_iff.1 ht
  obtain ⟨name, ht, hn⟩ := Token.exists_identifier ht
  have named : Mnemonic.lookup? name.toUpper = some m := by rw [hn, Mnemonic.lookup?_name]
  rw [ht]
  cases nodes with
  | nil =>
    obtain rfl := List.map_eq_nil_iff.1 hr
    exact ⟨_, .alone named t.column, rfl⟩
  | cons node nodes =>
    obtain ⟨nodes', reads, same⟩ := Node.exists_readsAll h (List.cons_ne_nil node nodes) hr
    exact ⟨_, .operands named t.column reads, by rw [unplaced_mk, unplaced_mk, same]⟩

/-- A line is read as the statement that the grammar derives from the tokens of its text. -/
theorem ofLine?_eq_some_iff {text : String} {s : Statement} :
    ofLine? text = .ok (some s) ↔ ∃ tokens, Token.Tiles 0 tokens text.toList ∧ Reads tokens s := by
  constructor
  · intro h
    unfold ofLine? at h
    split at h
    · cases h
    · cases h
    · rename_i t more hs
      split at h <;> cases h
      rename_i ho
      exact ⟨t :: more, Token.scanFrom_eq_ok_iff.1 hs, ofTokens_eq_ok_iff.1 ho⟩
  · rintro ⟨tokens, tiles, reads⟩
    have scan : Token.scan text = .ok tokens := Token.scanFrom_eq_ok_iff.2 tiles
    have tree := ofTokens_eq_ok_iff.2 reads
    cases tokens with
    | nil => cases reads
    | cons t more => simp only [ofLine?, scan, tree]

end Statement

/-! ## Writing -/

/-- Whether a token is in upper case and is written as its text. -/
def TokenKind.IsPlain (kind : TokenKind) : Prop := kind.Spelled kind.text ∧ kind.toUpper = kind

theorem TokenKind.isPlain_operator (o : Operator) : IsPlain (.operator o) := ⟨.operator o, rfl⟩

theorem TokenKind.isPlain_number {n : Int32} (h : 0 ≤ n.toInt) : IsPlain (.number n) :=
  ⟨.number (Numeral.spells_toDigits h), rfl⟩

theorem Token.isName_of_parts {word : List Char} (hs : word.head?.any isWordStart = true) (hw : word.all isWordPart = true) :
    IsName word := by
  cases word with
  | nil => cases hs
  | cons c tail => exact .plain hs fun d hd => List.all_eq_true.1 hw d (List.mem_cons_of_mem c hd)

theorem TokenKind.isPlain_mnemonic (m : Mnemonic) : IsPlain (.identifier (Vocabulary.name m)) := by
  have name : Token.IsName (Vocabulary.name m).toList := Token.isName_of_parts (by cases m <;> rfl) (by cases m <;> rfl)
  have upper : (Vocabulary.name m).toUpper = Vocabulary.name m := Text.toUpper_eq_self (by cases m <;> rfl)
  exact ⟨.identifier name, congrArg _ upper⟩

theorem TokenKind.isPlain_word (w : Word) : IsPlain (.identifier w.name) := by
  have name : Token.IsName w.name.toList := by
    cases w with
    | specialPair p =>
      cases p with
      | AF => exact Token.isName_of_parts rfl rfl
      | AFShadow =>
        have quoted : Token.IsName (['A', 'F'] ++ ['\x27']) := .quoted rfl
        exact quoted
    | _ x => exact Token.isName_of_parts (by cases x <;> rfl) (by cases x <;> rfl)
  have upper : w.name.toUpper = w.name := Text.toUpper_eq_self (by cases w with | _ x => cases x <;> rfl)
  exact ⟨.identifier name, congrArg _ upper⟩

/-- The least number is the only one that negation wraps around. -/
theorem toInt_neg_of_ne {n : Int32} (h : n ≠ Int32.minValue) : (-n).toInt = -n.toInt := by
  have low : n.toInt ≠ -2 ^ 31 := fun least => h (Int32.toInt_inj.1 least)
  have above := n.le_toInt
  have below := n.toInt_lt
  rw [Int32.toInt_neg, Int.bmod_eq_of_le (by omega) (by omega)]

theorem Leaf.isPlain_of_mem_lexemes {l : Leaf} (h : ∀ n, l = .immediate n → n ≠ Int32.minValue) :
    ∀ kind ∈ l.lexemes, kind.IsPlain := by
  cases l with
  | mnemonic m => exact List.forall_mem_singleton.2 (TokenKind.isPlain_mnemonic m)
  | word w => exact List.forall_mem_singleton.2 (TokenKind.isPlain_word w)
  | operator o => exact List.forall_mem_singleton.2 (TokenKind.isPlain_operator o)
  | immediate n =>
    by_cases neg : n.toInt < 0
    · have magnitude : 0 ≤ (-n).toInt := by
        rw [toInt_neg_of_ne (h n rfl)]
        omega
      rw [lexemes, if_pos neg]
      exact List.forall_mem_cons.2
        ⟨TokenKind.isPlain_operator .minus, List.forall_mem_singleton.2 (TokenKind.isPlain_number magnitude)⟩
    · rw [lexemes, if_neg neg]
      exact List.forall_mem_singleton.2 (TokenKind.isPlain_number (by omega))

namespace Node

theorem mem_allLexemes {nodes : List Node} {kind : TokenKind} (h : kind ∈ allLexemes nodes) :
    ∃ node ∈ nodes, kind ∈ node.lexemes := by
  induction nodes with
  | nil => cases h
  | cons node nodes ih =>
    rw [allLexemes] at h
    rcases List.mem_append.1 h with h | h
    · exact ⟨node, List.mem_cons_self, h⟩
    · obtain ⟨other, ho, h⟩ := ih h
      exact ⟨other, List.mem_cons_of_mem node ho, h⟩

theorem mem_separated {nodes : List Node} {kind : TokenKind} (h : kind ∈ separated nodes) :
    kind = .operator .comma ∨ ∃ node ∈ nodes, kind ∈ node.lexemes := by
  fun_induction separated nodes with
  | case1 => cases h
  | case2 node => exact .inr ⟨node, List.mem_cons_self, h⟩
  | case3 node more some ih =>
    rcases List.mem_append.1 h with h | h
    · exact .inr ⟨node, List.mem_cons_self, h⟩
    · rcases List.mem_cons.1 h with rfl | h
      · exact .inl rfl
      · rcases ih h with rfl | ⟨other, ho, h⟩
        · exact .inl rfl
        · exact .inr ⟨other, List.mem_cons_of_mem node ho, h⟩

/-- What stands in the parentheses of an address are leaves. -/
theorem IsRead.exists_leaf {children : List Node} {column : Nat} (h : IsRead (.address children column)) {child : Node}
    (hc : child ∈ children) : ∃ l place, child = .leaf l place := by
  cases h <;> simp only [List.mem_cons, List.not_mem_nil, or_false] at hc
  · exact ⟨_, _, hc⟩
  · exact ⟨_, _, hc⟩
  · rcases hc with rfl | rfl | rfl <;> exact ⟨_, _, rfl⟩

theorem isPlain_of_mem_lexemes {node : Node} (hr : node.IsRead) (hi : node.InRange) : ∀ kind ∈ node.lexemes, kind.IsPlain := by
  cases node with
  | leaf l column =>
    refine Leaf.isPlain_of_mem_lexemes fun n hn => ?_
    rw [hn] at hi
    exact hi
  | address children column =>
    intro kind hk
    rw [lexemes] at hk
    rcases List.mem_cons.1 hk with rfl | hk
    · exact TokenKind.isPlain_operator _
    · rcases List.mem_append.1 hk with hk | hk
      · obtain ⟨child, hc, hk⟩ := mem_allLexemes hk
        obtain ⟨l, place, rfl⟩ := hr.exists_leaf hc
        refine Leaf.isPlain_of_mem_lexemes (fun n hn least => ?_) kind hk
        rw [hn] at hc
        have nonneg := hi n place hc
        rw [least] at nonneg
        exact absurd nonneg (by decide)
      · obtain rfl := List.mem_singleton.1 hk
        exact TokenKind.isPlain_operator _

end Node

namespace Statement

theorem isPlain_of_mem_lexemes {s : Statement} (h : s.Writable) : ∀ kind ∈ s.lexemes, kind.IsPlain := by
  intro kind hk
  rcases List.mem_cons.1 hk with rfl | hk
  · exact TokenKind.isPlain_mnemonic s.mnemonic
  · rcases Node.mem_separated hk with rfl | ⟨node, hn, hk⟩
    · exact TokenKind.isPlain_operator _
    · exact Node.isPlain_of_mem_lexemes (h node hn).1 (h node hn).2 kind hk

/-- Tokens may be written in any of their spellings, with any blanks between them. -/
theorem writtenAs_of_spaced {s : Statement} {kinds : List TokenKind} {text : String}
    (hk : kinds.map TokenKind.toUpper = s.lexemes) (h : Token.Spaced kinds text.toList) : s.WrittenAs text := by
  obtain ⟨tokens, tiles, rfl⟩ := h.exists_tiles 0
  exact ⟨tokens, tiles, by rw [← hk, List.map_map]; rfl⟩

theorem spaced_text {kinds : List TokenKind} (h : ∀ kind ∈ kinds, kind.Spelled kind.text) :
    Token.Spaced kinds (kinds.flatMap fun kind => kind.text ++ [' ']) := by
  induction kinds with
  | nil => exact .nothing
  | cons kind kinds ih =>
    have blank : ∀ c ∈ [' '], Token.isBlank c = true := List.forall_mem_singleton.2 rfl
    rw [List.flatMap_cons, List.append_assoc]
    exact .token (h kind List.mem_cons_self) blank (.inl (List.cons_ne_nil _ _))
      (ih fun k hk => h k (List.mem_cons_of_mem kind hk))

/-- A statement in upper case and decimal is one of the texts it can be written as. -/
theorem writtenAs_source {s : Statement} (h : s.Writable) : s.WrittenAs s.source := by
  have plain := isPlain_of_mem_lexemes h
  have upper : s.lexemes.map TokenKind.toUpper = s.lexemes :=
    (List.map_congr_left fun kind hk => (plain kind hk).2).trans (List.map_id s.lexemes)
  refine writtenAs_of_spaced upper ?_
  rw [source, String.toList_ofList]
  exact spaced_text fun kind hk => (plain kind hk).1

end Statement

/-! ## What is read can be written -/

namespace Node

theorem Inside.inRange {tokens : List Token} {children : List Node} (h : Inside tokens children)
    (hn : ∀ n column, ⟨.number n, column⟩ ∈ tokens → 0 ≤ n.toInt) (column : Nat) : InRange (.address children column) := by
  intro n place hc
  cases h with
  | absolute d i =>
    simp only [List.mem_singleton, leaf.injEq, Leaf.immediate.injEq] at hc
    rw [hc.1]
    exact hn d i List.mem_cons_self
  | based hw i => simp at hc
  | displaced hw ho d i j k =>
    have same : n = d ∧ place = k := by simpa using hc
    rw [same.1]
    exact hn d k (by simp)

theorem Reads.inRange {tokens : List Token} {node : Node} (h : Reads tokens node)
    (hn : ∀ n column, ⟨.number n, column⟩ ∈ tokens → 0 ≤ n.toInt) : node.InRange := by
  cases h with
  | word hw column => trivial
  | number n column =>
    rintro rfl
    exact absurd (hn _ column List.mem_cons_self) (by decide)
  | signed hs i j =>
    rename_i o n value
    have nonneg := hn n j (by simp)
    have magnitude : n ≠ Int32.minValue := by
      rintro rfl
      exact absurd nonneg (by decide)
    cases o with
    | plus => cases hs; exact magnitude
    | minus =>
      cases hs
      intro least
      have value := toInt_neg_of_ne magnitude
      rw [least] at value
      have low : Int32.minValue.toInt = -2 ^ 31 := rfl
      have := n.toInt_lt
      omega
    | _ => cases hs
  | address hi i j =>
    exact hi.inRange (fun n column ht => hn n column (List.mem_cons_of_mem _ (List.mem_append_left _ ht))) i

end Node

theorem Statement.writable_of_reads {tokens : List Token} {s : Statement} (h : Reads tokens s)
    (hn : ∀ n column, ⟨.number n, column⟩ ∈ tokens → 0 ≤ n.toInt) : s.Writable := by
  intro node hm
  obtain ⟨part, sub, reads⟩ := h.exists_reads hm
  exact ⟨reads.isRead, reads.inRange fun n column ht => hn n column (sub ht)⟩

/-! ## The round trip -/

/-- A statement that can be written is written as its source, and as every text with its tokens in any letter case and
base, blanks between them and maybe a comment in the end. From every text that it is written as it is read back, up to
its columns. A statement that is read from a line can be written. -/
theorem Statement.ofLine?_writtenAs :
    (∀ s : Statement, s.Writable →
      s.WrittenAs s.source ∧
      (∀ kinds text, kinds.map TokenKind.toUpper = s.lexemes → Token.Spaced kinds text.toList → s.WrittenAs text) ∧
      ∀ text, s.WrittenAs text → ∃ s', ofLine? text = .ok (some s') ∧ s'.unplaced = s.unplaced) ∧
    ∀ text s, ofLine? text = .ok (some s) → s.Writable := by
  constructor
  · intro s h
    refine ⟨writtenAs_source h, fun kinds text => writtenAs_of_spaced, ?_⟩
    rintro text ⟨tokens, tiles, ht⟩
    obtain ⟨s', reads, same⟩ := exists_reads_of_lexemes h ht
    exact ⟨s', ofLine?_eq_some_iff.2 ⟨tokens, tiles, reads⟩, same⟩
  · intro text s h
    obtain ⟨tokens, tiles, reads⟩ := ofLine?_eq_some_iff.1 h
    exact writable_of_reads reads fun n column hn => tiles.nonneg hn

/-- `LD (IX-31),-128`, as a tree. -/
def Statement.storeIndexed : Statement :=
  ⟨.LD, 0, [.address [.leaf (.word (.indexPair .IX)) 0, .leaf (.operator .minus) 0, .leaf (.immediate 31) 0] 0,
    .leaf (.immediate (-128)) 0]⟩

/-- Its letters may be small, and its numbers in other bases. -/
theorem Statement.ofLine?_writtenAs_mixed :
    storeIndexed.Writable ∧ storeIndexed.WrittenAs "\tld (iX -0x1F), - 0o200;fill" ∧
      ∃ s, ofLine? "\tld (iX -0x1F), - 0o200;fill" = .ok (some s) ∧ s.unplaced = storeIndexed.unplaced ∧ s.Writable := by
  have number : (-128 : Int32) ≠ Int32.minValue := by decide
  have writable : storeIndexed.Writable := by
    refine List.forall_mem_cons.2 ⟨⟨.displaced (.indexPair .IX) (.inr rfl) 31 0 0 0 0, ?_⟩,
      List.forall_mem_singleton.2 ⟨.immediate (-128) 0, number⟩⟩
    intro n column hc
    have same : n = 31 ∧ column = 0 := by simpa using hc
    rw [same.1]
    decide
  have read : (Token.scan "\tld (iX -0x1F), - 0o200;fill").toOption.map (·.map (·.kind.toUpper)) =
      some storeIndexed.lexemes := by decide +kernel
  have written : storeIndexed.WrittenAs "\tld (iX -0x1F), - 0o200;fill" := by
    cases h : Token.scan "\tld (iX -0x1F), - 0o200;fill" with
    | error e => rw [h] at read; cases read
    | ok tokens =>
      rw [h] at read
      exact ⟨tokens, Token.scanFrom_eq_ok_iff.1 h, Option.some.inj read⟩
  obtain ⟨s, hs, same⟩ := (ofLine?_writtenAs.1 storeIndexed writable).2.2 _ written
  exact ⟨writable, written, s, hs, same, ofLine?_writtenAs.2 _ s hs⟩

end Z80Asm
