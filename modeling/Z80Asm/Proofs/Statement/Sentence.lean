/-
The sentences of the language: the spelling of a mnemonic, and phrases between commas. Tokens are read as the statement
that they are a sentence for; all others are an error, among them those with a colon, with parentheses inside each other,
and with operands or commas next to each other (`Statement.ofTokens_sentence`).
-/
import Z80Asm.Proofs.Statement.Source
import Mathlib.Data.List.Forall2

namespace Z80Asm

/-! ## Names -/

/-- The upper-case spellings of a mnemonic. -/
def Mnemonic.spellings : Mnemonic → List String
  | .OUTIR => ["OUTIR", "OTIR"]
  | .OUTDR => ["OUTDR", "OTDR"]
  | m => [Vocabulary.name m]

/-- The category of a word. -/
def Word.category : Word → Category
  | .register _ => .register
  | .specialRegister _ => .specialRegister
  | .indexHalf _ => .indexHalf
  | .normalPair _ => .normalPair
  | .specialPair _ => .specialPair
  | .indexPair _ => .indexPair
  | .condition _ => .condition

/-- The word that a name stands for, whatever its letter case, in an order of preference: it has that name, and no category
before its own has a word of that name. -/
structure Word.IsFirst (order : List Category) (name : String) (w : Word) : Prop where
  named : w.name = name.toUpper
  preferred : ∃ before behind, order = before ++ w.category :: behind ∧
    ∀ v : Word, v.name = name.toUpper → v.category ∉ before

/-! ## Sentences -/

/-- The tokens of an operand, and its node. -/
inductive Node.Phrase : List Token → Node → Prop
  | word {name : String} {w : Word}
    (first : w.IsFirst [.register, .normalPair, .specialPair, .condition, .specialRegister, .indexHalf, .indexPair] name)
    (i : Nat) : Phrase [⟨.identifier name, i⟩] (.leaf (.word w) i)
  | number (n : Int32) (i : Nat) : Phrase [⟨.number n, i⟩] (.leaf (.immediate n) i)
  | plus (n : Int32) (i j : Nat) : Phrase [⟨.operator .plus, i⟩, ⟨.number n, j⟩] (.leaf (.immediate n) i)
  | minus (n : Int32) (i j : Nat) : Phrase [⟨.operator .minus, i⟩, ⟨.number n, j⟩] (.leaf (.immediate (-n)) i)
  | absolute (n : Int32) (i j k : Nat) :
    Phrase [⟨.operator .leftParen, i⟩, ⟨.number n, j⟩, ⟨.operator .rightParen, k⟩] (.address [.leaf (.immediate n) j] i)
  | based {name : String} {w : Word} (first : w.IsFirst [.normalPair, .indexPair, .register] name) (i j k : Nat) :
    Phrase [⟨.operator .leftParen, i⟩, ⟨.identifier name, j⟩, ⟨.operator .rightParen, k⟩] (.address [.leaf (.word w) j] i)
  | displaced {name : String} {w : Word} (first : w.IsFirst [.normalPair, .indexPair, .register] name) {o : Operator}
    (sign : o = .plus ∨ o = .minus) (n : Int32) (i j k l m : Nat) :
    Phrase [⟨.operator .leftParen, i⟩, ⟨.identifier name, j⟩, ⟨.operator o, k⟩, ⟨.number n, l⟩, ⟨.operator .rightParen, m⟩]
      (.address [.leaf (.word w) j, .leaf (.operator o) k, .leaf (.immediate n) l] i)

/-- Whether a token is a comma. -/
def Token.isComma (t : Token) : Bool := t.kind == .operator .comma

/-- The tokens of a statement: the spelling of a mnemonic in any letter case, by itself or with the phrases of operands
between single commas. -/
inductive Statement.Sentence : List Token → Statement → Prop
  | alone {name : String} {m : Mnemonic} (spelled : name.toUpper ∈ m.spellings) (i : Nat) :
    Sentence [⟨.identifier name, i⟩] ⟨m, i, []⟩
  | operands {name : String} {m : Mnemonic} (spelled : name.toUpper ∈ m.spellings) (i : Nat) {rest : List Token}
    {nodes : List Node} (phrases : List.Forall₂ Node.Phrase (rest.splitOnP Token.isComma) nodes) :
    Sentence (⟨.identifier name, i⟩ :: rest) ⟨m, i, nodes⟩

/-- Tokens of which one is out of place. -/
inductive Statement.Misplaced : List Token → Prop
  | colon {tokens : List Token} {i : Nat} (h : ⟨.operator .colon, i⟩ ∈ tokens) : Misplaced tokens
  | nested {middle : List Token} (unclosed : ∀ t ∈ middle, t.kind ≠ .operator .rightParen) (front behind : List Token)
    (i j : Nat) : Misplaced (front ++ ⟨.operator .leftParen, i⟩ :: (middle ++ ⟨.operator .leftParen, j⟩ :: behind))
  | comma (t : Token) {rest : List Token} (some : rest ≠ []) (empty : [] ∈ rest.splitOnP Token.isComma) :
    Misplaced (t :: rest)
  | operand (t : Token) {rest phrase more : List Token} {node : Node} (piece : phrase ++ more ∈ rest.splitOnP Token.isComma)
    (h : Node.Phrase phrase node) (some : more ≠ []) : Misplaced (t :: rest)

/-! ## Looking up names -/

theorem Mnemonic.lookup?_eq_some_iff {word : String} {m : Mnemonic} : lookup? word = some m ↔ word ∈ m.spellings := by
  constructor
  · intro h
    unfold lookup? at h
    split at h
    · rename_i hm
      cases h
      rw [← Vocabulary.name_of_find? hm]
      cases m <;> exact List.mem_cons_self
    · split at h
      · subst word
        cases h
        decide
      · split at h <;> cases h
        subst word
        decide
  · intro h
    cases m with
    | OUTIR | OUTDR =>
      rcases List.mem_cons.1 h with rfl | h
      · rfl
      · obtain rfl := List.mem_singleton.1 h
        rfl
    | _ =>
      obtain rfl := List.mem_singleton.1 h
      rfl

theorem Category.word?_eq_some_iff {k : Category} {name : String} {w : Word} :
    k.word? name = some w ↔ w.category = k ∧ w.name = name := by
  constructor
  · intro h
    cases k with
    | mnemonic => cases h
    | _ =>
      obtain ⟨x, hx, rfl⟩ := Option.map_eq_some_iff.1 h
      exact ⟨rfl, Vocabulary.name_of_find? hx⟩
  · rintro ⟨rfl, rfl⟩
    cases w with
    | _ x => cases x <;> rfl

/-- A name is read as the first word in the order of preference. -/
theorem Word.classify?_eq_some_iff {order : List Category} {name : String} {w : Word} :
    classify? name (order.map (⟨·.bit⟩)) = some w ↔ w.IsFirst order name := by
  rw [classify?_bits, List.findSome?_eq_some_iff]
  constructor
  · rintro ⟨before, k, behind, rfl, hk, none⟩
    obtain ⟨rfl, named⟩ := Category.word?_eq_some_iff.1 hk
    refine ⟨named, before, behind, rfl, fun v hv hm => ?_⟩
    have found : v.category.word? name.toUpper = some v := Category.word?_eq_some_iff.2 ⟨rfl, hv⟩
    rw [none _ hm] at found
    cases found
  · rintro ⟨named, before, behind, rfl, none⟩
    refine ⟨before, w.category, behind, rfl, Category.word?_eq_some_iff.2 ⟨rfl, named⟩, fun k hk => ?_⟩
    refine Option.eq_none_iff_forall_ne_some.2 fun v hv => ?_
    obtain ⟨rfl, named⟩ := Category.word?_eq_some_iff.1 hv
    exact none v named hk

/-! ## Phrases -/

namespace Node

theorem reads_iff_phrase {tokens : List Token} {node : Node} : Reads tokens node ↔ Phrase tokens node := by
  constructor
  · intro h
    cases h with
    | word hw i => exact .word (Word.classify?_eq_some_iff.1 hw) i
    | number n i => exact .number n i
    | signed hs i j =>
      rename_i o n value
      cases o with
      | plus => cases hs; exact .plus n i j
      | minus => cases hs; exact .minus n i j
      | _ => cases hs
    | address inside i j =>
      cases inside with
      | absolute n k => exact .absolute n i k j
      | based hw k => exact .based (Word.classify?_eq_some_iff.1 hw) i k j
      | displaced hw ho n k l m =>
        rename_i o
        have sign : o = .plus ∨ o = .minus := by cases o <;> simp [Operator.isSign] at ho ⊢
        exact .displaced (Word.classify?_eq_some_iff.1 hw) sign n i k l m j
  · intro h
    cases h with
    | word first i => exact .word (Word.classify?_eq_some_iff.2 first) i
    | number n i => exact .number n i
    | plus n i j => exact .signed rfl i j
    | minus n i j => exact .signed rfl i j
    | absolute n i j k => exact .address (.absolute n j) i k
    | based first i j k => exact .address (.based (Word.classify?_eq_some_iff.2 first) j) i k
    | @displaced _ _ first o sign n i j k l m =>
      have sign : o.isSign = true := by rcases sign with rfl | rfl <;> rfl
      exact .address (.displaced (Word.classify?_eq_some_iff.2 first) sign n j k l) i m

theorem Phrase.isComma_eq_false {tokens : List Token} {node : Node} (h : Phrase tokens node) :
    ∀ t ∈ tokens, t.isComma = false := by
  cases h with
  | displaced first sign => rcases sign with rfl | rfl <;> simp [Token.isComma]
  | _ => simp [Token.isComma]

theorem Phrase.ne_nil {tokens : List Token} {node : Node} (h : Phrase tokens node) : tokens ≠ [] := by
  cases h <;> exact List.cons_ne_nil _ _

/-- Nothing can be added to a phrase. -/
theorem Phrase.eq_nil_of_append {tokens more : List Token} {node node' : Node} (h : Phrase tokens node)
    (h' : Phrase (tokens ++ more) node') : more = [] := by
  obtain ⟨t, rest, rfl⟩ := List.exists_cons_of_ne_nil h.ne_nil
  rw [List.cons_append] at h'
  have short := lead_of_reads (reads_iff_phrase.2 h) more
  have long := lead_of_reads (reads_iff_phrase.2 h') []
  rw [List.append_nil, short] at long
  obtain ⟨-, empty⟩ : node = node' ∧ more = [] := by simpa using long
  exact empty

/-- Operands between commas are phrases of the pieces into which the commas split the tokens. -/
theorem readsAll_iff_forall₂_phrase {tokens : List Token} {nodes : List Node} :
    ReadsAll tokens nodes ↔ List.Forall₂ Phrase (tokens.splitOnP Token.isComma) nodes := by
  constructor
  · intro h
    induction h with
    | one h =>
      have phrase := reads_iff_phrase.1 h
      rw [List.splitOnP_eq_singleton phrase.isComma_eq_false]
      exact .cons phrase .nil
    | more h i hr ih =>
      have phrase := reads_iff_phrase.1 h
      rw [List.splitOnP_append_cons_of_forall_mem phrase.isComma_eq_false _ rfl]
      exact .cons phrase ih
  · intro h
    -- on the operands: the first of them ends at the first comma
    induction nodes generalizing tokens with
    | nil => exact absurd (List.forall₂_nil_right_iff.1 h) (List.splitOnP_ne_nil _ _)
    | cons node nodes ih =>
      cases hc : tokens.find? Token.isComma with
      | none =>
        have bare : ∀ t ∈ tokens, t.isComma = false := by simpa using List.find?_eq_none.1 hc
        rw [List.splitOnP_eq_singleton bare] at h
        cases h with
        | cons phrase rest =>
          cases rest
          exact .one (reads_iff_phrase.2 phrase)
      | some t =>
        obtain ⟨comma, front, behind, rfl, bare⟩ := List.find?_eq_some_iff_append.1 hc
        rw [List.splitOnP_append_cons_of_forall_mem (by simpa using bare) t comma] at h
        obtain ⟨kind, i⟩ := t
        obtain rfl : kind = .operator .comma := by simpa [Token.isComma] using comma
        cases h with
        | cons phrase rest => exact .more (reads_iff_phrase.2 phrase) i (ih rest)

end Node

/-! ## Misplaced tokens -/

/-- Whether a parenthesis is open behind a token, if one is open before it or not; none, if the token has no place there:
a colon has none anywhere, nor has a parenthesis inside another one. -/
def Token.opens? (inside : Bool) (t : Token) : Option Bool :=
  match t.kind with
  | .operator .leftParen => if inside then none else some true
  | .operator .rightParen => if inside then some false else none
  | .operator .colon => none
  | _ => some inside

/-- A parenthesis stays open until another one closes it. -/
theorem Token.foldlM_opens?_of_unclosed {tokens : List Token} (h : ∀ t ∈ tokens, t.kind ≠ .operator .rightParen)
    {inside : Bool} (run : tokens.foldlM opens? true = some inside) : inside = true := by
  induction tokens with
  | nil => cases run; rfl
  | cons t more ih =>
    obtain ⟨unclosed, others⟩ := List.forall_mem_cons.1 h
    rw [List.foldlM_cons] at run
    obtain ⟨next, step, run⟩ := Option.bind_eq_some_iff.1 run
    obtain rfl : next = true := by
      unfold opens? at step
      split at step
      · cases step
      · rename_i hk
        exact absurd hk unclosed
      · cases step
      · cases step; rfl
    exact ih others run

theorem Node.Phrase.foldlM_opens? {tokens : List Token} {node : Node} (h : Phrase tokens node) :
    tokens.foldlM Token.opens? false = some false := by
  cases h with
  | displaced first sign => rcases sign with rfl | rfl <;> rfl
  | _ => rfl

theorem Node.ReadsAll.foldlM_opens? {tokens : List Token} {nodes : List Node} (h : ReadsAll tokens nodes) :
    tokens.foldlM Token.opens? false = some false := by
  induction h with
  | one h => exact (reads_iff_phrase.1 h).foldlM_opens?
  | more h i hr ih =>
    rw [List.foldlM_append, (reads_iff_phrase.1 h).foldlM_opens?]
    exact ih

namespace Statement

theorem ofTokens_eq_ok_iff_sentence {tokens : List Token} {s : Statement} : ofTokens tokens = .ok s ↔ Sentence tokens s := by
  rw [ofTokens_eq_ok_iff]
  constructor
  · rintro (⟨hm, i⟩ | ⟨hm, i, ho⟩)
    · exact .alone (Mnemonic.lookup?_eq_some_iff.1 hm) i
    · exact .operands (Mnemonic.lookup?_eq_some_iff.1 hm) i (Node.readsAll_iff_forall₂_phrase.1 ho)
  · rintro (⟨spelled, i⟩ | ⟨spelled, i, phrases⟩)
    · exact .alone (Mnemonic.lookup?_eq_some_iff.2 spelled) i
    · exact .operands (Mnemonic.lookup?_eq_some_iff.2 spelled) i (Node.readsAll_iff_forall₂_phrase.2 phrases)

theorem Sentence.foldlM_opens? {tokens : List Token} {s : Statement} (h : Sentence tokens s) :
    tokens.foldlM Token.opens? false = some false := by
  cases h with
  | alone => rfl
  | operands spelled i phrases => exact (Node.readsAll_iff_forall₂_phrase.2 phrases).foldlM_opens?

/-- The pieces between commas are phrases. -/
theorem Sentence.exists_phrase {t : Token} {rest piece : List Token} {s : Statement} (h : Sentence (t :: rest) s)
    (some : rest ≠ []) (hp : piece ∈ rest.splitOnP Token.isComma) : ∃ node, Node.Phrase piece node := by
  cases h with
  | alone => exact absurd rfl some
  | operands spelled i phrases =>
    have both := phrases.imp fun piece node h => (⟨⟨node, h⟩, h⟩ : (∃ node, Node.Phrase piece node) ∧ Node.Phrase piece node)
    exact ((List.forall₂_and_left _ _).1 both).1 piece hp

theorem Misplaced.not_sentence {tokens : List Token} (h : Misplaced tokens) (s : Statement) : ¬Sentence tokens s := by
  intro sentence
  -- a run over the tokens of a sentence goes to their end
  have run := sentence.foldlM_opens?
  cases h with
  | colon h =>
    obtain ⟨front, behind, rfl⟩ := List.append_of_mem h
    rw [List.foldlM_append] at run
    obtain ⟨inside, -, run⟩ := Option.bind_eq_some_iff.1 run
    cases run
  | nested unclosed front behind i j =>
    rw [List.foldlM_append] at run
    obtain ⟨inside, -, run⟩ := Option.bind_eq_some_iff.1 run
    rw [List.foldlM_cons] at run
    obtain ⟨opened, step, run⟩ := Option.bind_eq_some_iff.1 run
    obtain rfl : opened = true := by cases inside <;> cases step; rfl
    rw [List.foldlM_append] at run
    obtain ⟨inner, middle, run⟩ := Option.bind_eq_some_iff.1 run
    obtain rfl := Token.foldlM_opens?_of_unclosed unclosed middle
    cases run
  | comma t some empty =>
    obtain ⟨node, phrase⟩ := sentence.exists_phrase some empty
    exact phrase.ne_nil rfl
  | @operand t rest phrase more node piece h some =>
    have ne : rest ≠ [] := by
      rintro rfl
      rw [List.splitOnP_nil, List.mem_singleton, List.append_eq_nil_iff] at piece
      exact some piece.2
    obtain ⟨node', h'⟩ := sentence.exists_phrase ne piece
    exact some (h.eq_nil_of_append h')

/-- Tokens are read as the statement that they are a sentence for. All other tokens are an error, among them those with a
colon, with a parenthesis inside another one, with no operand beside a comma and with no comma between two operands. -/
theorem ofTokens_sentence (tokens : List Token) :
    (∀ s, ofTokens tokens = .ok s ↔ Sentence tokens s) ∧
    ((∀ s, ¬Sentence tokens s) → ∃ e, ofTokens tokens = .error e) ∧
    (Misplaced tokens → ∃ e, ofTokens tokens = .error e) := by
  have read (s : Statement) : ofTokens tokens = .ok s ↔ Sentence tokens s := ofTokens_eq_ok_iff_sentence
  have failed (none : ∀ s, ¬Sentence tokens s) : ∃ e, ofTokens tokens = .error e := by
    cases h : ofTokens tokens with
    | ok s => exact absurd ((read s).1 h) (none s)
    | error e => exact ⟨e, rfl⟩
  exact ⟨read, failed, fun misplaced => failed misplaced.not_sentence⟩

/-- `ld a,-5` is a sentence, no tokens are none, and in `nop:` the colon is out of place. -/
theorem ofTokens_sentence_load :
    ofTokens [⟨.identifier "ld", 0⟩, ⟨.identifier "a", 3⟩, ⟨.operator .comma, 4⟩, ⟨.operator .minus, 5⟩, ⟨.number 5, 6⟩] =
      .ok ⟨.LD, 0, [.leaf (.word (.register .A)) 3, .leaf (.immediate (-5)) 5]⟩ ∧
    (∃ e, ofTokens [] = .error e) ∧ ∃ e, ofTokens [⟨.identifier "nop", 0⟩, ⟨.operator .colon, 3⟩] = .error e := by
  refine ⟨((ofTokens_sentence _).1 _).2 ?_, (ofTokens_sentence []).2.1 nofun, ?_⟩
  · have first {behind : List Category} : Word.IsFirst (.register :: behind) "a" (.register .A) :=
      ⟨by decide +kernel, [], behind, rfl, nofun⟩
    have spelled : "ld".toUpper = "LD" := by decide +kernel
    exact .operands (List.mem_singleton.2 spelled) 0 (.cons (.word first 3) (.cons (.minus 5 5 6) .nil))
  · exact (ofTokens_sentence _).2.2 (.colon (List.mem_cons_of_mem _ List.mem_cons_self))

end Statement

end Z80Asm
