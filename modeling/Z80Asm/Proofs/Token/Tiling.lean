/-
The tokens of a text, as a tiling of it by words, numerals, symbols, blanks and a comment. A text is read as some tokens
exactly if they tile it (`Token.scanFrom_eq_ok_iff`).
-/
import Z80Asm.Proofs.Token.Numeral

namespace Z80Asm

/-! ## Spellings -/

/-- The words: a letter or an underscore and then letters, digits and underscores, or `AF` with a quote. -/
inductive Token.IsName : List Char → Prop
  | plain {c : Char} {tail : List Char} (hc : isWordStart c = true) (ht : ∀ d ∈ tail, isWordPart d = true) : IsName (c :: tail)
  | quoted {word : List Char} (h : isAF word = true) : IsName (word ++ ['\x27'])

/-- What a token is written as. -/
inductive TokenKind.Spelled : TokenKind → List Char → Prop
  | operator (o : Operator) : Spelled (.operator o) [o.symbol]
  | identifier {name : String} (h : Token.IsName name.toList) : Spelled (.identifier name) name.toList
  | number {n : Int32} {text : List Char} (h : Numeral.Spells text n) : Spelled (.number n) text

namespace Token

/-- Whether a word and what stands behind it are apart: no character that goes on a word follows another. -/
def Apart (word text : List Char) : Prop :=
  ∀ c ∈ word.getLast?, ∀ d ∈ text.head?, isWordPart c = true → isWordPart d = false

/-- Tokens tile a text that begins at a byte column. Between them are blanks, which only tokens that would run into each
other need, and behind the last one there can be a comment. -/
inductive Tiles : Nat → List Token → List Char → Prop
  | nothing (column : Nat) : Tiles column [] []
  | comment (column : Nat) (text : List Char) : Tiles column [] (';' :: text)
  | blank {column : Nat} {tokens : List Token} {c : Char} {text : List Char} (hc : isBlank c = true)
    (h : Tiles (column + 1) tokens text) : Tiles column tokens (c :: text)
  | token {column : Nat} {tokens : List Token} {kind : TokenKind} {word text : List Char} (hw : kind.Spelled word)
    (ha : Apart word text) (h : Tiles (column + word.length) tokens text) :
    Tiles column (⟨kind, column⟩ :: tokens) (word ++ text)

/-- Spellings with blanks behind each, which only the last one can do without, and maybe a comment in the end. -/
inductive Spaced : List TokenKind → List Char → Prop
  | nothing : Spaced [] []
  | comment (text : List Char) : Spaced [] (';' :: text)
  | token {kind : TokenKind} {kinds : List TokenKind} {word blanks text : List Char} (hw : kind.Spelled word)
    (hb : ∀ c ∈ blanks, isBlank c = true) (ne : blanks ≠ [] ∨ kinds = []) (h : Spaced kinds text) :
    Spaced (kind :: kinds) (word ++ (blanks ++ text))

/-! ## Characters -/

theorem isDigit_of_isWordStart {c : Char} (h : isWordStart c = true) : c.isDigit = false := by
  rw [isWordStart, Bool.or_eq_true] at h
  rw [Bool.eq_false_iff]
  intro hd
  have digit := Text.isDigit_iff.1 hd
  rcases h with h | h
  · have letter := Text.isAlpha_iff.1 h
    omega
  · obtain rfl := eq_of_beq h
    cases hd

theorem isWordStart_symbol (o : Operator) : isWordStart o.symbol = false ∧ o.symbol.isDigit = false := by
  cases o <;> exact ⟨rfl, rfl⟩

theorem isWordPart_of_isBlank {c : Char} (h : isBlank c = true) : isWordPart c = false := by
  simp only [isBlank, Bool.or_eq_true, beq_iff_eq] at h
  rcases h with (((rfl | rfl) | rfl) | rfl) | rfl <;> rfl

theorem exists_of_isAF {word : List Char} (h : isAF word = true) :
    ∃ a f, word = [a, f] ∧ isWordStart a = true ∧ isWordPart f = true := by
  have spelled : word.map Char.toUpper = ['A', 'F'] := eq_of_beq h
  obtain ⟨a, tail, rfl, ha, ht⟩ := List.map_eq_cons_iff.1 spelled
  obtain ⟨f, tail, rfl, hf, ht⟩ := List.map_eq_cons_iff.1 ht
  obtain rfl := List.map_eq_nil_iff.1 ht
  have alpha : a.isAlpha = true := Text.isAlpha_of_toUpper (by rw [ha]; rfl)
  have alpha' : f.isAlpha = true := Text.isAlpha_of_toUpper (by rw [hf]; rfl)
  exact ⟨a, f, rfl, by simp [isWordStart, alpha], by simp [isWordPart, Char.isAlphanum, alpha']⟩

/-- What is written begins with a symbol or with a character of words. -/
theorem exists_cons_of_spelled {kind : TokenKind} {word : List Char} (h : kind.Spelled word) :
    ∃ c tail, word = c :: tail ∧ ((∃ o : Operator, o.symbol = c) ∨ isWordPart c = true) := by
  cases h with
  | operator o => exact ⟨o.symbol, [], rfl, .inl ⟨o, rfl⟩⟩
  | identifier h =>
    generalize hw : String.toList _ = word at h
    cases h with
    | plain hc => exact ⟨_, _, rfl, .inr (isWordPart_of_isWordStart hc)⟩
    | quoted h =>
      obtain ⟨a, f, rfl, ha, -⟩ := exists_of_isAF h
      exact ⟨a, _, rfl, .inr (isWordPart_of_isWordStart ha)⟩
  | number h =>
    obtain ⟨c, tail, rfl, hc, -⟩ := h.exists_cons
    exact ⟨c, tail, rfl, .inr (isWordPart_of_isDigit hc)⟩

/-- No token begins with a blank, a semicolon or a quote. -/
theorem ne_of_spelled {kind : TokenKind} {c : Char} {tail : List Char} (h : kind.Spelled (c :: tail)) :
    isBlank c = false ∧ c ≠ ';' ∧ c ≠ '\x27' := by
  obtain ⟨_, _, ⟨⟩, ⟨o, rfl⟩ | hc⟩ := exists_cons_of_spelled h
  · cases o <;> exact ⟨rfl, by decide, by decide⟩
  · refine ⟨Bool.eq_false_iff.2 fun hb => ?_, ?_, ?_⟩
    · rw [isWordPart_of_isBlank hb] at hc
      cases hc
    · rintro rfl
      cases hc
    · rintro rfl
      cases hc

/-- A text that is tiled does not begin with a quote. -/
theorem Tiles.head?_ne {column : Nat} {tokens : List Token} {text : List Char} (h : Tiles column tokens text) :
    text.head? ≠ some '\x27' := by
  cases h with
  | nothing => exact nofun
  | comment => exact nofun
  | blank hc =>
    rintro ⟨⟩
    cases hc
  | token hw ha h =>
    obtain ⟨c, tail, rfl, -⟩ := exists_cons_of_spelled hw
    rintro ⟨⟩
    exact (ne_of_spelled hw).2.2 rfl

/-! ## From spellings to tokens -/

/-- A run of characters that go on a word ends where it is set apart. -/
theorem takeWhile_of_apart {c : Char} {tail text : List Char} (hw : ∀ d ∈ c :: tail, isWordPart d = true)
    (ha : Apart (c :: tail) text) : (tail ++ text).takeWhile isWordPart = tail := by
  rw [List.takeWhile_append_of_pos fun d hd => hw d (List.mem_cons_of_mem c hd)]
  cases text with
  | nil => simp
  | cons d text =>
    have last := List.getLast?_eq_some_getLast (List.cons_ne_nil c tail)
    have hd := ha _ last d rfl (hw _ (List.getLast_mem _))
    rw [List.takeWhile_cons_of_neg (by simp [hd]), List.append_nil]

/-- A word is read as far as it goes. -/
theorem wordTail_of_isName {c : Char} {tail text : List Char} (h : IsName (c :: tail)) (ha : Apart (c :: tail) text)
    (hq : isAF (c :: tail) = true → text.head? ≠ some '\x27') : isWordStart c = true ∧ wordTail c (tail ++ text) = tail := by
  generalize hw : c :: tail = word at h
  cases h with
  | plain hc ht =>
    cases hw
    have run := takeWhile_of_apart (List.forall_mem_cons.2 ⟨isWordPart_of_isWordStart hc, ht⟩) ha
    simpa [wordTail, run, hc] using hq
  | quoted h =>
    obtain ⟨a, f, rfl, hs, hp⟩ := exists_of_isAF h
    cases hw
    have quote : isWordPart '\x27' = false := rfl
    simp [wordTail, hp, quote, h, hs]

/-- The token that is written is the one that is read. -/
theorem lead_of_spelled {kind : TokenKind} {c : Char} {tail text : List Char} (hw : kind.Spelled (c :: tail))
    (ha : Apart (c :: tail) text) (hq : isAF (c :: tail) = true → text.head? ≠ some '\x27') :
    lead c (tail ++ text) = .ok (kind, tail.length) := by
  generalize he : c :: tail = word at hw
  cases hw with
  | operator o =>
    cases he
    have other := isWordStart_symbol o
    simp [lead, other, Operator.ofSymbol?_symbol]
  | identifier h =>
    rw [← he] at h
    obtain ⟨hc, ht⟩ := wordTail_of_isName h ha hq
    simp only [lead, if_pos hc, ht, he, String.ofList_toList]
  | number h =>
    obtain ⟨c, tail, rfl, hc, ht⟩ := h.exists_cons
    cases he
    have other : ¬isWordStart c = true := fun hs => by
      rw [isDigit_of_isWordStart hs] at hc
      cases hc
    have run := takeWhile_of_apart (List.forall_mem_cons.2 ⟨isWordPart_of_isDigit hc, ht⟩) ha
    simp only [lead, if_neg other, if_pos hc, run, Numeral.read_eq_ok_iff.2 h]

/-! ## From tokens to spellings -/

/-- Behind a run of characters that go on a word there is none of them. -/
theorem apart_drop_run (word rest : List Char) : Apart word (rest.drop (rest.takeWhile isWordPart).length) := by
  intro c _ d hd _
  have rest' := List.takeWhile_append_dropWhile (p := isWordPart) (l := rest)
  have behind : rest.drop (rest.takeWhile isWordPart).length = rest.dropWhile isWordPart :=
    List.append_cancel_left ((takeWhile_append_drop rest).trans rest'.symm)
  have stop := List.head?_dropWhile_not isWordPart rest
  rw [behind] at hd
  rw [Option.mem_def.1 hd] at stop
  exact stop

/-- A word ends with the quote of `AF`, or where no character goes on it. -/
theorem isName_wordTail {c : Char} (hc : isWordStart c = true) (rest : List Char) :
    IsName (c :: wordTail c rest) ∧ Apart (c :: wordTail c rest) (rest.drop (wordTail c rest).length) := by
  simp only [wordTail]
  split
  · rename_i h
    refine ⟨.quoted (Bool.and_eq_true_iff.1 h).1, fun d hd _ _ hp => ?_⟩
    rw [← List.cons_append, List.getLast?_concat] at hd
    cases hd
    cases hp
  · exact ⟨.plain hc fun d => List.mem_takeWhile_imp, apart_drop_run _ _⟩

/-- The token that is read is the one that is written. -/
theorem spelled_of_lead {c : Char} {rest : List Char} {kind : TokenKind} {extra : Nat} (h : lead c rest = .ok (kind, extra)) :
    ∃ tail text, tail ++ text = rest ∧ tail.length = extra ∧ kind.Spelled (c :: tail) ∧ Apart (c :: tail) text := by
  unfold lead at h
  split at h
  · rename_i hc
    cases h
    obtain ⟨name, apart⟩ := isName_wordTail hc rest
    refine ⟨_, _, wordTail_append_drop c rest, rfl, ?_, apart⟩
    have same := String.toList_ofList (l := c :: wordTail c rest)
    rw [← same] at name
    have spelled := TokenKind.Spelled.identifier name
    rw [same] at spelled
    exact spelled
  · split at h
    · simp only at h
      split at h <;> cases h
      rename_i hn
      exact ⟨_, _, takeWhile_append_drop rest, rfl, .number (Numeral.read_eq_ok_iff.1 hn), apart_drop_run _ _⟩
    · split at h <;> cases h
      rename_i o ho
      obtain rfl := Operator.symbol_of_ofSymbol? ho
      refine ⟨[], rest, rfl, rfl, .operator o, fun c hc _ _ hp => ?_⟩
      obtain rfl : o.symbol = c := by simpa using hc
      cases o <;> cases hp

/-! ## Texts -/

/-- A token that is written is read first, and reading goes on behind it. -/
theorem scanFrom_append {kind : TokenKind} {word text : List Char} (hw : kind.Spelled word) (ha : Apart word text)
    (hq : isAF word = true → text.head? ≠ some '\x27') (column : Nat) :
    scanFrom column (word ++ text) = (scanFrom (column + word.length) text).map (⟨kind, column⟩ :: ·) := by
  obtain ⟨c, tail, rfl, -⟩ := exists_cons_of_spelled hw
  obtain ⟨blank, comment, -⟩ := ne_of_spelled hw
  rw [List.length_cons, Nat.add_comm tail.length, ← Nat.add_assoc, List.cons_append, scanFrom,
    if_neg (Bool.eq_false_iff.1 blank), if_neg comment]
  simp only [lead_of_spelled hw ha hq, List.drop_left]
  cases scanFrom (column + 1 + tail.length) text <;> rfl

theorem scanFrom_of_tiles {column : Nat} {tokens : List Token} {text : List Char} (h : Tiles column tokens text) :
    scanFrom column text = .ok tokens := by
  induction h with
  | nothing => rw [scanFrom]
  | comment column text => rw [scanFrom, if_neg (by decide), if_pos rfl]
  | blank hc h ih => rw [scanFrom, if_pos hc, ih]
  | token hw ha h ih => rw [scanFrom_append hw ha (fun _ => h.head?_ne), ih, Except.map]

theorem tiles_of_scanFrom (column : Nat) (text : List Char) {tokens : List Token} (h : scanFrom column text = .ok tokens) :
    Tiles column tokens text := by
  fun_induction scanFrom column text generalizing tokens with
  | case1 column =>
    cases h
    exact .nothing column
  | case2 column c rest hc ih => exact .blank hc (ih h)
  | case3 column rest =>
    cases h
    exact .comment column rest
  | case4 => cases h
  | case5 => cases h
  | case6 column c rest hb hc kind extra hl tokens ht ih =>
    cases h
    obtain ⟨tail, text, rfl, rfl, spelled, apart⟩ := spelled_of_lead hl
    have behind := ih ht
    rw [List.drop_left, Nat.add_assoc, Nat.add_comm 1] at behind
    exact .token spelled apart behind

/-- Reading finds the tokens that tile a text, and fails where none do. -/
theorem scanFrom_eq_ok_iff {column : Nat} {tokens : List Token} {text : List Char} :
    scanFrom column text = .ok tokens ↔ Tiles column tokens text :=
  ⟨tiles_of_scanFrom column text, scanFrom_of_tiles⟩

theorem Tiles.blanks {column : Nat} {tokens : List Token} {blanks text : List Char} (hb : ∀ c ∈ blanks, isBlank c = true)
    (h : Tiles (column + blanks.length) tokens text) : Tiles column tokens (blanks ++ text) := by
  induction blanks generalizing column with
  | nil => exact h
  | cons c blanks ih =>
    rw [List.length_cons, Nat.add_comm blanks.length, ← Nat.add_assoc] at h
    exact .blank (hb c List.mem_cons_self) (ih (fun d hd => hb d (List.mem_cons_of_mem c hd)) h)

/-- Blanks set any tokens apart. -/
theorem Spaced.exists_tiles {kinds : List TokenKind} {text : List Char} (h : Spaced kinds text) (column : Nat) :
    ∃ tokens, Tiles column tokens text ∧ tokens.map Token.kind = kinds := by
  induction h generalizing column with
  | nothing => exact ⟨[], .nothing column, rfl⟩
  | comment text => exact ⟨[], .comment column text, rfl⟩
  | token hw hb ne h ih =>
    rename_i kind kinds word blanks text
    obtain ⟨tokens, tiles, same⟩ := ih (column + word.length + blanks.length)
    refine ⟨⟨kind, column⟩ :: tokens, .token hw ?_ (.blanks hb tiles), by rw [List.map_cons, same]⟩
    intro c _ d hd _
    cases blanks with
    | nil =>
      obtain rfl := ne.resolve_left (not_not_intro rfl)
      cases h with
      | nothing => cases hd
      | comment => cases hd; rfl
    | cons b blanks =>
      cases hd
      exact isWordPart_of_isBlank (hb _ List.mem_cons_self)

/-- The numbers of a text have no sign of their own. -/
theorem Tiles.nonneg {column : Nat} {tokens : List Token} {text : List Char} (h : Tiles column tokens text) {n : Int32}
    {place : Nat} (hn : ⟨.number n, place⟩ ∈ tokens) : 0 ≤ n.toInt := by
  induction h with
  | nothing => cases hn
  | comment => cases hn
  | blank hc h ih => exact ih hn
  | token hw ha h ih =>
    rcases List.mem_cons.1 hn with he | hn
    · cases he
      cases hw with
      | number hs => exact hs.nonneg
    · exact ih hn

end Token

end Z80Asm
