/-
The words of a line and the places where none can be read. Reading takes the longest words from the left; it fails
exactly if a run over the text before the comment is stuck at a bad numeral or at a character that starts no token,
and the words it has taken cover what it has read but for blanks (`Token.scan_lexemes`).
-/
import Z80Asm.Proofs.Token.Tiling
import Mathlib.Data.List.Basic

namespace Z80Asm.Token

/-! ## Runs over a text -/

/-- What stands on a line before its comment. -/
def code (text : List Char) : List Char := text.takeWhile (· != ';')

/-- A word that a token is written as, if what stands behind it cannot go on it. -/
structure Lexeme (kind : TokenKind) (word behind : List Char) : Prop where
  spelled : kind.Spelled word
  apart : Apart word behind
  quote : isAF word = true → behind.head? ≠ some '\x27'

/-- Reading a text from a byte column on comes upon some tokens, and the rest begins at another column. -/
inductive Run : Nat → List Char → List Token → Nat → List Char → Prop
  | here (column : Nat) (text : List Char) : Run column text [] column text
  | blank {column stop : Nat} {tokens : List Token} {c : Char} {text rest : List Char} (hc : isBlank c = true)
    (h : Run (column + 1) text tokens stop rest) : Run column (c :: text) tokens stop rest
  | token {column stop : Nat} {tokens : List Token} {kind : TokenKind} {word behind rest : List Char}
    (hw : Lexeme kind word behind) (h : Run (column + word.length) behind tokens stop rest) :
    Run column (word ++ behind) (⟨kind, column⟩ :: tokens) stop rest

/-- The texts that begin with no token: a run of word characters behind a digit that is no numeral or too large, or a
character that starts no token and is no blank. -/
inductive Stuck : TokenFault → List Char → Prop
  | badNumber {c : Char} {tail behind : List Char} (hc : c.isDigit = true) (ht : ∀ d ∈ tail, isWordPart d = true)
    (ha : Apart (c :: tail) behind) (hn : ∀ v, ¬Numeral.Denotes (c :: tail) v) :
    Stuck (.badNumber (String.ofList (c :: tail))) (c :: tail ++ behind)
  | numberOutOfRange {c : Char} {tail behind : List Char} {v : Nat} (hc : c.isDigit = true)
    (ht : ∀ d ∈ tail, isWordPart d = true) (ha : Apart (c :: tail) behind) (hn : Numeral.Denotes (c :: tail) v)
    (hv : Numeral.maximum < v) : Stuck (.numberOutOfRange (String.ofList (c :: tail))) (c :: tail ++ behind)
  | unexpected {c : Char} (text : List Char) (blank : isBlank c = false) (start : isWordStart c = false)
    (digit : c.isDigit = false) (symbol : ∀ o : Operator, o.symbol ≠ c) : Stuck (.unexpected c) (c :: text)

/-! ## What a run covers -/

/-- A token owns a word of a text: it is read from the word, which begins at its column and cannot be longer on
either side. -/
def Owns (text : List Char) (t : Token) (word : List Char) : Prop :=
  ∃ front behind, text = front ++ (word ++ behind) ∧ front.length = t.column ∧ Apart front word ∧
    Lexeme t.kind word behind

/-- The words of tokens cover a text between two columns, one behind the other and with only blanks besides. -/
structure Covers (text : List Char) (start stop : Nat) (pieces : List (Token × List Char)) : Prop where
  owns : ∀ p ∈ pieces, Owns text p.1 p.2
  within : ∀ p ∈ pieces, start ≤ p.1.column ∧ p.1.column + p.2.length ≤ stop
  ordered : pieces.Pairwise fun p q => p.1.column + p.2.length ≤ q.1.column
  blank : ∀ (i : Nat) (c : Char), text[i]? = some c → start ≤ i → i < stop →
    isBlank c = true ∨ ∃ p ∈ pieces, p.1.column ≤ i ∧ i < p.1.column + p.2.length

/-! ## One word -/

/-- No word has a semicolon, and all its characters are ASCII and show as themselves. -/
theorem range_of_mem_spelled {kind : TokenKind} {word : List Char} (h : kind.Spelled word) {d : Char} (hd : d ∈ word) :
    (0x20 < d.toNat ∧ d.toNat < 0x7F) ∧ d ≠ ';' := by
  have part {d : Char} (hp : isWordPart d = true) : (0x20 < d.toNat ∧ d.toNat < 0x7F) ∧ d ≠ ';' :=
    ⟨range_of_isWordPart hp, by rintro rfl; cases hp⟩
  cases h with
  | operator o =>
    obtain rfl := List.mem_singleton.1 hd
    cases o <;> decide
  | identifier h =>
    generalize String.toList _ = word at h hd
    cases h with
    | plain hc ht =>
      rcases List.mem_cons.1 hd with rfl | hd
      · exact part (isWordPart_of_isWordStart hc)
      · exact part (ht d hd)
    | quoted h =>
      obtain ⟨a, f, rfl, ha, hf⟩ := exists_of_isAF h
      simp only [List.cons_append, List.nil_append, List.mem_cons, List.not_mem_nil, or_false] at hd
      rcases hd with rfl | rfl | rfl
      · exact part (isWordPart_of_isWordStart ha)
      · exact part hf
      · decide
  | number h =>
    obtain ⟨c, tail, rfl, hc, ht⟩ := h.exists_cons
    rcases List.mem_cons.1 hd with rfl | hd
    · exact part (isWordPart_of_isDigit hc)
    · exact part (ht d hd)

theorem lt_of_mem_spelled {kind : TokenKind} {word : List Char} (h : kind.Spelled word) {d : Char} (hd : d ∈ word) :
    d.toNat < 0x80 ∧ d ≠ ';' :=
  ⟨Nat.lt_succ_of_lt (range_of_mem_spelled h hd).1.2, (range_of_mem_spelled h hd).2⟩

theorem Lexeme.ne_nil {kind : TokenKind} {word behind : List Char} (h : Lexeme kind word behind) : word ≠ [] := by
  obtain ⟨c, tail, rfl, -⟩ := exists_cons_of_spelled h.spelled
  exact List.cons_ne_nil c tail

/-- A quote behind `AF` belongs to the word. -/
theorem head?_wordTail {c : Char} {rest : List Char} (h : isAF (c :: wordTail c rest) = true) :
    (rest.drop (wordTail c rest).length).head? ≠ some '\x27' := by
  simp only [wordTail] at h ⊢
  split at h
  · -- with the quote, the word has three characters
    rename_i quoted
    obtain ⟨a, f, he, -⟩ := exists_of_isAF (Bool.and_eq_true_iff.1 quoted).1
    obtain ⟨_, _, he', -⟩ := exists_of_isAF h
    rw [← List.cons_append, he] at he'
    cases he'
  · rename_i quoted
    rw [if_neg quoted]
    intro hq
    exact quoted (by rw [h, hq]; rfl)

/-- The token that is read is read from a word. -/
theorem lexeme_of_lead {c : Char} {rest : List Char} {kind : TokenKind} {extra : Nat} (h : lead c rest = .ok (kind, extra)) :
    ∃ tail behind, tail ++ behind = rest ∧ tail.length = extra ∧ Lexeme kind (c :: tail) behind := by
  obtain ⟨tail, behind, rfl, rfl, spelled, apart⟩ := spelled_of_lead h
  refine ⟨tail, behind, rfl, rfl, spelled, apart, fun ha => ?_⟩
  obtain ⟨_, _, ⟨⟩, hc, -⟩ := exists_of_isAF ha
  rw [lead, if_pos hc] at h
  have length := congrArg Prod.snd (Except.ok.inj h)
  have cut := List.append_inj (wordTail_append_drop c _) length
  rw [← cut.1] at ha
  rw [← cut.2]
  exact head?_wordTail ha

/-- Where no token is read, the text begins with none. -/
theorem stuck_of_lead {c : Char} {rest : List Char} {fault : TokenFault} (hb : isBlank c = false)
    (h : lead c rest = .error fault) : Stuck fault (c :: rest) := by
  unfold lead at h
  split at h
  · cases h
  · rename_i start
    split at h
    · rename_i digit
      have parts : ∀ d ∈ rest.takeWhile isWordPart, isWordPart d = true := fun d => List.mem_takeWhile_imp
      have apart := apart_drop_run (c :: rest.takeWhile isWordPart) rest
      have cut := takeWhile_append_drop rest
      simp only at h
      split at h <;> cases h
      · rename_i bad
        have stuck := Stuck.badNumber digit parts apart (Numeral.read_eq_malformed_iff.1 bad)
        rwa [List.cons_append, cut] at stuck
      · rename_i large
        obtain ⟨v, hn, hv⟩ := Numeral.read_eq_tooLarge_iff.1 large
        have stuck := Stuck.numberOutOfRange digit parts apart hn hv
        rwa [List.cons_append, cut] at stuck
    · rename_i digit
      split at h <;> cases h
      rename_i none
      refine .unexpected rest hb (Bool.eq_false_iff.2 start) (Bool.eq_false_iff.2 digit) ?_
      rintro o rfl
      rw [Operator.ofSymbol?_symbol] at none
      cases none

/-- A numeral is read as a whole from where it begins: its number is a token, and a fault has all its text. -/
theorem scanFrom_numeral {column : Nat} {c : Char} {tail behind : List Char} (hc : c.isDigit = true)
    (ht : ∀ d ∈ tail, isWordPart d = true) (ha : Apart (c :: tail) behind) :
    scanFrom column (c :: tail ++ behind) = match Numeral.read (c :: tail) with
      | .ok n => (scanFrom (column + (c :: tail).length) behind).map (⟨.number n, column⟩ :: ·)
      | .error .malformed => .error ⟨.badNumber (String.ofList (c :: tail)), column⟩
      | .error .tooLarge => .error ⟨.numberOutOfRange (String.ofList (c :: tail)), column⟩ := by
  have part := isWordPart_of_isDigit hc
  have blank : ¬isBlank c = true := fun hb => by
    rw [isWordPart_of_isBlank hb] at part
    cases part
  have comment : c ≠ ';' := by
    rintro rfl
    cases hc
  have start : ¬isWordStart c = true := fun hs => by
    rw [isDigit_of_isWordStart hs] at hc
    cases hc
  have run := takeWhile_of_apart (List.forall_mem_cons.2 ⟨part, ht⟩) ha
  rw [List.cons_append, scanFrom, if_neg blank, if_neg comment, lead, if_neg start, if_pos hc]
  simp only [run]
  cases Numeral.read (c :: tail) with
  | ok n =>
    rw [List.length_cons, Nat.add_comm tail.length, ← Nat.add_assoc]
    simp only [List.drop_left]
    cases scanFrom (column + 1 + tail.length) behind <;> rfl
  | error fault => cases fault <;> rfl

/-- Where a text begins with no token, none is read. -/
theorem scanFrom_of_stuck {column : Nat} {fault : TokenFault} {text : List Char} (h : Stuck fault text)
    (hs : text.head? ≠ some ';') : scanFrom column text = .error ⟨fault, column⟩ := by
  cases h with
  | badNumber hc ht ha hn => rw [scanFrom_numeral hc ht ha, Numeral.read_eq_malformed_iff.2 hn]
  | numberOutOfRange hc ht ha hn hv => rw [scanFrom_numeral hc ht ha, Numeral.read_eq_tooLarge_iff.2 ⟨_, hn, hv⟩]
  | unexpected rest blank start digit symbol =>
    rename_i c
    have comment : c ≠ ';' := by
      rintro rfl
      exact hs rfl
    have none : Operator.ofSymbol? c = none := List.find?_eq_none.2 fun o _ => by simpa using symbol o
    rw [scanFrom, if_neg (Bool.eq_false_iff.1 blank), if_neg comment, lead, if_neg (Bool.eq_false_iff.1 start),
      if_neg (Bool.eq_false_iff.1 digit)]
    simp only [none]

/-! ## Runs and results -/

/-- Reading goes on where a run ends. -/
theorem Run.scanFrom_eq {column stop : Nat} {tokens : List Token} {text rest : List Char}
    (h : Run column text tokens stop rest) : scanFrom column text = (scanFrom stop rest).map (tokens ++ ·) := by
  induction h with
  | here column text => cases scanFrom column text <;> rfl
  | blank hc h ih => rw [scanFrom, if_pos hc, ih]
  | token hw h ih =>
    rename_i stop _ _ _ _ rest
    rw [scanFrom_append hw.spelled hw.apart hw.quote, ih]
    cases scanFrom stop rest <;> rfl

/-- A run reads the text up to the column where it ends. -/
theorem Run.exists_append {column stop : Nat} {tokens : List Token} {text rest : List Char}
    (h : Run column text tokens stop rest) : ∃ front, text = front ++ rest ∧ column + front.length = stop := by
  induction h with
  | here column text => exact ⟨[], rfl, rfl⟩
  | blank hc h ih =>
    obtain ⟨front, rfl, rfl⟩ := ih
    exact ⟨_ :: front, rfl, by rw [List.length_cons]; omega⟩
  | token hw h ih =>
    obtain ⟨front, rfl, rfl⟩ := ih
    exact ⟨_ ++ front, (List.append_assoc _ _ _).symm, by rw [List.length_append]; omega⟩

/-- The end of reading a text without a comment: a run to its end, or up to a place where it begins with no token. -/
def Ends (column : Nat) (text : List Char) : Except TokenError (List Token) → Prop
  | .ok tokens => ∃ stop, Run column text tokens stop []
  | .error e => ∃ tokens rest, Run column text tokens e.column rest ∧ Stuck e.fault rest

theorem Ends.blank {column : Nat} {c : Char} {text : List Char} {result : Except TokenError (List Token)}
    (hc : isBlank c = true) (h : Ends (column + 1) text result) : Ends column (c :: text) result := by
  cases result with
  | ok tokens =>
    obtain ⟨stop, run⟩ := h
    exact ⟨stop, .blank hc run⟩
  | error e =>
    obtain ⟨tokens, rest, run, stuck⟩ := h
    exact ⟨tokens, rest, .blank hc run, stuck⟩

theorem Ends.token {column : Nat} {kind : TokenKind} {word behind : List Char}
    {result : Except TokenError (List Token)} (hw : Lexeme kind word behind)
    (h : Ends (column + word.length) behind result) :
    Ends column (word ++ behind) (result.map (⟨kind, column⟩ :: ·)) := by
  cases result with
  | ok tokens =>
    obtain ⟨stop, run⟩ := h
    exact ⟨stop, .token hw run⟩
  | error e =>
    obtain ⟨tokens, rest, run, stuck⟩ := h
    exact ⟨_, rest, .token hw run, stuck⟩

theorem ends_scanFrom (column : Nat) (text : List Char) (hs : ';' ∉ text) : Ends column text (scanFrom column text) := by
  fun_induction scanFrom column text with
  | case1 column => exact ⟨column, .here column []⟩
  | case2 column c rest hc ih => exact .blank hc (ih fun h => hs (List.mem_cons_of_mem c h))
  | case3 => exact absurd List.mem_cons_self hs
  | case4 column c rest hb hc fault hl =>
    exact ⟨[], _, .here column _, stuck_of_lead (Bool.eq_false_iff.2 hb) hl⟩
  | case5 column c rest hb hc kind extra hl e he ih =>
    obtain ⟨tail, behind, rfl, rfl, word⟩ := lexeme_of_lead hl
    rw [List.drop_left, Nat.add_assoc, Nat.add_comm 1] at ih he
    have ends := ih fun h => hs (List.mem_cons_of_mem c (List.mem_append_right tail h))
    rw [he] at ends
    exact ends.token word
  | case6 column c rest hb hc kind extra hl tokens ht ih =>
    obtain ⟨tail, behind, rfl, rfl, word⟩ := lexeme_of_lead hl
    rw [List.drop_left, Nat.add_assoc, Nat.add_comm 1] at ih ht
    have ends := ih fun h => hs (List.mem_cons_of_mem c (List.mem_append_right tail h))
    rw [ht] at ends
    exact ends.token word

/-! ## Comments -/

theorem not_mem_code (text : List Char) : ';' ∉ code text := fun h => by
  have := List.mem_takeWhile_imp h
  cases this

theorem takeWhile_code (text : List Char) : (code text).takeWhile isWordPart = text.takeWhile isWordPart := by
  rw [code, List.takeWhile_takeWhile]
  congr 1
  funext c
  rw [Bool.eq_iff_iff]
  simp only [decide_eq_true_eq, bne_iff_ne]
  refine and_iff_left_of_imp fun h => ?_
  rintro rfl
  cases h

/-- A text without semicolons is before the comment. -/
theorem code_append {word : List Char} (h : ';' ∉ word) (text : List Char) : code (word ++ text) = word ++ code text :=
  List.takeWhile_append_of_pos fun _ hc => bne_iff_ne.2 fun he => h (he ▸ hc)

theorem code_cons {c : Char} (h : c ≠ ';') (text : List Char) : code (c :: text) = c :: code text :=
  List.takeWhile_cons_of_pos (bne_iff_ne.2 h)

theorem drop_code {word text behind : List Char} (h : ';' ∉ word) (cut : word ++ behind = text) :
    (code text).drop word.length = code (text.drop word.length) := by
  subst cut
  rw [code_append h, List.drop_left, List.drop_left]

theorem head?_code_eq_quote (text : List Char) : ((code text).head? == some '\x27') = (text.head? == some '\x27') := by
  cases text with
  | nil => rfl
  | cons c text =>
    by_cases hc : c = ';'
    · subst hc
      rfl
    · rw [code_cons hc]
      rfl

/-- A comment does not go on a token. -/
theorem lead_code (c : Char) (rest : List Char) : lead c (code rest) = lead c rest := by
  have parts : ';' ∉ rest.takeWhile isWordPart := fun h => by
    have := List.mem_takeWhile_imp h
    cases this
  have tail : wordTail c (code rest) = wordTail c rest := by
    simp only [wordTail, takeWhile_code, drop_code parts (takeWhile_append_drop rest), head?_code_eq_quote]
  simp only [lead, tail, takeWhile_code]

theorem drop_code_of_lead {c : Char} {rest : List Char} {kind : TokenKind} {extra : Nat}
    (h : lead c rest = .ok (kind, extra)) : (code rest).drop extra = code (rest.drop extra) := by
  obtain ⟨tail, behind, cut, rfl, word⟩ := lexeme_of_lead h
  exact drop_code (fun hs => (lt_of_mem_spelled word.spelled (List.mem_cons_of_mem c hs)).2 rfl) cut

/-- What stands behind a semicolon is not read. -/
theorem scanFrom_code (column : Nat) (text : List Char) : scanFrom column (code text) = scanFrom column text := by
  fun_induction scanFrom column text with
  | case1 => rw [code, List.takeWhile_nil, scanFrom]
  | case2 column c rest hc ih =>
    have comment : c ≠ ';' := by
      rintro rfl
      cases hc
    rw [code_cons comment, scanFrom, if_pos hc, ih]
  | case3 column rest => rw [code, List.takeWhile_cons_of_neg (by decide), scanFrom]
  | case4 column c rest hb hc fault hl =>
    rw [code_cons hc, scanFrom, if_neg hb, if_neg hc, lead_code]
    simp only [hl]
  | case5 column c rest hb hc kind extra hl e he ih =>
    rw [code_cons hc, scanFrom, if_neg hb, if_neg hc, lead_code]
    simp only [hl, drop_code_of_lead hl, ih, he]
  | case6 column c rest hb hc kind extra hl tokens ht ih =>
    rw [code_cons hc, scanFrom, if_neg hb, if_neg hc, lead_code]
    simp only [hl, drop_code_of_lead hl, ih, ht]

/-- A line has tokens exactly if a run reaches the end of what stands before its comment. -/
theorem scan_eq_ok_iff {line : String} {tokens : List Token} :
    scan line = .ok tokens ↔ ∃ stop, Run 0 (code line.toList) tokens stop [] := by
  rw [scan, ← scanFrom_code]
  constructor
  · intro h
    have ends := ends_scanFrom 0 (code line.toList) (not_mem_code line.toList)
    rwa [h] at ends
  · rintro ⟨stop, run⟩
    rw [run.scanFrom_eq, scanFrom, Except.map, List.append_nil]

/-- A line is rejected exactly if a run is stuck before its comment. -/
theorem scan_eq_error_iff {line : String} {e : TokenError} :
    scan line = .error e ↔ ∃ tokens rest, Run 0 (code line.toList) tokens e.column rest ∧ Stuck e.fault rest := by
  rw [scan, ← scanFrom_code]
  constructor
  · intro h
    have ends := ends_scanFrom 0 (code line.toList) (not_mem_code line.toList)
    rwa [h] at ends
  · rintro ⟨tokens, rest, run, stuck⟩
    obtain ⟨front, cut, -⟩ := run.exists_append
    have plain : rest.head? ≠ some ';' := fun h => by
      have := not_mem_code line.toList
      rw [cut] at this
      exact this (List.mem_append_right front (List.mem_of_head? h))
    rw [run.scanFrom_eq, scanFrom_of_stuck stuck plain, Except.map]

/-! ## What stands where -/

theorem apart_append {front word text : List Char} (ne : word ≠ []) (h : Apart word text) : Apart (front ++ word) text := by
  intro c hc
  rw [List.getLast?_append_of_ne_nil front ne] at hc
  exact h c hc

/-- A run covers what it reads of a text. The induction is on the run; what it has read before goes along, as the words
that follow may not go on it. -/
theorem Run.exists_covers {column stop : Nat} {tokens : List Token} {text rest : List Char}
    (h : Run column text tokens stop rest) (front : List Char) (hf : front.length = column) (ha : Apart front text) :
    ∃ pieces : List (Token × List Char), pieces.map Prod.fst = tokens ∧ Covers (front ++ text) column stop pieces := by
  induction h generalizing front with
  | here column text => exact ⟨[], rfl, nofun, nofun, .nil, fun i c _ le lt => absurd lt (Nat.not_lt.2 le)⟩
  | blank hc h ih =>
    rename_i column stop tokens c text rest
    have apart : Apart (front ++ [c]) text := apart_append (List.cons_ne_nil c []) fun d hd _ _ hp => by
      obtain rfl : c = d := by simpa using hd
      rw [isWordPart_of_isBlank hc] at hp
      cases hp
    obtain ⟨pieces, same, covers⟩ := ih (front ++ [c]) (by rw [List.length_append, hf, List.length_singleton]) apart
    rw [List.append_assoc, List.singleton_append] at covers
    refine ⟨pieces, same, covers.owns, fun p hp => ?_, covers.ordered, fun i d hd le lt => ?_⟩
    · have := covers.within p hp
      omega
    · rcases Nat.eq_or_lt_of_le le with rfl | le
      · rw [← hf, List.getElem?_append_right (Nat.le_refl _), Nat.sub_self] at hd
        cases hd
        exact .inl hc
      · exact covers.blank i d hd le lt
  | token hw h ih =>
    rename_i column stop tokens kind word behind rest
    have apart : Apart (front ++ word) behind := apart_append hw.ne_nil hw.apart
    obtain ⟨pieces, same, covers⟩ := ih (front ++ word) (by rw [List.length_append, hf]) apart
    rw [List.append_assoc] at covers
    have reach : column + word.length ≤ stop := by
      obtain ⟨_, -, length⟩ := h.exists_append
      omega
    refine ⟨(⟨kind, column⟩, word) :: pieces, by rw [List.map_cons, same], ?_, ?_, ?_, fun i d hd le lt => ?_⟩
    · have first : Apart front word := by
        intro c hc
        rw [← List.head?_append_of_ne_nil word hw.ne_nil]
        exact ha c hc
      exact List.forall_mem_cons.2 ⟨⟨front, behind, rfl, hf, first, hw⟩, covers.owns⟩
    · refine List.forall_mem_cons.2 ⟨⟨Nat.le_refl _, reach⟩, fun p hp => ?_⟩
      have := covers.within p hp
      omega
    · exact .cons (fun p hp => (covers.within p hp).1) covers.ordered
    · rcases Nat.lt_or_ge i (column + word.length) with inside | beyond
      · exact .inr ⟨_, List.mem_cons_self, le, inside⟩
      · rcases covers.blank i d hd beyond lt with blank | ⟨p, hp, within⟩
        · exact .inl blank
        · exact .inr ⟨p, List.mem_cons_of_mem _ hp, within⟩

section

variable {text : List Char} {stop : Nat} {pieces : List (Token × List Char)} (h : Covers text 0 stop pieces)
include h

/-- All that is read is ASCII. -/
theorem Covers.lt {i : Nat} {c : Char} (hc : text[i]? = some c) (lt : i < stop) : c.toNat < 0x80 := by
  rcases h.blank i c hc (Nat.zero_le i) lt with blank | ⟨p, hp, le, lt⟩
  · exact lt_of_isBlank blank
  · obtain ⟨front, behind, cut, hf, -, word⟩ := h.owns p hp
    have mem : c ∈ p.2 := by
      rw [cut, List.getElem?_append_right (by omega), List.getElem?_append_left (by omega)] at hc
      exact List.mem_of_getElem? hc
    exact (lt_of_mem_spelled word.spelled mem).1

theorem Covers.lt_of_append {front rest : List Char} (cut : text = front ++ rest) (le : front.length ≤ stop) :
    ∀ c ∈ front, c.toNat < 0x80 := by
  intro c hc
  obtain ⟨i, lt, rfl⟩ := List.getElem_of_mem hc
  refine h.lt (i := i) ?_ (Nat.lt_of_lt_of_le lt le)
  rw [cut, List.getElem?_append_left lt, List.getElem?_eq_getElem lt]

/-- The words stand at the byte columns of their tokens. -/
theorem Covers.slice? {line : String} (code : text = code line.toList) {p : Token × List Char} (hp : p ∈ pieces) :
    Text.slice? line p.1.column (p.1.column + p.2.length) = some (String.ofList p.2) := by
  obtain ⟨front, behind, cut, hf, -, word⟩ := h.owns p hp
  have within := h.within p hp
  have ascii := Text.utf8ByteSize_of_lt (h.lt_of_append cut (by omega))
  have comment := List.takeWhile_append_dropWhile (p := fun c => c != ';') (l := line.toList)
  have whole : line = String.ofList front ++ String.ofList (p.2 ++ (behind ++ line.toList.dropWhile (· != ';'))) := by
    rw [← String.ofList_append, ← List.append_assoc p.2, ← List.append_assoc front, ← cut, code]
    exact (String.ofList_toList.symm.trans (congrArg String.ofList comment.symm))
  have slice := Text.slice?_word (String.ofList front) (fun d hd => (lt_of_mem_spelled word.spelled hd).1)
    (behind ++ line.toList.dropWhile (· != ';'))
  rw [← whole, ascii, hf] at slice
  exact slice

/-- Each token begins behind the one before it. -/
theorem Covers.pairwise : (pieces.map Prod.fst).Pairwise (·.column < ·.column) := by
  refine List.pairwise_map.2 (h.ordered.imp_of_mem fun {p q} hp _ le => ?_)
  obtain ⟨_, _, -, -, -, word⟩ := h.owns p hp
  have := List.length_pos_iff.2 word.ne_nil
  omega

end

/-- The numbers of a line are those that their numerals stand for. -/
theorem Lexeme.denotes {n : Int32} {word behind : List Char} (h : Lexeme (.number n) word behind) :
    0 ≤ n.toInt ∧ n.toInt ≤ 2147483647 ∧ Numeral.Denotes word n.toInt.toNat := by
  obtain ⟨spelled, -, -⟩ := h
  cases spelled with
  | number hs =>
    refine ⟨hs.nonneg, Int.le_of_lt_add_one n.toInt_lt, ?_⟩
    obtain ⟨hm, ne, hd, hv⟩ := hs
    rw [← hv, Int.toNat_natCast]
    exact .intro hm ne hd

/-- The words of a line cover what stands before its comment. A line is rejected exactly if, from the left, its reading
meets a numeral that is malformed or too large, or a character that is no blank and starts no token, and the error has
its text and byte column. Up to there, or to the end, the tokens own words that cannot be longer, their columns ascend,
and only blanks stand between them. -/
theorem scan_lexemes (line : String) :
    walk? line = some (scan line) ∧
    (∀ tokens, scan line = .ok tokens ↔ ∃ stop, Run 0 (code line.toList) tokens stop []) ∧
    (∀ e, scan line = .error e ↔ ∃ tokens rest, Run 0 (code line.toList) tokens e.column rest ∧ Stuck e.fault rest) ∧
    ∀ tokens stop rest, Run 0 (code line.toList) tokens stop rest →
      ∃ (front : List Char) (pieces : List (Token × List Char)),
        code line.toList = front ++ rest ∧ (∀ c ∈ front, c.toNat < 0x80) ∧ (String.ofList front).utf8ByteSize = stop ∧
        pieces.map Prod.fst = tokens ∧ Covers (code line.toList) 0 stop pieces ∧
        tokens.Pairwise (·.column < ·.column) ∧
        (∀ p ∈ pieces, Text.slice? line p.1.column (p.1.column + p.2.length) = some (String.ofList p.2)) ∧
        ∀ p ∈ pieces, ∀ n, p.1.kind = .number n →
          0 ≤ n.toInt ∧ n.toInt ≤ 2147483647 ∧ Numeral.Denotes p.2 n.toInt.toNat := by
  refine ⟨walk?_eq line, fun _ => scan_eq_ok_iff, fun _ => scan_eq_error_iff, fun tokens stop rest run => ?_⟩
  obtain ⟨front, cut, length⟩ := run.exists_append
  rw [Nat.zero_add] at length
  obtain ⟨pieces, rfl, covers⟩ := run.exists_covers [] rfl nofun
  rw [List.nil_append] at covers
  have ascii := covers.lt_of_append cut (Nat.le_of_eq length)
  have size := Text.utf8ByteSize_of_lt ascii
  refine ⟨front, pieces, cut, ascii, size.trans length, rfl, covers, covers.pairwise, fun p => covers.slice? rfl, ?_⟩
  intro p hp n hn
  obtain ⟨_, _, -, -, -, word⟩ := covers.owns p hp
  rw [hn] at word
  exact word.denotes

/-- The quote of `AF'` is in its word, and a comment can hold anything; otherwise a line is read up to what is wrong
with it. -/
theorem scan_lexemes_quoted :
    (∃ stop pieces, pieces.map Prod.fst = [⟨.identifier "ex", 0⟩, ⟨.identifier "af'", 3⟩] ∧
      Covers (code "ex af' ;é".toList) 0 stop pieces) ∧
    (∃ tokens rest, Run 0 (code "ex bc'".toList) tokens 5 rest ∧ Stuck (.unexpected '\x27') rest) ∧
    (∃ tokens rest, Run 0 (code "+12ab é".toList) tokens 1 rest ∧ Stuck (.badNumber "12ab") rest) ∧
    ∃ tokens rest, Run 0 (code "0x80000000 12ab".toList) tokens 0 rest ∧ Stuck (.numberOutOfRange "0x80000000") rest := by
  have quoted : scan "ex af' ;é" = .ok [⟨.identifier "ex", 0⟩, ⟨.identifier "af'", 3⟩] := by decide +kernel
  have other : scan "ex bc'" = .error ⟨.unexpected '\x27', 5⟩ := by decide +kernel
  have bad : scan "+12ab é" = .error ⟨.badNumber "12ab", 1⟩ := by decide +kernel
  have large : scan "0x80000000 12ab" = .error ⟨.numberOutOfRange "0x80000000", 0⟩ := by decide +kernel
  obtain ⟨-, ok, -, reads⟩ := scan_lexemes "ex af' ;é"
  obtain ⟨stop, run⟩ := (ok _).1 quoted
  obtain ⟨-, pieces, -, -, -, same, covers, -⟩ := reads _ stop [] run
  exact ⟨⟨stop, pieces, same, covers⟩, ((scan_lexemes _).2.2.1 _).1 other, ((scan_lexemes _).2.2.1 _).1 bad,
    ((scan_lexemes _).2.2.1 _).1 large⟩

end Z80Asm.Token
