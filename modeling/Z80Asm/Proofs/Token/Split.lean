/-
Lines in parts. A comment has no part in the tokens of a line, and a blank in front of the comment cuts a line in two:
its tokens are those of the one part and then those of the other, at columns that go on behind the blank
(`Token.scan_split`).
-/
import Z80Asm.Proofs.Token.Lexeme

namespace Z80Asm

/-! ## Columns that go on -/

/-- A token with some bytes more in front of it. -/
def Token.moved (k : Nat) (t : Token) : Token := { t with column := t.column + k }

/-- A lexical error with some bytes more in front of it. -/
def TokenError.moved (k : Nat) (e : TokenError) : TokenError := { e with column := e.column + k }

namespace Token

/-- The column at which reading begins is only counted on. -/
theorem scanFrom_add (column k : Nat) (text : List Char) :
    scanFrom (column + k) text = ((scanFrom column text).map (List.map (moved k))).mapError (TokenError.moved k) := by
  fun_induction scanFrom column text with
  | case1 => rw [scanFrom]; rfl
  | case2 column c rest hb ih => rw [scanFrom, if_pos hb, ← ih, Nat.add_right_comm]
  | case3 column rest hb => rw [scanFrom, if_neg hb, if_pos rfl]; rfl
  | case4 column c rest hb hc fault hl =>
    rw [scanFrom, if_neg hb, if_neg hc]
    simp only [hl]
    rfl
  | case5 column c rest hb hc kind extra hl e he ih =>
    have place : column + k + 1 + extra = column + 1 + extra + k := by omega
    rw [scanFrom, if_neg hb, if_neg hc]
    simp only [hl, place, ih, he]
    rfl
  | case6 column c rest hb hc kind extra hl tokens ht ih =>
    have place : column + k + 1 + extra = column + 1 + extra + k := by omega
    rw [scanFrom, if_neg hb, if_neg hc]
    simp only [hl, place, ih, ht]
    rfl

/-! ## Comments -/

/-- What stands behind a semicolon is a comment. -/
theorem code_append_comment (text more : List Char) : code (text ++ ';' :: more) = code text := by
  induction text with
  | nil => rfl
  | cons c text ih =>
    by_cases hc : c = ';'
    · subst hc
      rfl
    · rw [List.cons_append, code_cons hc, code_cons hc, ih]

theorem code_eq_self {text : List Char} (h : ';' ∉ text) : code text = text := by
  refine List.takeWhile_eq_self_iff.2 fun c hc => bne_iff_ne.2 ?_
  rintro rfl
  exact h hc

/-! ## Blanks -/

/-- At the end of a text there is no error. -/
theorem Stuck.ne_nil {fault : TokenFault} {text : List Char} (h : Stuck fault text) : text ≠ [] := by
  cases h <;> exact List.cons_ne_nil _ _

section

variable {w : Char} (hw : isBlank w = true) (more : List Char)
include hw

/-- A blank does not go on a word. -/
theorem apart_append_blank {word behind : List Char} (h : Apart word behind) : Apart word (behind ++ w :: more) := by
  intro c hc d hd hp
  cases behind with
  | nil =>
    cases hd
    exact isWordPart_of_isBlank hw
  | cons b behind => exact h c hc d hd hp

theorem Lexeme.append_blank {kind : TokenKind} {word behind : List Char} (h : Lexeme kind word behind) :
    Lexeme kind word (behind ++ w :: more) := by
  refine ⟨h.spelled, apart_append_blank hw more h.apart, fun ha hq => ?_⟩
  cases behind with
  | nil =>
    cases hq
    cases hw
  | cons d behind => exact h.quote ha hq

/-- What is read of a text is read of it with a blank behind. -/
theorem Run.append_blank {column stop : Nat} {tokens : List Token} {text rest : List Char}
    (h : Run column text tokens stop rest) : Run column (text ++ w :: more) tokens stop (rest ++ w :: more) := by
  induction h with
  | here column text => exact .here column _
  | blank hc h ih => exact .blank hc ih
  | token word h ih =>
    rw [List.append_assoc]
    exact .token (word.append_blank hw more) ih

/-- A text that begins with no token begins with none if a blank stands behind it. -/
theorem Stuck.append_blank {fault : TokenFault} {text : List Char} (h : Stuck fault text) :
    Stuck fault (text ++ w :: more) := by
  cases h with
  | badNumber hc ht ha hn =>
    rw [List.append_assoc]
    exact .badNumber hc ht (apart_append_blank hw more ha) hn
  | numberOutOfRange hc ht ha hn hv =>
    rw [List.append_assoc]
    exact .numberOutOfRange hc ht (apart_append_blank hw more ha) hn hv
  | unexpected text blank start digit symbol => exact .unexpected _ blank start digit symbol

end

/-! ## Lines in two parts -/

/-- What a run reads is as long as the column where it ends. -/
theorem Run.exists_front {stop : Nat} {tokens : List Token} {text rest : List Char} (h : Run 0 text tokens stop rest) :
    ∃ front, text = front ++ rest ∧ (String.ofList front).utf8ByteSize = stop := by
  obtain ⟨front, cut, length⟩ := h.exists_append
  rw [Nat.zero_add] at length
  obtain ⟨pieces, -, covers⟩ := h.exists_covers [] rfl nofun
  exact ⟨front, cut, (Text.utf8ByteSize_of_lt (covers.lt_of_append cut (Nat.le_of_eq length))).trans length⟩

/-- Behind the tokens of a part and a blank, the tokens of the other part are read. -/
theorem scan_append_blank {a : String} (ha : ';' ∉ a.toList) {w : Char} (hw : isBlank w = true) (b : String)
    {tokens : List Token} (h : scan a = .ok tokens) :
    scan (a ++ String.singleton w ++ b) =
      (((scan b).map (List.map (moved (a.utf8ByteSize + 1)))).mapError (TokenError.moved (a.utf8ByteSize + 1))).map
        (tokens ++ ·) := by
  obtain ⟨stop, run⟩ := scan_eq_ok_iff.1 h
  rw [code_eq_self ha] at run
  obtain ⟨front, cut, rfl⟩ := run.exists_front
  rw [List.append_nil] at cut
  have behind := scanFrom_add 0 (a.utf8ByteSize + 1) b.toList
  rw [Nat.zero_add] at behind
  rw [scan, scan, ← behind, String.toList_append, String.toList_append, String.toList_singleton, List.append_assoc,
    List.singleton_append, (run.append_blank hw b.toList).scanFrom_eq, List.nil_append, scanFrom, if_pos hw, ← cut,
    String.ofList_toList]

/-- What is wrong with a part is wrong with the whole. -/
theorem scan_append_blank_of_error {a : String} (ha : ';' ∉ a.toList) {w : Char} (hw : isBlank w = true) (b : String)
    {e : TokenError} (h : scan a = .error e) : scan (a ++ String.singleton w ++ b) = .error e := by
  obtain ⟨tokens, rest, run, stuck⟩ := scan_eq_error_iff.1 h
  rw [code_eq_self ha] at run
  obtain ⟨front, cut, -⟩ := run.exists_append
  have plain : (rest ++ w :: b.toList).head? ≠ some ';' := fun hs => by
    rw [List.head?_append_of_ne_nil _ stuck.ne_nil] at hs
    exact ha (cut ▸ List.mem_append_right front (List.mem_of_head? hs))
  rw [scan, String.toList_append, String.toList_append, String.toList_singleton, List.append_assoc,
    List.singleton_append, (run.append_blank hw b.toList).scanFrom_eq, scanFrom_of_stuck (stuck.append_blank hw _) plain,
    Except.map]

/-- Reading never looks past a comment or a blank. A semicolon and what stands behind it have no part in the tokens or the
error of a line. If a line is cut at a blank in front of its comment, what is wrong with the first part is wrong with the
line; otherwise the line has the tokens of both parts, or the error of the second part, with the columns of the second
part counted from behind the blank. -/
theorem scan_split (a b : String) :
    (∀ line, walk? line = some (scan line)) ∧
    scan (a ++ ";" ++ b) = scan a ∧
    (';' ∉ a.toList → ∀ w ∈ [' ', '\t', '\n', '\x0c', '\r'],
      (∀ e, scan a = .error e → scan (a ++ String.singleton w ++ b) = .error e) ∧
      ∀ ts, scan a = .ok ts →
        (∀ us, scan b = .ok us → scan (a ++ String.singleton w ++ b) = .ok (ts ++ us.map (moved (a.utf8ByteSize + 1)))) ∧
        ∀ e, scan b = .error e → scan (a ++ String.singleton w ++ b) = .error (e.moved (a.utf8ByteSize + 1))) := by
  refine ⟨walk?_eq, ?_, fun ha w hw => ?_⟩
  · have cut : code (a ++ ";" ++ b).toList = code a.toList := by
      rw [String.toList_append, String.toList_append, List.append_assoc]
      exact code_append_comment a.toList b.toList
    rw [scan, scan, ← scanFrom_code, cut, scanFrom_code]
  · have blank : isBlank w = true := by
      simp only [List.mem_cons, List.not_mem_nil, or_false] at hw
      rcases hw with rfl | rfl | rfl | rfl | rfl <;> rfl
    refine ⟨fun e => scan_append_blank_of_error ha blank b, fun ts ht => ⟨fun us hu => ?_, fun e he => ?_⟩⟩
    · rw [scan_append_blank ha blank b ht, hu]
      rfl
    · rw [scan_append_blank ha blank b ht, he]
      rfl

/-- A quote behind a blank is not that of `AF'`, a numeral ends at a blank, and a bad one in front of it counts first. -/
theorem scan_split_quote :
    scan "ex af '" = .error ⟨.unexpected '\x27', 6⟩ ∧
    scan "RST 0\t8 é" = .error ⟨.unexpected 'é', 8⟩ ∧
    scan "12ab é" = .error ⟨.badNumber "12ab", 0⟩ ∧
    scan "ex af \tbc" = .ok [⟨.identifier "ex", 0⟩, ⟨.identifier "af", 3⟩, ⟨.identifier "bc", 7⟩] := by
  have first : scan "ex af" = .ok [⟨.identifier "ex", 0⟩, ⟨.identifier "af", 3⟩] := by decide +kernel
  refine ⟨?_, ?_, ?_, ?_⟩
  · exact (((scan_split "ex af" "'").2.2 (by decide) ' ' (by decide)).2 _ first).2 ⟨.unexpected '\x27', 0⟩ (by decide +kernel)
  · have other : scan "RST 0" = .ok [⟨.identifier "RST", 0⟩, ⟨.number 0, 4⟩] := by decide +kernel
    exact (((scan_split "RST 0" "8 é").2.2 (by decide) '\t' (by decide)).2 _ other).2 ⟨.unexpected 'é', 2⟩ (by decide +kernel)
  · exact ((scan_split "12ab" "é").2.2 (by decide) ' ' (by decide)).1 _ (by decide +kernel)
  · exact (((scan_split "ex af" "\tbc").2.2 (by decide) ' ' (by decide)).2 _ first).1 [⟨.identifier "bc", 1⟩] (by decide +kernel)

end Token

end Z80Asm
