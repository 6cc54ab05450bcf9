/-
JSON text. A value has its lexemes, and a text of it is made of these with blanks between them (`Json.Written`); a
character of a string may be written with any of its escapes. A text is that of one value alone (`Json.Written.unique`),
and the layout over several lines is a text of its value (`Json.written_pretty`).
-/
import Z80Asm.Json.Basic
import Z80Asm.Proofs.Token.Positional

namespace Z80Asm.Json

/-! ## Lexemes -/

/-- What JSON text is made of: marks, whole numbers and strings. -/
inductive Lexeme
  | mark (c : Char)
  | number (n : Int)
  | string (s : String)
  deriving DecidableEq

mutual

/-- The lexemes of a value. -/
def lexemes : Json → List Lexeme
  | .number n => [.number n]
  | .string s => [.string s]
  | .array items => .mark '[' :: itemLexemes true items
  | .object members => .mark '\x7b' :: memberLexemes true members

/-- The lexemes of items and of the mark that closes them. All but the first item stand behind a comma. -/
def itemLexemes (first : Bool) : List Json → List Lexeme
  | [] => [.mark ']']
  | item :: more => (if first then [] else [.mark ',']) ++ (item.lexemes ++ itemLexemes false more)

/-- The lexemes of members and of the mark that closes them. -/
def memberLexemes (first : Bool) : List (String × Json) → List Lexeme
  | [] => [.mark '\x7d']
  | (key, value) :: more =>
    (if first then [] else [.mark ',']) ++ (.string key :: .mark ':' :: (value.lexemes ++ memberLexemes false more))

end

/-! ## Their spellings -/

/-- The characters that can be written as a letter behind a backslash, each with its letter in front. -/
def escapes : List (Char × Char) :=
  [('\x22', '\x22'), ('\\', '\\'), ('/', '/'), ('b', '\x08'), ('f', '\x0c'), ('n', '\n'), ('r', '\r'), ('t', '\t')]

/-- How a character can be written in a string: as itself, if it is no control, quote or backslash, by its letter, or by
four hexadecimal digits. -/
inductive Spells : Char → List Char → Prop
  | itself {c : Char} (control : 0x20 ≤ c.toNat) (quote : c ≠ '\x22') (backslash : c ≠ '\\') : Spells c [c]
  | letter {a c : Char} (h : (a, c) ∈ escapes) : Spells c ['\\', a]
  | digits {c : Char} {digits : List Char} (length : digits.length = 4)
    (h : Radix.hexadecimal.Positional digits c.toNat) : Spells c ('\\' :: 'u' :: digits)

/-- The characters of a string as they are written, with the quote that closes it. -/
inductive Body : List Char → List Char → Prop
  | close : Body [] ['\x22']
  | char {c : Char} {cs piece text : List Char} (h : Spells c piece) (more : Body cs text) : Body (c :: cs) (piece ++ text)

/-- The marks. -/
def marks : List Char := ['[', ']', '\x7b', '\x7d', ',', ':']

/-- How a lexeme is written. -/
inductive Lexeme.Spelled : Lexeme → List Char → Prop
  | mark {c : Char} (h : c ∈ marks) : Spelled (.mark c) [c]
  | number (n : Int) : Spelled (.number n) (toString n).toList
  | string {s : String} {text : List Char} (h : Body s.toList text) : Spelled (.string s) ('\x22' :: text)

/-- A text that begins with no digit, so that a number can stand in front of it. -/
def Apart (text : List Char) : Prop := ∀ d, text.head? = some d → d.isDigit = false

/-- The blanks between lexemes. -/
def blanks : List Char := [' ', '\n', '\r', '\t']

/-- A text that is made of lexemes, with blanks anywhere between them. -/
inductive Laid : List Lexeme → List Char → Prop
  | nil : Laid [] []
  | blank {xs : List Lexeme} {c : Char} {text : List Char} (h : c ∈ blanks) (more : Laid xs text) : Laid xs (c :: text)
  | lexeme {x : Lexeme} {xs : List Lexeme} {word text : List Char} (h : x.Spelled word)
    (apart : ∀ n, x = .number n → Apart text) (more : Laid xs text) : Laid (x :: xs) (word ++ text)

/-- A text of a value. -/
def Written (j : Json) (text : String) : Prop := Laid j.lexemes text.toList

/-! ## Strings are read in one way -/

theorem positional_unique {r : Radix} {digits : List Char} {v w : Nat} (hv : r.Positional digits v)
    (hw : r.Positional digits w) : v = w := by
  obtain ⟨values, each, rfl⟩ := hv
  obtain ⟨values', each', rfl⟩ := hw
  have same := (Radix.map_digit?_eq_iff.2 each).symm.trans (Radix.map_digit?_eq_iff.2 each')
  rw [List.map_inj_right fun _ _ => Option.some.inj] at same
  rw [same]

/-- A letter stands for one character, and none is the mark of digits. -/
theorem escapes_unique {a c d : Char} (hc : (a, c) ∈ escapes) (hd : (a, d) ∈ escapes) : c = d ∧ a ≠ 'u' := by
  have table : ∀ p ∈ escapes, p.1 ≠ 'u' ∧ ∀ q ∈ escapes, p.1 = q.1 → p.2 = q.2 := by decide
  exact ⟨(table _ hc).2 _ hd rfl, (table _ hc).1⟩

theorem Spells.unique {c d : Char} {piece piece' text text' : List Char} (hc : Spells c piece) (hd : Spells d piece')
    (h : piece ++ text = piece' ++ text') : c = d ∧ text = text' := by
  cases hc with
  | itself control quote backslash =>
    cases hd with
    | itself => exact List.cons.inj h
    | letter | digits => exact absurd (List.cons.inj h).1 backslash
  | letter ha =>
    cases hd with
    | itself control quote backslash => exact absurd (List.cons.inj h).1.symm backslash
    | letter hb =>
      obtain ⟨-, h⟩ := List.cons.inj h
      obtain ⟨rfl, same⟩ := List.cons.inj h
      exact ⟨(escapes_unique ha hb).1, same⟩
    | digits =>
      obtain ⟨-, h⟩ := List.cons.inj h
      exact absurd (List.cons.inj h).1 (escapes_unique ha ha).2
  | digits length hv =>
    cases hd with
    | itself control quote backslash => exact absurd (List.cons.inj h).1.symm backslash
    | letter hb =>
      obtain ⟨-, h⟩ := List.cons.inj h
      exact absurd (List.cons.inj h).1.symm (escapes_unique hb hb).2
    | digits length' hw =>
      obtain ⟨-, h⟩ := List.cons.inj h
      obtain ⟨-, h⟩ := List.cons.inj h
      obtain ⟨rfl, rfl⟩ := List.append_inj h (length.trans length'.symm)
      exact ⟨Char.toNat_inj.1 (positional_unique hv hw), rfl⟩

/-- No character is written with a quote in front, which therefore closes the string. -/
theorem Spells.exists_cons {c : Char} {piece : List Char} (h : Spells c piece) :
    ∃ a tail, piece = a :: tail ∧ a ≠ '\x22' := by
  cases h with
  | itself control quote => exact ⟨_, _, rfl, quote⟩
  | letter | digits => exact ⟨_, _, rfl, by decide⟩

theorem Body.unique {cs ds body body' text text' : List Char} (hc : Body cs body) (hd : Body ds body')
    (h : body ++ text = body' ++ text') : cs = ds ∧ text = text' := by
  induction hc generalizing ds body' with
  | close =>
    cases hd with
    | close => exact ⟨rfl, (List.cons.inj h).2⟩
    | char hp more =>
      obtain ⟨a, tail, rfl, quote⟩ := hp.exists_cons
      exact absurd (List.cons.inj h).1.symm quote
  | char hp more ih =>
    cases hd with
    | close =>
      obtain ⟨a, tail, rfl, quote⟩ := hp.exists_cons
      exact absurd (List.cons.inj h).1 quote
    | char hq more' =>
      rw [List.append_assoc, List.append_assoc] at h
      obtain ⟨rfl, h⟩ := hp.unique hq h
      obtain ⟨rfl, h⟩ := ih more' h
      exact ⟨rfl, h⟩

/-! ## Numbers are read in one way -/

/-- The digits of a number, behind a sign if it is negative. -/
theorem toList_toString (n : Int) :
    (∃ m : Nat, n = m ∧ (toString n).toList = Nat.toDigits 10 m) ∨
      ∃ m : Nat, n = -m ∧ (toString n).toList = '-' :: Nat.toDigits 10 m := by
  cases n with
  | ofNat m =>
    have digits : (toString (Int.ofNat m)).toList = (Nat.repr m).toList := rfl
    exact .inl ⟨m, rfl, digits.trans Nat.toList_repr⟩
  | negSucc m =>
    have digits : (toString (Int.negSucc m)).toList = ("-" ++ Nat.repr (m + 1)).toList := rfl
    refine .inr ⟨m + 1, rfl, digits.trans ?_⟩
    rw [String.toList_append, Nat.toList_repr]
    rfl

theorem exists_toDigits (m : Nat) : ∃ c tail, Nat.toDigits 10 m = c :: tail ∧ c.isDigit = true := by
  obtain ⟨c, tail, eq⟩ := List.exists_cons_of_ne_nil (Nat.toDigits_ne_nil : Nat.toDigits 10 m ≠ [])
  exact ⟨c, tail, eq, Nat.isDigit_of_mem_toDigits (by decide) (by decide) (eq ▸ List.mem_cons_self)⟩

theorem takeWhile_toDigits (m : Nat) {text : List Char} (h : Apart text) :
    (Nat.toDigits 10 m ++ text).takeWhile Char.isDigit = Nat.toDigits 10 m := by
  have all : ∀ c ∈ Nat.toDigits 10 m, c.isDigit = true := fun c => Nat.isDigit_of_mem_toDigits (by decide) (by decide)
  rw [List.takeWhile_append_of_pos all]
  cases text with
  | nil => simp
  | cons d text => rw [List.takeWhile_cons_of_neg (by simp [h d rfl]), List.append_nil]

theorem toDigits_unique {m k : Nat} {text text' : List Char} (apart : Apart text) (apart' : Apart text')
    (h : Nat.toDigits 10 m ++ text = Nat.toDigits 10 k ++ text') : m = k ∧ text = text' := by
  have digits : Nat.toDigits 10 m = Nat.toDigits 10 k := by
    rw [← takeWhile_toDigits m apart, h, takeWhile_toDigits k apart']
  have value (n : Nat) : Nat.ofDigitChars 10 (Nat.toDigits 10 n) 0 = n := Nat.ofDigitChars_toDigits (by decide) (by decide)
  rw [digits] at h
  exact ⟨by rw [← value m, digits, value k], List.append_cancel_left h⟩

theorem toString_unique {n m : Int} {text text' : List Char} (apart : Apart text) (apart' : Apart text')
    (h : (toString n).toList ++ text = (toString m).toList ++ text') : n = m ∧ text = text' := by
  -- a sign is no digit, so that both numbers have one or none has
  have mixed {a b : Nat} {t t' : List Char} : Nat.toDigits 10 a ++ t ≠ '-' :: Nat.toDigits 10 b ++ t' := fun h => by
    obtain ⟨c, tail, eq, digit⟩ := exists_toDigits a
    rw [eq] at h
    cases (List.cons.inj h).1
    cases digit
  rcases toList_toString n with ⟨a, rfl, ha⟩ | ⟨a, rfl, ha⟩ <;> rcases toList_toString m with ⟨b, rfl, hb⟩ | ⟨b, rfl, hb⟩ <;>
    rw [ha, hb] at h
  · obtain ⟨rfl, same⟩ := toDigits_unique apart apart' h
    exact ⟨rfl, same⟩
  · exact absurd h mixed
  · exact absurd h.symm mixed
  · obtain ⟨rfl, same⟩ := toDigits_unique apart apart' (List.cons.inj h).2
    exact ⟨rfl, same⟩

/-! ## Lexemes are read in one way -/

namespace Lexeme

/-- What a lexeme begins with. -/
inductive Begins : Lexeme → Char → Prop
  | mark {c : Char} (h : c ∈ marks) : Begins (.mark c) c
  | number (n : Int) {c : Char} (h : c = '-' ∨ c.isDigit = true) : Begins (.number n) c
  | string (s : String) : Begins (.string s) '\x22'

theorem Spelled.exists_cons {x : Lexeme} {word : List Char} (h : x.Spelled word) :
    ∃ c tail, word = c :: tail ∧ x.Begins c := by
  cases h with
  | mark h => exact ⟨_, _, rfl, .mark h⟩
  | number n =>
    rcases toList_toString n with ⟨m, -, eq⟩ | ⟨m, -, eq⟩
    · obtain ⟨c, tail, digits, digit⟩ := exists_toDigits m
      exact ⟨c, tail, eq.trans digits, .number n (.inr digit)⟩
    · exact ⟨_, _, eq, .number n (.inl rfl)⟩
  | string h => exact ⟨_, _, rfl, .string _⟩

/-- Marks, numbers and strings begin with different characters, and none of them with a blank. -/
theorem Begins.not_mem_blanks {x : Lexeme} {c : Char} (h : x.Begins c) : c ∉ blanks := by
  intro blank
  simp only [blanks, List.mem_cons, List.not_mem_nil, or_false] at blank
  cases h with
  | mark h => rcases blank with rfl | rfl | rfl | rfl <;> simp [marks] at h
  | number n h => rcases blank with rfl | rfl | rfl | rfl <;> simp at h
  | string => simp at blank

theorem Begins.ne_number {c : Char} {n : Int} (h : c ∈ marks ∨ c = '\x22') : ¬Begins (.number n) c := by
  intro begins
  simp only [marks, List.mem_cons, List.not_mem_nil, or_false] at h
  cases begins with
  | number _ number => rcases h with (rfl | rfl | rfl | rfl | rfl | rfl) | rfl <;> simp at number

theorem Spelled.unique {x y : Lexeme} {word word' text text' : List Char} (hx : x.Spelled word) (hy : y.Spelled word')
    (apart : ∀ n, x = .number n → Apart text) (apart' : ∀ n, y = .number n → Apart text')
    (h : word ++ text = word' ++ text') : x = y ∧ text = text' := by
  obtain ⟨c, tail, rfl, first⟩ := hx.exists_cons
  obtain ⟨d, tail', rfl, first'⟩ := hy.exists_cons
  obtain ⟨rfl, -⟩ := List.cons.inj h
  have quote : '\x22' ∉ marks := by decide
  generalize hw : c :: tail = word at *
  generalize hw' : c :: tail' = word' at *
  cases hx with
  | mark hc =>
    cases hw
    cases hy with
    | mark => cases hw'; exact ⟨rfl, (List.cons.inj h).2⟩
    | number n => exact absurd first' (Begins.ne_number (.inl hc))
    | string => cases hw'; exact absurd hc quote
  | number n =>
    cases hy with
    | mark hd => cases hw'; exact absurd first (Begins.ne_number (.inl hd))
    | number m =>
      obtain ⟨rfl, same⟩ := toString_unique (apart n rfl) (apart' m rfl) h
      exact ⟨rfl, same⟩
    | string => cases hw'; exact absurd first (Begins.ne_number (.inr rfl))
  | string hb =>
    cases hw
    cases hy with
    | mark hd => cases hw'; exact absurd hd quote
    | number m => exact absurd first' (Begins.ne_number (.inr rfl))
    | string hb' =>
      obtain ⟨same, rest⟩ := hb.unique hb' (List.cons.inj h).2
      exact ⟨congrArg Lexeme.string (String.toList_inj.1 same), rest⟩

end Lexeme

theorem Laid.of_blank {xs : List Lexeme} {c : Char} {text : List Char} (h : Laid xs (c :: text)) (hc : c ∈ blanks) :
    Laid xs text := by
  generalize eq : c :: text = whole at h
  cases h with
  | nil => cases eq
  | blank _ more => cases eq; exact more
  | lexeme word =>
    obtain ⟨d, tail, rfl, first⟩ := word.exists_cons
    cases eq
    exact absurd hc first.not_mem_blanks

/-- A text has its lexemes and no others. -/
theorem Laid.unique {xs ys : List Lexeme} {text : List Char} (hx : Laid xs text) (hy : Laid ys text) : xs = ys := by
  induction hx generalizing ys with
  | nil =>
    generalize eq : ([] : List Char) = whole at hy
    cases hy with
    | nil => rfl
    | blank => cases eq
    | lexeme word =>
      obtain ⟨d, tail, rfl, -⟩ := word.exists_cons
      cases eq
  | blank hc more ih => exact ih (hy.of_blank hc)
  | @lexeme x xs word text hw apart more ih =>
    generalize eq : word ++ text = whole at hy
    cases hy with
    | nil =>
      obtain ⟨d, tail, rfl, -⟩ := hw.exists_cons
      cases eq
    | blank hc more' =>
      obtain ⟨d, tail, rfl, first⟩ := hw.exists_cons
      cases eq
      exact absurd hc first.not_mem_blanks
    | lexeme hw' apart' more' =>
      obtain ⟨rfl, rfl⟩ := hw.unique hw' apart apart' eq
      rw [ih more']

/-! ## Values are read in one way -/

/-- No value begins like the mark that closes items or members. -/
theorem lexemes_ne_mark (j : Json) {c : Char} (h : c ∈ [']', '\x7d']) (xs ys : List Lexeme) :
    j.lexemes ++ xs ≠ .mark c :: ys := by
  intro eq
  simp only [List.mem_cons, List.not_mem_nil, or_false] at h
  cases j <;> rcases h with rfl | rfl <;> simp [lexemes] at eq

mutual

/-- The lexemes of a value are not the beginning of those of another. -/
theorem lexemes_unique : ∀ (j k : Json) {xs ys : List Lexeme}, j.lexemes ++ xs = k.lexemes ++ ys → j = k ∧ xs = ys
  | .number n, k, xs, ys, h => by
    cases k <;> simp_all [lexemes]
  | .string s, k, xs, ys, h => by
    cases k <;> simp_all [lexemes]
  | .array items, k, xs, ys, h => by
    cases k with
    | array items' =>
      simp only [lexemes, List.cons_append, List.cons.injEq, true_and] at h
      obtain ⟨rfl, same⟩ := itemLexemes_unique true items items' h
      exact ⟨rfl, same⟩
    | _ => simp [lexemes] at h
  | .object members, k, xs, ys, h => by
    cases k with
    | object members' =>
      simp only [lexemes, List.cons_append, List.cons.injEq, true_and] at h
      obtain ⟨rfl, same⟩ := memberLexemes_unique true members members' h
      exact ⟨rfl, same⟩
    | _ => simp [lexemes] at h

theorem itemLexemes_unique (first : Bool) : ∀ (items items' : List Json) {xs ys : List Lexeme},
    itemLexemes first items ++ xs = itemLexemes first items' ++ ys → items = items' ∧ xs = ys
  | [], [], xs, ys, h => by simpa [itemLexemes] using h
  | [], k :: more', xs, ys, h => by
    cases first with
    | true => exact absurd (by simpa [itemLexemes] using h.symm) (lexemes_ne_mark k (by decide) _ _)
    | false => simp [itemLexemes] at h
  | j :: more, [], xs, ys, h => by
    cases first with
    | true => exact absurd (by simpa [itemLexemes] using h) (lexemes_ne_mark j (by decide) _ _)
    | false => simp [itemLexemes] at h
  | j :: more, k :: more', xs, ys, h => by
    simp only [itemLexemes, List.append_assoc, List.append_cancel_left_eq] at h
    obtain ⟨rfl, behind⟩ := lexemes_unique j k h
    obtain ⟨rfl, same⟩ := itemLexemes_unique false more more' behind
    exact ⟨rfl, same⟩

theorem memberLexemes_unique (first : Bool) : ∀ (members members' : List (String × Json)) {xs ys : List Lexeme},
    memberLexemes first members ++ xs = memberLexemes first members' ++ ys → members = members' ∧ xs = ys
  | [], [], xs, ys, h => by simpa [memberLexemes] using h
  | [], (key', k) :: more', xs, ys, h => by cases first <;> simp [memberLexemes] at h
  | (key, j) :: more, [], xs, ys, h => by cases first <;> simp [memberLexemes] at h
  | (key, j) :: more, (key', k) :: more', xs, ys, h => by
    simp only [memberLexemes, List.append_assoc, List.append_cancel_left_eq, List.cons_append, List.cons.injEq,
      Lexeme.string.injEq, true_and] at h
    obtain ⟨rfl, h⟩ := h
    obtain ⟨rfl, behind⟩ := lexemes_unique j k h
    obtain ⟨rfl, same⟩ := memberLexemes_unique false more more' behind
    exact ⟨rfl, same⟩

end

/-- A text is that of one value. -/
theorem Written.unique {j k : Json} {text : String} (hj : Written j text) (hk : Written k text) : j = k := by
  have same : j.lexemes ++ [] = k.lexemes ++ [] := by rw [Laid.unique hj hk]
  exact (lexemes_unique j k same).1

/-! ## The layout over several lines -/

theorem spells_escaped (c : Char) : Spells c (escaped c) := by
  unfold escaped
  split_ifs with quote b f n r t control
  · rcases quote with rfl | rfl <;> exact .letter (by decide)
  · exact b ▸ .letter (by decide)
  · exact f ▸ .letter (by decide)
  · exact n ▸ .letter (by decide)
  · exact r ▸ .letter (by decide)
  · exact t ▸ .letter (by decide)
  · -- the controls take two digits at most
    have table : ∀ v < 0x20, ((Text.hexLower v).leftpad 4 '0').length = 4 ∧
        ((Text.hexLower v).leftpad 4 '0').map Radix.hexadecimal.digit? = [0, 0, v / 16, v % 16].map some := by
      decide +kernel
    obtain ⟨length, digits⟩ := table c.toNat control
    refine .digits length ⟨_, Radix.map_digit?_eq_iff.1 digits, ?_⟩
    show c.toNat = c.toNat % 16 + 16 * (c.toNat / 16 + 16 * (0 + 16 * (0 + 16 * 0)))
    omega
  · exact .itself (Nat.le_of_not_lt control) (fun h => quote (.inl h)) fun h => quote (.inr h)

theorem body_flatMap (cs : List Char) : Body cs (cs.flatMap escaped ++ ['\x22']) := by
  induction cs with
  | nil => exact .close
  | cons c cs ih =>
    rw [List.flatMap_cons, List.append_assoc]
    exact .char (spells_escaped c) ih

section

variable {xs : List Lexeme} {text : List Char}

theorem Laid.quoted (s : String) (more : Laid xs text) : Laid (.string s :: xs) ((quoted s).toList ++ text) := by
  have word : (Json.quoted s).toList = '\x22' :: (s.toList.flatMap escaped ++ ['\x22']) := String.toList_ofList
  rw [word]
  exact .lexeme (.string (body_flatMap s.toList)) nofun more

theorem Laid.mark {c : Char} (h : c ∈ marks) (more : Laid xs text) : Laid (.mark c :: xs) (c :: text) :=
  .lexeme (.mark h) nofun more

/-- The name of a member in front of its value. -/
theorem Laid.member (key : String) (more : Laid xs text) :
    Laid (.string key :: .mark ':' :: xs) ((Json.quoted key).toList ++ ':' :: ' ' :: text) :=
  (mark (by decide) (.blank (by decide) more)).quoted key

/-- A line break and the blanks at the start of the next line. -/
theorem Laid.line (depth : Nat) (more : Laid xs text) : Laid xs ('\n' :: ((indent depth).toList ++ text)) := by
  refine .blank (by decide) ?_
  rw [indent, String.toList_ofList]
  induction 2 * depth with
  | zero => exact more
  | succ k ih => exact .blank (by decide) ih

end

theorem apart_of_marks {c : Char} (h : c ∈ '\n' :: marks) (text : List Char) : Apart (c :: text) := by
  rintro _ ⟨⟩
  simp only [marks, List.mem_cons, List.not_mem_nil, or_false] at h
  rcases h with rfl | rfl | rfl | rfl | rfl | rfl | rfl <;> rfl

mutual

theorem laid_render (depth : Nat) : ∀ (j : Json) {xs : List Lexeme} {text : List Char}, Laid xs text → Apart text →
    Laid (j.lexemes ++ xs) ((render depth j).toList ++ text)
  | .number n, xs, text, more, apart => by
    rw [lexemes, render]
    exact .lexeme (.number n) (fun _ _ => apart) more
  | .string s, xs, text, more, apart => by
    rw [lexemes, render]
    exact more.quoted s
  | .array [], xs, text, more, apart => by
    rw [lexemes, itemLexemes, render]
    exact .mark (by decide) (.mark (by decide) more)
  | .array (item :: rest), xs, text, more, apart => by
    have close := (more.mark (c := ']') (by decide)).line depth
    obtain ⟨items, behind⟩ := laid_renderItems (depth + 1) rest close (apart_of_marks (by decide) _)
    have first := laid_render (depth + 1) item items behind
    have cut : (render depth (.array (item :: rest))).toList ++ text =
        '[' :: '\n' :: ((indent (depth + 1)).toList ++ ((render (depth + 1) item).toList ++
          ((renderItems (depth + 1) rest).toList ++ '\n' :: ((indent depth).toList ++ ']' :: text)))) := by
      simp [render]
    have lexed : (array (item :: rest)).lexemes ++ xs =
        .mark '[' :: (item.lexemes ++ (itemLexemes false rest ++ xs)) := by simp [lexemes, itemLexemes]
    rw [cut, lexed]
    exact (first.line (depth + 1)).mark (by decide)
  | .object [], xs, text, more, apart => by
    rw [lexemes, memberLexemes, render]
    exact .mark (by decide) (.mark (by decide) more)
  | .object ((key, value) :: rest), xs, text, more, apart => by
    have close := (more.mark (c := '\x7d') (by decide)).line depth
    obtain ⟨members, behind⟩ := laid_renderMembers (depth + 1) rest close (apart_of_marks (by decide) _)
    have first := (laid_render (depth + 1) value members behind).member key
    have cut : (render depth (.object ((key, value) :: rest))).toList ++ text =
        '\x7b' :: '\n' :: ((indent (depth + 1)).toList ++ ((quoted key).toList ++ ':' :: ' ' ::
          ((render (depth + 1) value).toList ++
            ((renderMembers (depth + 1) rest).toList ++ '\n' :: ((indent depth).toList ++ '\x7d' :: text))))) := by
      simp [render]
    have lexed : (object ((key, value) :: rest)).lexemes ++ xs =
        .mark '\x7b' :: .string key :: .mark ':' :: (value.lexemes ++ (memberLexemes false rest ++ xs)) := by
      simp [lexemes, memberLexemes]
    rw [cut, lexed]
    exact (first.line (depth + 1)).mark (by decide)

theorem laid_renderItems (depth : Nat) : ∀ (items : List Json) {xs : List Lexeme} {text : List Char},
    Laid (.mark ']' :: xs) text → Apart text →
    Laid (itemLexemes false items ++ xs) ((renderItems depth items).toList ++ text) ∧
      Apart ((renderItems depth items).toList ++ text)
  | [], xs, text, more, apart => ⟨more, apart⟩
  | item :: rest, xs, text, more, apart => by
    obtain ⟨items, behind⟩ := laid_renderItems depth rest more apart
    have first := (laid_render depth item items behind).line depth
    have cut : (renderItems depth (item :: rest)).toList ++ text =
        ',' :: '\n' :: ((indent depth).toList ++ ((render depth item).toList ++
          ((renderItems depth rest).toList ++ text))) := by simp [renderItems]
    have lexed : itemLexemes false (item :: rest) ++ xs =
        .mark ',' :: (item.lexemes ++ (itemLexemes false rest ++ xs)) := by simp [itemLexemes]
    rw [cut, lexed]
    exact ⟨first.mark (by decide), apart_of_marks (by decide) _⟩

theorem laid_renderMembers (depth : Nat) : ∀ (members : List (String × Json)) {xs : List Lexeme} {text : List Char},
    Laid (.mark '\x7d' :: xs) text → Apart text →
    Laid (memberLexemes false members ++ xs) ((renderMembers depth members).toList ++ text) ∧
      Apart ((renderMembers depth members).toList ++ text)
  | [], xs, text, more, apart => ⟨more, apart⟩
  | (key, value) :: rest, xs, text, more, apart => by
    obtain ⟨members, behind⟩ := laid_renderMembers depth rest more apart
    have first := ((laid_render depth value members behind).member key).line depth
    have cut : (renderMembers depth ((key, value) :: rest)).toList ++ text =
        ',' :: '\n' :: ((indent depth).toList ++ ((quoted key).toList ++ ':' :: ' ' :: ((render depth value).toList ++
          ((renderMembers depth rest).toList ++ text)))) := by simp [renderMembers]
    have lexed : memberLexemes false ((key, value) :: rest) ++ xs =
        .mark ',' :: .string key :: .mark ':' :: (value.lexemes ++ (memberLexemes false rest ++ xs)) := by
      simp [memberLexemes]
    rw [cut, lexed]
    exact ⟨first.mark (by decide), apart_of_marks (by decide) _⟩

end

/-- The layout over several lines is a text of its value. -/
theorem written_pretty (j : Json) : Written j j.pretty := by
  have laid := laid_render 0 j .nil nofun
  rwa [List.append_nil, List.append_nil] at laid

end Z80Asm.Json
