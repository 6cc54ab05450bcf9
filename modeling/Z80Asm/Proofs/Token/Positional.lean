/-
Numerals of any length. What follows the mark of the base is read as the positional number of its digits; it is checked
to be made of digits before it is checked to fit, and zeros in front of it count for nothing
(`Numeral.read_positional`).
-/
import Z80Asm.Proofs.Token.Lexeme
import Z80Asm.Proofs.Text.UpperCase

namespace Z80Asm

/-! ## Positional numbers -/

/-- The digits of a base, each with the number it stands for: the ten decimal digits, and the letters from `a` on in
either case. -/
def Radix.IsDigit (r : Radix) (c : Char) (v : Nat) : Prop := v < r.base ∧ (c = v.digitChar ∨ c = v.digitChar.toUpper)

/-- The number that a text of digits stands for by their positions. -/
def Radix.Positional (r : Radix) (digits : List Char) (v : Nat) : Prop :=
  ∃ values, List.Forall₂ r.IsDigit digits values ∧ v = Nat.ofDigits r.base values.reverse

/-- The base that a text begins with the mark of, and what follows the mark. A text without a mark is decimal. -/
inductive Numeral.Marked : List Char → Radix → List Char → Prop
  | hexadecimal {x : Char} (hx : x = 'x' ∨ x = 'X') (digits : List Char) : Marked ('0' :: x :: digits) .hexadecimal digits
  | octal {o : Char} (ho : o = 'o' ∨ o = 'O') (digits : List Char) : Marked ('0' :: o :: digits) .octal digits
  | decimal {text : List Char} (h : ∀ m ∈ ['x', 'X', 'o', 'O'], ¬['0', m] <+: text) : Marked text .decimal text

/-! ## Digits -/

namespace Radix

theorem base_le (r : Radix) : r.base ≤ 16 := by cases r <;> decide

theorem toNat_digitChar {v : Nat} (h : v < 16) : v.digitChar.toNat = if v < 10 then v + 48 else v + 87 := by
  have table : ∀ v < 16, v.digitChar.toNat = if v < 10 then v + 48 else v + 87 := by decide
  exact table v h

/-- The digits that are read are those of the base, in either letter case. -/
theorem digit?_eq_some_iff {r : Radix} {c : Char} {v : Nat} : r.digit? c = some v ↔ r.IsDigit c v := by
  constructor
  · intro h
    obtain ⟨value, lt⟩ := Option.filter_eq_some_iff.1 h
    have lt : v < r.base := of_decide_eq_true lt
    have toNat := toNat_digitChar (Nat.lt_of_lt_of_le lt r.base_le)
    have letters : '0'.toNat = 48 ∧ 'a'.toNat = 97 ∧ 'f'.toNat = 102 ∧ 'A'.toNat = 65 ∧ 'F'.toNat = 70 :=
      ⟨rfl, rfl, rfl, rfl, rfl⟩
    refine ⟨lt, ?_⟩
    simp only [Char.le_def, UInt32.le_iff_toNat_le, Char.toNat_val] at value
    by_cases digit : c.isDigit = true
    · rw [if_pos digit] at value
      cases value
      have range := Text.isDigit_iff.1 digit
      rw [if_pos (by omega)] at toNat
      exact .inl (Char.toNat_inj.1 (by omega))
    · rw [if_neg digit] at value
      by_cases small : 'a'.toNat ≤ c.toNat ∧ c.toNat ≤ 'f'.toNat
      · rw [if_pos small] at value
        cases value
        rw [if_neg (by omega)] at toNat
        exact .inl (Char.toNat_inj.1 (by omega))
      · rw [if_neg small] at value
        by_cases capital : 'A'.toNat ≤ c.toNat ∧ c.toNat ≤ 'F'.toNat
        · rw [if_pos capital] at value
          cases value
          rw [if_neg (by omega)] at toNat
          have upper := Text.toNat_toUpper (Text.isLower_iff.2 (by rw [toNat]; omega))
          exact .inr (Char.toNat_inj.1 (by omega))
        · rw [if_neg capital] at value
          cases value
  · rintro ⟨lt, same⟩
    have table : ∀ r : Radix, ∀ v < 16, v < r.base →
        r.digit? v.digitChar = some v ∧ r.digit? v.digitChar.toUpper = some v := by
      intro r
      cases r <;> decide
    have read := table r v (Nat.lt_of_lt_of_le lt r.base_le) lt
    rcases same with rfl | rfl
    · exact read.1
    · exact read.2

theorem map_digit?_eq_iff {r : Radix} {digits : List Char} {values : List Nat} :
    digits.map r.digit? = values.map some ↔ List.Forall₂ r.IsDigit digits values := by
  rw [← List.forall₂_eq_eq_eq, List.forall₂_map_left_iff, List.forall₂_map_right_iff]
  simp only [digit?_eq_some_iff]

/-- Reading digits from the left, each new one behind what is read so far, gives the positional number. -/
theorem value_eq_ofDigits (r : Radix) (values : List Nat) : r.value values = Nat.ofDigits r.base values.reverse := by
  rw [Nat.ofDigits_eq_foldr, List.foldr_reverse, value]
  simp only [Nat.cast_id, Nat.add_comm, Nat.mul_comm]

/-- A text stands for a number exactly if all its characters are digits. -/
theorem exists_positional_iff {r : Radix} {digits : List Char} :
    (∃ v, r.Positional digits v) ↔ ∀ c ∈ digits, ∃ v, r.IsDigit c v := by
  constructor
  · rintro ⟨v, values, each, -⟩ c hc
    obtain ⟨i, lt, rfl⟩ := List.getElem_of_mem hc
    exact ⟨_, (List.forall₂_iff_get.1 each).2 i lt (each.length_eq ▸ lt)⟩
  · intro each
    induction digits with
    | nil => exact ⟨0, [], .nil, rfl⟩
    | cons c digits ih =>
      obtain ⟨v, hv⟩ := each c List.mem_cons_self
      obtain ⟨_, values, hvs, -⟩ := ih fun d hd => each d (List.mem_cons_of_mem c hd)
      exact ⟨_, v :: values, .cons hv hvs, rfl⟩

end Radix

/-! ## Marks -/

namespace Numeral

/-- The base and the digits are those that the text is cut into. -/
theorem marked_iff {text : List Char} {r : Radix} {digits : List Char} :
    Marked text r digits ↔ split text = (r, digits) := by
  constructor
  · intro h
    cases h with
    | hexadecimal hx => rcases hx with rfl | rfl <;> rfl
    | octal ho => rcases ho with rfl | rfl <;> rfl
    | decimal h =>
      have none (m : Char) (hm : m ∈ ['x', 'X', 'o', 'O']) : text.take 2 ≠ ['0', m] := fun he =>
        h m hm (he ▸ List.take_prefix 2 text)
      simp [split, none]
  · intro h
    have cut := List.take_append_drop 2 text
    unfold split at h
    simp only at h
    split at h
    · rename_i mark
      cases h
      rcases mark with mark | mark <;> rw [mark] at cut <;> rw [← cut]
      · exact .hexadecimal (.inl rfl) _
      · exact .hexadecimal (.inr rfl) _
    · rename_i hexadecimal
      split at h
      · rename_i mark
        cases h
        rcases mark with mark | mark <;> rw [mark] at cut <;> rw [← cut]
        · exact .octal (.inl rfl) _
        · exact .octal (.inr rfl) _
      · rename_i octal
        cases h
        refine .decimal fun m hm hp => ?_
        have mark : text.take 2 = ['0', m] := (List.prefix_iff_eq_take.1 hp).symm
        simp only [List.mem_cons, List.not_mem_nil, or_false] at hm
        rcases hm with rfl | rfl | rfl | rfl
        · exact hexadecimal (.inl mark)
        · exact hexadecimal (.inr mark)
        · exact octal (.inl mark)
        · exact octal (.inr mark)

/-- A numeral stands for the positional number of the digits behind its mark. -/
theorem denotes_iff {text : List Char} {r : Radix} {digits : List Char} (h : Marked text r digits) {v : Nat} :
    Denotes text v ↔ digits ≠ [] ∧ r.Positional digits v := by
  rw [marked_iff] at h
  constructor
  · rintro ⟨hm, ne, hd⟩
    rename_i s mark rest values
    rw [split_append hm hd] at h
    cases h
    exact ⟨ne, values, Radix.map_digit?_eq_iff.1 hd, r.value_eq_ofDigits values⟩
  · rintro ⟨ne, values, each, rfl⟩
    obtain ⟨mark, hm, cut⟩ := exists_mark text
    rw [h] at hm cut
    rw [cut, ← r.value_eq_ofDigits values]
    exact .intro hm ne (Radix.map_digit?_eq_iff.2 each)

end Numeral

/-! ## Exact reading -/

/-- A digit and the letters, digits and underscores behind it have one reading as a mark of a base and what follows it.
The text is malformed exactly if nothing follows or something that is no digit of the base. Otherwise its positional
number is what is read if it is at most 2147483647, and too large if it is greater; no number is negative. On a line,
where the run of these characters ends with it, the number becomes a token and a fault an error with the whole text, both
at the column where it begins. -/
theorem Numeral.read_positional {c : Char} {tail : List Char} (digit : c.isDigit = true)
    (parts : ∀ d ∈ tail, Token.isWordPart d = true) :
    ∃ r digits, (∀ s rest, Marked (c :: tail) s rest ↔ s = r ∧ rest = digits) ∧
      (read (c :: tail) = .error .malformed ↔ digits = [] ∨ ∃ d ∈ digits, ∀ v, ¬r.IsDigit d v) ∧
      (∀ n, read (c :: tail) = .ok n ↔
        digits ≠ [] ∧ ∃ v, r.Positional digits v ∧ v ≤ 2147483647 ∧ n.toInt = v) ∧
      (read (c :: tail) = .error .tooLarge ↔ digits ≠ [] ∧ ∃ v, r.Positional digits v ∧ 2147483648 ≤ v) ∧
      (∀ n, read (c :: tail) = .ok n → 0 ≤ n.toInt) ∧
      ∀ column behind, Token.Apart (c :: tail) behind →
        Token.scanFrom column (c :: tail ++ behind) = match read (c :: tail) with
          | .ok n => (Token.scanFrom (column + (c :: tail).length) behind).map (⟨.number n, column⟩ :: ·)
          | .error .malformed => .error ⟨.badNumber (String.ofList (c :: tail)), column⟩
          | .error .tooLarge => .error ⟨.numberOutOfRange (String.ofList (c :: tail)), column⟩ := by
  obtain ⟨r, digits, marked⟩ : ∃ r digits, Marked (c :: tail) r digits := ⟨_, _, marked_iff.2 rfl⟩
  have denotes {v : Nat} : Denotes (c :: tail) v ↔ digits ≠ [] ∧ r.Positional digits v := denotes_iff marked
  have reads {n : Int32} : read (c :: tail) = .ok n ↔
      digits ≠ [] ∧ ∃ v, r.Positional digits v ∧ v ≤ 2147483647 ∧ n.toInt = v := by
    rw [read_eq_ok_iff_denotes]
    simp only [denotes, and_assoc, exists_and_left]
    rfl
  refine ⟨r, digits, fun s rest => ?_, ?_, fun n => reads, ?_, fun n h => ?_, fun column behind apart =>
    Token.scanFrom_numeral digit parts apart⟩
  · rw [marked_iff, marked_iff.1 marked, Prod.mk.injEq]
    exact and_congr eq_comm eq_comm
  · rw [read_eq_malformed_iff, ← not_exists]
    simp only [denotes, exists_and_left, Radix.exists_positional_iff, not_and_or, not_not, not_forall, not_exists,
      exists_prop]
  · rw [read_eq_tooLarge_iff]
    simp only [denotes, and_assoc, exists_and_left]
    rfl
  · obtain ⟨-, v, -, -, same⟩ := reads.1 h
    omega

/-- Zeros in front of the largest number are read, the next number is too large, and a wrong digit is reported before the
size. -/
theorem Numeral.read_positional_limit :
    (∃ v, Radix.hexadecimal.Positional "00007fFFffFF".toList v ∧ (2147483647 : Int32).toInt = v) ∧
    (∃ v, Radix.octal.Positional "020000000000".toList v ∧ 2147483648 ≤ v) ∧
    Token.scan "0X80000000g" = .error ⟨.badNumber "0X80000000g", 0⟩ := by
  refine ⟨?_, ?_, ?_⟩
  · obtain ⟨r, digits, marked, -, ok, -⟩ :=
      @read_positional '0' "x00007fFFffFF".toList rfl (List.all_eq_true.1 (by decide +kernel))
    obtain ⟨rfl, rfl⟩ := (marked _ _).1 (.hexadecimal (.inl rfl) "00007fFFffFF".toList)
    obtain ⟨-, v, positional, -, same⟩ := (ok 2147483647).1 (by decide +kernel)
    exact ⟨v, positional, same⟩
  · obtain ⟨r, digits, marked, -, -, large, -⟩ :=
      @read_positional '0' "o020000000000".toList rfl (List.all_eq_true.1 (by decide +kernel))
    obtain ⟨rfl, rfl⟩ := (marked _ _).1 (.octal (.inl rfl) "020000000000".toList)
    exact (large.1 (by decide +kernel)).2
  · obtain ⟨r, digits, marked, bad, -, -, -, line⟩ :=
      @read_positional '0' "X80000000g".toList rfl (List.all_eq_true.1 (by decide +kernel))
    obtain ⟨rfl, rfl⟩ := (marked _ _).1 (.hexadecimal (.inr rfl) "80000000g".toList)
    have wrong : ∀ v, ¬Radix.hexadecimal.IsDigit 'g' v := fun v h => by
      have read := Radix.digit?_eq_some_iff.2 h
      cases read
    have malformed := bad.2 (.inr ⟨'g', by decide +kernel, wrong⟩)
    have scan := line 0 [] (fun _ _ _ hd => nomatch hd)
    rw [malformed] at scan
    exact scan

end Z80Asm
