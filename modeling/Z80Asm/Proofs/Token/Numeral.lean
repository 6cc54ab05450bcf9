/-
How numbers are spelled. A numeral is the mark of a base and digits of this base, and it is read as the number that
the digits stand for (`Numeral.read_eq_ok_iff`); every number from zero up has a decimal spelling.
-/
import Z80Asm.Token.Numeral
import Z80Asm.Proofs.Text.LetterCase
import Z80Asm.Proofs.Token.Walk

namespace Z80Asm

/-- The marks that name a base. Decimal numerals have none. -/
def Radix.marks : Radix → List (List Char)
  | .octal => [['0', 'o'], ['0', 'O']]
  | .decimal => [[]]
  | .hexadecimal => [['0', 'x'], ['0', 'X']]

/-- The texts that spell a number: the mark of a base, then one or more digits, in either letter case and with any
number of leading zeros. -/
inductive Numeral.Spells : List Char → Int32 → Prop
  | intro {r : Radix} {mark digits : List Char} {values : List Nat} {n : Int32} (hm : mark ∈ r.marks) (ne : digits ≠ [])
    (hd : digits.map r.digit? = values.map some) (hv : (r.value values : Int) = n.toInt) : Spells (mark ++ digits) n

/-- The number that a numeral stands for, whatever its size. -/
inductive Numeral.Denotes : List Char → Nat → Prop
  | intro {r : Radix} {mark digits : List Char} {values : List Nat} (hm : mark ∈ r.marks) (ne : digits ≠ [])
    (hd : digits.map r.digit? = values.map some) : Denotes (mark ++ digits) (r.value values)

namespace Numeral

/-! ## Digits -/

theorem mapM_eq_some_iff {f : Char → Option Nat} {text : List Char} {values : List Nat} :
    text.mapM f = some values ↔ text.map f = values.map some := by
  induction text generalizing values with
  | nil => cases values <;> simp
  | cons c text ih =>
    rw [List.mapM_cons]
    cases hc : f c with
    | none => cases values <;> simp [hc]
    | some d =>
      cases ht : text.mapM f with
      | none =>
        have none (ds : List Nat) : text.map f ≠ ds.map some := fun h => by
          rw [ih.2 h] at ht
          cases ht
        cases values <;> simp [hc, none]
      | some ds =>
        have all := ih.1 ht
        cases values <;> simp [hc, all, List.map_inj_right]

theorem digits?_eq_some_iff {r : Radix} {text : List Char} {values : List Nat} :
    digits? r text = some values ↔ text ≠ [] ∧ text.map r.digit? = values.map some := by
  rw [digits?, ← mapM_eq_some_iff]
  cases text <;> simp

theorem exists_digit {f : Char → Option Nat} {text : List Char} {values : List Nat} (h : text.map f = values.map some)
    {c : Char} (hc : c ∈ text) : ∃ d, f c = some d := by
  have : f c ∈ values.map some := h ▸ List.mem_map_of_mem hc
  obtain ⟨d, -, hd⟩ := List.mem_map.1 this
  exact ⟨d, hd.symm⟩

/-- The digits of any base are decimal digits and letters. -/
theorem of_digit? {r : Radix} {c : Char} {d : Nat} (h : r.digit? c = some d) :
    c.isDigit = true ∨ 'a' ≤ c ∧ c ≤ 'f' ∨ 'A' ≤ c ∧ c ≤ 'F' := by
  obtain ⟨hv, -⟩ := Option.filter_eq_some_iff.1 h
  by_cases hd : c.isDigit = true
  · exact .inl hd
  · rw [if_neg hd] at hv
    by_cases hl : 'a' ≤ c ∧ c ≤ 'f'
    · exact .inr (.inl hl)
    · rw [if_neg hl] at hv
      by_cases hu : 'A' ≤ c ∧ c ≤ 'F'
      · exact .inr (.inr hu)
      · rw [if_neg hu] at hv
        cases hv

theorem isWordPart_of_digit? {r : Radix} {c : Char} {d : Nat} (h : r.digit? c = some d) : Token.isWordPart c = true := by
  rcases of_digit? h with hd | hl
  · exact Token.isWordPart_of_isDigit hd
  · simp only [Char.le_def, UInt32.le_iff_toNat_le, Char.toNat_val] at hl
    have letters : 'a'.toNat = 97 ∧ 'f'.toNat = 102 ∧ 'A'.toNat = 65 ∧ 'F'.toNat = 70 := ⟨rfl, rfl, rfl, rfl⟩
    have alpha : c.isAlpha = true := Text.isAlpha_iff.2 (by omega)
    simp [Token.isWordPart, Char.isAlphanum, alpha]

/-- Letters are no decimal digits. -/
theorem isDigit_of_digit? {c : Char} {d : Nat} (h : Radix.decimal.digit? c = some d) : c.isDigit = true := by
  obtain ⟨hv, lt⟩ := Option.filter_eq_some_iff.1 h
  have lt : d < 10 := of_decide_eq_true lt
  by_contra hd
  rw [if_neg hd] at hv
  split at hv
  · cases hv
    omega
  · split at hv
    · cases hv
      omega
    · cases hv

/-! ## Marks -/

theorem split_append {r : Radix} {mark digits : List Char} {values : List Nat} (hm : mark ∈ r.marks)
    (hd : digits.map r.digit? = values.map some) : split (mark ++ digits) = (r, digits) := by
  cases r with
  | octal => simp only [Radix.marks, List.mem_cons, List.not_mem_nil, or_false] at hm; rcases hm with rfl | rfl <;> rfl
  | hexadecimal => simp only [Radix.marks, List.mem_cons, List.not_mem_nil, or_false] at hm; rcases hm with rfl | rfl <;> rfl
  | decimal =>
    obtain rfl : mark = [] := by simpa [Radix.marks] using hm
    -- the second character of a mark is no decimal digit
    have letter (c : Char) (hc : c.isDigit = false) (first : Char) : digits.take 2 ≠ [first, c] := fun h => by
      have mem : c ∈ digits := List.mem_of_mem_take (h ▸ by simp : c ∈ digits.take 2)
      obtain ⟨d, hd⟩ := exists_digit hd mem
      rw [isDigit_of_digit? hd] at hc
      cases hc
    simp [split, letter 'x' rfl, letter 'X' rfl, letter 'o' rfl, letter 'O' rfl]

theorem exists_mark (text : List Char) : ∃ mark ∈ (split text).1.marks, text = mark ++ (split text).2 := by
  have cut := (List.take_append_drop 2 text).symm
  unfold split
  simp only
  split
  · rename_i h
    rcases h with h | h <;> exact ⟨_, by simp [Radix.marks, h], cut⟩
  · split
    · rename_i h
      rcases h with h | h <;> exact ⟨_, by simp [Radix.marks, h], cut⟩
    · exact ⟨[], by simp [Radix.marks], rfl⟩

/-! ## Reading -/

/-- What is read is what is spelled. -/
theorem read_eq_ok_iff {text : List Char} {n : Int32} : read text = .ok n ↔ Spells text n := by
  constructor
  · intro h
    obtain ⟨mark, hm, cut⟩ := exists_mark text
    unfold read at h
    generalize split text = parts at hm cut h
    obtain ⟨r, digits⟩ := parts
    subst cut
    simp only at h
    split at h
    · cases h
    · rename_i values hv
      obtain ⟨ne, hd⟩ := digits?_eq_some_iff.1 hv
      split at h
      · rename_i le
        cases h
        exact .intro hm ne hd (Int32.toInt_ofNat_of_lt (Nat.lt_of_le_of_lt le (by decide))).symm
      · cases h
  · rintro ⟨hm, ne, hd, hv⟩
    rename_i r mark digits values
    have le : r.value values ≤ maximum := by
      have := n.toInt_lt
      unfold maximum
      omega
    have same : Int32.ofNat (r.value values) = n := by
      rw [← Int32.toInt_inj, Int32.toInt_ofNat_of_lt (Nat.lt_of_le_of_lt le (by decide)), hv]
    rw [read, split_append hm hd]
    simp only [digits?_eq_some_iff.2 ⟨ne, hd⟩, if_pos le, same]

theorem read_of_denotes {text : List Char} {v : Nat} (h : Denotes text v) :
    read text = if v ≤ maximum then .ok (Int32.ofNat v) else .error .tooLarge := by
  obtain ⟨hm, ne, hd⟩ := h
  rw [read, split_append hm hd]
  simp only [digits?_eq_some_iff.2 ⟨ne, hd⟩]

/-- A text that is no numeral stands for no number. -/
theorem read_eq_malformed_iff {text : List Char} : read text = .error .malformed ↔ ∀ v, ¬Denotes text v := by
  constructor
  · intro h v hv
    rw [read_of_denotes hv] at h
    split at h <;> cases h
  · intro none
    obtain ⟨mark, hm, cut⟩ := exists_mark text
    cases hd : digits? (split text).1 (split text).2 with
    | none => simp only [read, hd]
    | some values =>
      obtain ⟨ne, digits⟩ := digits?_eq_some_iff.1 hd
      have denotes : Denotes (mark ++ (split text).2) _ := .intro hm ne digits
      rw [← cut] at denotes
      exact absurd denotes (none _)

/-- A numeral that does not fit stands for a number above the largest that does. -/
theorem read_eq_tooLarge_iff {text : List Char} :
    read text = .error .tooLarge ↔ ∃ v, Denotes text v ∧ maximum < v := by
  constructor
  · intro h
    have numeral : ¬∀ v, ¬Denotes text v := fun none => by
      rw [read_eq_malformed_iff.2 none] at h
      cases h
    obtain ⟨v, hv⟩ := not_forall_not.1 numeral
    rw [read_of_denotes hv] at h
    split at h
    · cases h
    · rename_i large
      exact ⟨v, hv, Nat.lt_of_not_le large⟩
  · rintro ⟨v, hv, large⟩
    rw [read_of_denotes hv, if_neg (Nat.not_le.2 large)]

/-- A number is read from the texts that stand for it, if it fits. -/
theorem read_eq_ok_iff_denotes {text : List Char} {n : Int32} :
    read text = .ok n ↔ ∃ v, Denotes text v ∧ v ≤ maximum ∧ n.toInt = v := by
  constructor
  · intro h
    obtain ⟨hm, ne, hd, hv⟩ := read_eq_ok_iff.1 h
    refine ⟨_, .intro hm ne hd, ?_, hv.symm⟩
    have := n.toInt_lt
    unfold maximum
    omega
  · rintro ⟨_, ⟨hm, ne, hd⟩, -, same⟩
    exact read_eq_ok_iff.2 (.intro hm ne hd same.symm)

/-- A numeral begins with a digit, and all its characters can go on a word. -/
theorem Spells.exists_cons {text : List Char} {n : Int32} (h : Spells text n) :
    ∃ c tail, text = c :: tail ∧ c.isDigit = true ∧ ∀ d ∈ tail, Token.isWordPart d = true := by
  obtain ⟨hm, ne, hd, -⟩ := h
  rename_i r mark digits values
  have parts : ∀ c ∈ digits, Token.isWordPart c = true := fun c hc =>
    have ⟨_, h⟩ := exists_digit hd hc
    isWordPart_of_digit? h
  -- the first character of a mark is a zero
  have marked (c : Char) (hc : Token.isWordPart c = true) (h : mark = ['0', c]) :
      ∃ c tail, mark ++ digits = c :: tail ∧ c.isDigit = true ∧ ∀ d ∈ tail, Token.isWordPart d = true :=
    ⟨'0', c :: digits, by rw [h]; rfl, rfl, List.forall_mem_cons.2 ⟨hc, parts⟩⟩
  cases r with
  | octal =>
    simp only [Radix.marks, List.mem_cons, List.not_mem_nil, or_false] at hm
    rcases hm with h | h
    · exact marked 'o' rfl h
    · exact marked 'O' rfl h
  | hexadecimal =>
    simp only [Radix.marks, List.mem_cons, List.not_mem_nil, or_false] at hm
    rcases hm with h | h
    · exact marked 'x' rfl h
    · exact marked 'X' rfl h
  | decimal =>
    obtain rfl : mark = [] := by simpa [Radix.marks] using hm
    obtain ⟨c, tail, rfl⟩ := List.exists_cons_of_ne_nil ne
    obtain ⟨d, h⟩ := exists_digit hd List.mem_cons_self
    exact ⟨c, tail, rfl, isDigit_of_digit? h, fun d hd => parts d (List.mem_cons_of_mem c hd)⟩

theorem Spells.nonneg {text : List Char} {n : Int32} (h : Spells text n) : 0 ≤ n.toInt := by
  obtain ⟨-, -, -, hv⟩ := h
  omega

/-! ## Decimal spellings -/

theorem digit?_of_isDigit {c : Char} (h : c.isDigit = true) : Radix.decimal.digit? c = some (c.toNat - '0'.toNat) := by
  have lt : c.toNat - '0'.toNat < 10 := by
    have range := Text.isDigit_iff.1 h
    have zero : '0'.toNat = 48 := rfl
    omega
  simp only [Radix.digit?, if_pos h]
  exact Option.filter_eq_some_iff.2 ⟨rfl, decide_eq_true lt⟩

/-- The decimal digits of a number from zero up spell it. -/
theorem spells_toDigits {n : Int32} (h : 0 ≤ n.toInt) : Spells (Nat.toDigits 10 n.toInt.toNat) n := by
  have value : Nat.ofDigitChars 10 (Nat.toDigits 10 n.toInt.toNat) 0 = n.toInt.toNat :=
    Nat.ofDigitChars_toDigits (by decide) (by decide)
  have digits : (Nat.toDigits 10 n.toInt.toNat).map Radix.decimal.digit? =
      ((Nat.toDigits 10 n.toInt.toNat).map fun c => c.toNat - '0'.toNat).map some := by
    rw [List.map_map]
    exact List.map_congr_left fun c hc => digit?_of_isDigit (Nat.isDigit_of_mem_toDigits (by decide) (by decide) hc)
  have none : [] ∈ Radix.decimal.marks := List.mem_singleton_self _
  refine .intro none Nat.toDigits_ne_nil digits ?_
  have fold : Radix.decimal.value ((Nat.toDigits 10 n.toInt.toNat).map fun c => c.toNat - '0'.toNat) =
      Nat.ofDigitChars 10 (Nat.toDigits 10 n.toInt.toNat) 0 := by
    simp only [Radix.value, Nat.ofDigitChars, List.foldl_map, Radix.base, Nat.mul_comm]
  rw [fold, value, Int.toNat_of_nonneg h]

end Numeral

end Z80Asm
