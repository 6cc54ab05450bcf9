/-
Reading a line in upper case. Its tokens and its errors are those of the line, at the same columns, with their texts in
upper case (`Token.scan_toUpper`): classes of characters, digits and the marks of bases are the same in either letter
case.
-/
import Z80Asm.Proofs.Text.UpperCase
import Z80Asm.Proofs.Statement.Respelling
import Z80Asm.Token.Scan

namespace Z80Asm

/-! ## Numerals -/

theorem Radix.digit?_toUpper (r : Radix) (c : Char) : r.digit? c.toUpper = r.digit? c := by
  by_cases lower : c.isLower = true
  · have toNat := Text.toNat_toUpper lower
    have small := Text.isLower_iff.1 lower
    have digit := Text.isDigit_of_isAlpha (Text.isAlpha_of_isLower lower)
    have letters : 'a'.toNat = 97 ∧ 'f'.toNat = 102 ∧ 'A'.toNat = 65 ∧ 'F'.toNat = 70 := ⟨rfl, rfl, rfl, rfl⟩
    simp only [digit?, Text.isDigit_toUpper, digit, Bool.false_eq_true, if_false, Char.le_def, UInt32.le_iff_toNat_le,
      Char.toNat_val, toNat]
    -- `a` to `f` stand for the same numbers as `A` to `F`, and the letters behind them for none
    by_cases hex : c.toNat ≤ 102
    · rw [if_neg (by omega), if_pos (by omega), if_pos (by omega)]
      exact congrArg (Option.filter _) (congrArg some (by omega))
    · rw [if_neg (by omega), if_neg (by omega), if_neg (by omega), if_neg (by omega)]
  · rw [Char.toUpper_eq_of_not_isLower lower]

namespace Numeral

theorem digits?_toUpper (r : Radix) (text : List Char) : digits? r (text.map Char.toUpper) = digits? r text := by
  simp only [digits?, List.isEmpty_map, List.mapM_map, Function.comp_def, Radix.digit?_toUpper]

/-- A text starts with the mark of a base exactly if its upper case does. -/
theorem toUpper_eq_mark_iff (small : Char) (hs : small.isLower = true) : ∀ mark : List Char,
    mark.map Char.toUpper = ['0', small] ∨ mark.map Char.toUpper = ['0', small.toUpper] ↔
      mark = ['0', small] ∨ mark = ['0', small.toUpper]
  | [] => by simp
  | [_] => by simp
  | [a, b] => by
    have letter := Text.toUpper_eq_letter_iff (c := b) hs
    have zero : a.toUpper = '0' ↔ a = '0' := Text.toUpper_eq_iff rfl
    simp only [List.map_cons, List.map_nil, List.cons.injEq, and_true, zero, ← and_or_left, letter]
  | _ :: _ :: _ :: _ => by simp

theorem split_toUpper (text : List Char) : split (text.map Char.toUpper) = ((split text).1, (split text).2.map Char.toUpper) := by
  have hexadecimal := toUpper_eq_mark_iff 'x' rfl (text.take 2)
  have octal := toUpper_eq_mark_iff 'o' rfl (text.take 2)
  rw [show 'x'.toUpper = 'X' from rfl] at hexadecimal
  rw [show 'o'.toUpper = 'O' from rfl] at octal
  simp only [split, ← List.map_take, ← List.map_drop, hexadecimal, octal]
  split
  · rfl
  · split <;> rfl

theorem read_toUpper (text : List Char) : read (text.map Char.toUpper) = read text := by
  simp only [read, split_toUpper, digits?_toUpper]

end Numeral

namespace Token

/-! ## Character classes -/

theorem isBlank_toUpper (c : Char) : isBlank c.toUpper = isBlank c := by
  simp only [isBlank, Text.toUpper_beq (k := ' ') rfl, Text.toUpper_beq (k := '\t') rfl, Text.toUpper_beq (k := '\n') rfl,
    Text.toUpper_beq (k := '\x0c') rfl, Text.toUpper_beq (k := '\r') rfl]

theorem isWordStart_toUpper (c : Char) : isWordStart c.toUpper = isWordStart c := by
  rw [isWordStart, isWordStart, Char.isAlpha_toUpper_eq_isAlpha, Text.toUpper_beq rfl]

theorem isWordPart_toUpper (c : Char) : isWordPart c.toUpper = isWordPart c := by
  simp only [isWordPart, Char.isAlphanum, Char.isAlpha_toUpper_eq_isAlpha, Text.isDigit_toUpper, Text.toUpper_beq (k := '_') rfl]

theorem takeWhile_toUpper (rest : List Char) :
    (rest.map Char.toUpper).takeWhile isWordPart = (rest.takeWhile isWordPart).map Char.toUpper := by
  simp only [List.takeWhile_map, Function.comp_def, isWordPart_toUpper]

/-! ## One token -/

theorem isAF_toUpper (word : List Char) : isAF (word.map Char.toUpper) = isAF word := by
  rw [isAF, isAF, Text.map_toUpper_toUpper]

/-- The quote of `AF'` follows the word in upper case exactly if it follows the word. -/
theorem wordTail_toUpper (c : Char) (rest : List Char) :
    wordTail c.toUpper (rest.map Char.toUpper) = (wordTail c rest).map Char.toUpper := by
  have quote (text : List Char) : ((text.map Char.toUpper).head? == some '\x27') = (text.head? == some '\x27') := by
    cases text with
    | nil => rfl
    | cons d _ => exact Text.toUpper_beq (k := '\x27') rfl d
  simp only [wordTail, takeWhile_toUpper, ← List.map_cons, isAF_toUpper, List.length_map, ← List.map_drop, quote]
  split
  · rw [List.map_append]
    rfl
  · rfl

theorem ofSymbol?_toUpper (c : Char) : Operator.ofSymbol? c.toUpper = Operator.ofSymbol? c := by
  have same (o : Operator) : (o.symbol == c.toUpper) = (o.symbol == c) := by
    rw [BEq.comm, Text.toUpper_beq (by cases o <;> rfl), BEq.comm]
  simp only [Operator.ofSymbol?, same]

theorem lead_toUpper (c : Char) (rest : List Char) :
    lead c.toUpper (rest.map Char.toUpper) =
      ((lead c rest).map fun p => (p.1.map String.toUpper, p.2)).mapError (TokenFault.map String.toUpper) := by
  simp only [lead, isWordStart_toUpper, Text.isDigit_toUpper, wordTail_toUpper, takeWhile_toUpper, ← List.map_cons,
    List.length_map, Numeral.read_toUpper, Text.ofList_map_toUpper, ofSymbol?_toUpper]
  split
  · rfl
  · rename_i hw
    split
    · rcases Numeral.read (c :: rest.takeWhile isWordPart) with (_ | _) | n <;> rfl
    · cases Operator.ofSymbol? c with
      | some o => rfl
      | none =>
        have letter : c.isAlpha = false := (Bool.or_eq_false_iff.1 (Bool.eq_false_iff.2 hw)).1
        rw [Text.toUpper_of_not_isAlpha letter]
        rfl

/-! ## A line -/

theorem scanFrom_toUpper (column : Nat) (text : List Char) :
    scanFrom column (text.map Char.toUpper) =
      ((scanFrom column text).map (List.map (Token.map String.toUpper id))).mapError (TokenError.map String.toUpper id) := by
  fun_induction scanFrom column text with
  | case1 =>
    rw [List.map_nil, scanFrom]
    rfl
  | case2 column c rest hb ih => rw [List.map_cons, scanFrom, isBlank_toUpper, if_pos hb, ih]
  | case3 column rest hb =>
    rw [List.map_cons, scanFrom, isBlank_toUpper, if_neg hb, if_pos (Text.toUpper_of_not_isAlpha rfl)]
    rfl
  | case4 column c rest hb hc fault hl =>
    rw [List.map_cons, scanFrom, isBlank_toUpper, if_neg hb, if_neg (mt (Text.toUpper_eq_iff rfl).1 hc), lead_toUpper, hl]
    rfl
  | case5 column c rest hb hc kind extra hl e he ih =>
    rw [he] at ih
    rw [List.map_cons, scanFrom, isBlank_toUpper, if_neg hb, if_neg (mt (Text.toUpper_eq_iff rfl).1 hc), lead_toUpper, hl]
    simp only [Except.map, Except.mapError, ← List.map_drop, ih]
  | case6 column c rest hb hc kind extra hl tokens ht ih =>
    rw [ht] at ih
    rw [List.map_cons, scanFrom, isBlank_toUpper, if_neg hb, if_neg (mt (Text.toUpper_eq_iff rfl).1 hc), lead_toUpper, hl]
    simp only [Except.map, Except.mapError, ← List.map_drop, ih]
    rfl

/-- The tokens of a line in upper case are those of the line, and so is the error that there is in place of them. -/
theorem scan_toUpper (line : String) :
    scan line.toUpper =
      ((scan line).map (List.map (Token.map String.toUpper id))).mapError (TokenError.map String.toUpper id) := by
  rw [scan, Text.toList_toUpper, scanFrom_toUpper, scan]

end Token

end Z80Asm
