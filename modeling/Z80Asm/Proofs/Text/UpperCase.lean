/-
Texts in upper case. Only the small letters of ASCII have another upper case, which is a letter again, so that a
character stays in its classes and the other characters stay what they are.
-/
import Z80Asm.Proofs.Text.LetterCase
import Mathlib

namespace Z80Asm.Text

/-! ## Characters -/

theorem isLower_iff {c : Char} : c.isLower = true ↔ 97 ≤ c.toNat ∧ c.toNat ≤ 122 := by
  simp [Char.isLower, UInt32.le_iff_toNat_le, ← Char.toNat_val]

theorem isAlpha_of_isLower {c : Char} (h : c.isLower = true) : c.isAlpha = true := by
  show (c.isUpper || c.isLower) = true
  rw [h, Bool.or_true]

theorem isDigit_of_isAlpha {c : Char} (h : c.isAlpha = true) : c.isDigit = false := by
  have letter := isAlpha_iff.1 h
  rw [Bool.eq_false_iff]
  intro digit
  have number := isDigit_iff.1 digit
  omega

theorem toUpper_of_not_isAlpha {c : Char} (h : c.isAlpha = false) : c.toUpper = c :=
  Char.toUpper_eq_of_not_isLower fun lower => Bool.false_ne_true (h.symm.trans (isAlpha_of_isLower lower))

/-- A character that is no letter is the upper case of itself alone. -/
theorem toUpper_eq_iff {c k : Char} (hk : k.isAlpha = false) : c.toUpper = k ↔ c = k := by
  constructor
  · rintro rfl
    exact (toUpper_of_not_isAlpha ((Char.isAlpha_toUpper_eq_isAlpha c).symm.trans hk)).symm
  · rintro rfl
    exact toUpper_of_not_isAlpha hk

theorem toUpper_beq {k : Char} (hk : k.isAlpha = false) (c : Char) : (c.toUpper == k) = (c == k) := by
  rw [Bool.eq_iff_iff, beq_iff_eq, beq_iff_eq, toUpper_eq_iff hk]

theorem isDigit_toUpper (c : Char) : c.toUpper.isDigit = c.isDigit := by
  cases h : c.isAlpha with
  | false => rw [toUpper_of_not_isAlpha h]
  | true => rw [isDigit_of_isAlpha h, isDigit_of_isAlpha ((Char.isAlpha_toUpper_eq_isAlpha c).trans h)]

/-- The small letters are 32 behind the capital ones. -/
theorem toNat_toUpper {c : Char} (h : c.isLower = true) : c.toUpper.toNat = c.toNat - 32 := by
  have small := isLower_iff.1 h
  rw [Char.toUpper_eq_of_isLower h, Char.toNat_ofNat, if_pos (by unfold Nat.isValidChar; omega)]

/-- A character is a letter in one case or the other exactly if its upper case is. -/
theorem toUpper_eq_letter_iff {c small : Char} (hs : small.isLower = true) :
    c.toUpper = small ∨ c.toUpper = small.toUpper ↔ c = small ∨ c = small.toUpper := by
  constructor
  · rintro (rfl | h)
    · rw [Char.isLower_toUpper_eq_false] at hs
      cases hs
    · by_cases lower : c.isLower = true
      · have toNat := congrArg Char.toNat h
        rw [toNat_toUpper lower, toNat_toUpper hs] at toNat
        have first := isLower_iff.1 lower
        have second := isLower_iff.1 hs
        exact .inl (Char.toNat_inj.1 (by omega))
      · exact .inr ((Char.toUpper_eq_of_not_isLower lower).symm.trans h)
  · rintro (rfl | rfl)
    · exact .inr rfl
    · exact .inr (Char.toUpper_toUpper_eq_toUpper small)

/-! ## Words -/

theorem map_toUpper_toUpper (text : List Char) : (text.map Char.toUpper).map Char.toUpper = text.map Char.toUpper := by
  simp only [List.map_map, Function.comp_def, Char.toUpper_toUpper_eq_toUpper]

theorem toList_toUpper (s : String) : s.toUpper.toList = s.toList.map Char.toUpper := by
  rw [String.toUpper, String.map_eq_internal, String.toList_ofList]

theorem ofList_map_toUpper (text : List Char) : String.ofList (text.map Char.toUpper) = (String.ofList text).toUpper := by
  rw [String.toUpper, String.map_eq_internal, String.toList_ofList]

theorem toUpper_toUpper (s : String) : s.toUpper.toUpper = s.toUpper :=
  toUpper_eq_self (by rw [toList_toUpper, map_toUpper_toUpper])

end Z80Asm.Text
