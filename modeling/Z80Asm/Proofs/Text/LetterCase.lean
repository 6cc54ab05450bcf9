/-
Letters and digits of ASCII, by their numbers, and words in upper case.
-/

namespace Z80Asm.Text

theorem isDigit_iff {c : Char} : c.isDigit = true ↔ 48 ≤ c.toNat ∧ c.toNat ≤ 57 := by
  simp [Char.isDigit, UInt32.le_iff_toNat_le, ← Char.toNat_val]

theorem isAlpha_iff {c : Char} : c.isAlpha = true ↔ 65 ≤ c.toNat ∧ c.toNat ≤ 90 ∨ 97 ≤ c.toNat ∧ c.toNat ≤ 122 := by
  show (decide (c.val ≥ 'A'.val ∧ c.val ≤ 'Z'.val) || (c.val ≥ 'a'.val && c.val ≤ 'z'.val)) = true ↔ _
  simp [UInt32.le_iff_toNat_le, ← Char.toNat_val]

theorem isAlpha_of_toUpper {c : Char} (h : c.toUpper.isAlpha = true) : c.isAlpha = true := by
  by_cases lower : 'a'.val ≤ c.val ∧ c.val ≤ 'z'.val
  · show (c.isUpper || (decide ('a'.val ≤ c.val) && decide (c.val ≤ 'z'.val))) = true
    rw [decide_eq_true lower.1, decide_eq_true lower.2, Bool.and_true, Bool.or_true]
  · have same : c.toUpper = c := dif_neg lower
    rwa [same] at h

theorem toUpper_eq_self {s : String} (h : s.toList.map Char.toUpper = s.toList) : s.toUpper = s := by
  rw [String.toUpper, String.map_eq_internal, h, String.ofList_toList]

end Z80Asm.Text
