/-
Sets of code points, written as ranges.
-/

namespace Z80Asm.Text

/-- A set of code points: inclusive ranges. -/
abbrev CodePoints : Type := List (Nat × Nat)

/-- Whether a character is in the set. -/
def CodePoints.contains (s : CodePoints) (c : Char) : Bool :=
  s.any fun r => r.1 ≤ c.toNat && c.toNat ≤ r.2

theorem CodePoints.contains_iff {s : CodePoints} {c : Char} :
    s.contains c = true ↔ ∃ r ∈ s, r.1 ≤ c.toNat ∧ c.toNat ≤ r.2 := by
  simp [CodePoints.contains]

end Z80Asm.Text
