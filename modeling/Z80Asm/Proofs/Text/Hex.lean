/-
Reading hexadecimal notation in upper case. A number that is written with zeros in front is read back
(`Text.hexNumber?_hexPadded`), and a byte takes two digits.
-/
import Z80Asm.Text.Hex
import Mathlib.Data.Nat.Digits.Defs

namespace Z80Asm.Text

/-! ## Reading -/

/-- The number that a digit stands for. Small letters are no digits here. -/
def hexDigit? (c : Char) : Option Nat :=
  if '0' ≤ c ∧ c ≤ '9' then some (c.toNat - '0'.toNat)
  else if 'A' ≤ c ∧ c ≤ 'F' then some (c.toNat - 'A'.toNat + 10)
  else none

/-- A number with one more digit behind it. -/
def shiftIn? (n : Nat) (c : Char) : Option Nat := (hexDigit? c).map (16 * n + ·)

/-- The number that digits stand for, if all characters are digits. -/
def hexNumber? (digits : List Char) : Option Nat := digits.foldlM shiftIn? 0

/-- The byte that two digits stand for. -/
def hexByte? (digits : List Char) : Option UInt8 :=
  if digits.length = 2 then (hexNumber? digits).map UInt8.ofNat else none

/-! ## What is written is read -/

theorem hexDigit?_digitChar {v : Nat} (h : v < 16) : hexDigit? v.digitChar.toUpper = some v := by
  have table : ∀ v < 16, hexDigit? v.digitChar.toUpper = some v := by decide
  exact table v h

theorem isSome_hexDigit? {digits : List Char} {n m : Nat} (h : digits.foldlM shiftIn? n = some m) :
    ∀ c ∈ digits, (hexDigit? c).isSome = true := by
  induction digits generalizing n with
  | nil => exact nofun
  | cons d digits ih =>
    rw [List.foldlM_cons] at h
    obtain ⟨k, hk, more⟩ := Option.bind_eq_some_iff.1 h
    obtain ⟨v, hv, -⟩ := Option.map_eq_some_iff.1 hk
    intro c hc
    rcases List.mem_cons.1 hc with rfl | hc
    · rw [hv, Option.isSome_some]
    · exact ih more c hc

/-- Digits that stand for a number have no other character among them. -/
theorem notMem_of_hexNumber? {digits : List Char} {n : Nat} (h : hexNumber? digits = some n) {c : Char}
    (hc : hexDigit? c = none) : c ∉ digits := fun mem => by
  have some := isSome_hexDigit? h c mem
  rw [hc] at some
  cases some

theorem notMem_of_hexByte? {digits : List Char} {b : UInt8} (h : hexByte? digits = some b) {c : Char}
    (hc : hexDigit? c = none) : c ∉ digits := by
  rw [hexByte?] at h
  split at h
  · obtain ⟨n, hn, -⟩ := Option.map_eq_some_iff.1 h
    exact notMem_of_hexNumber? hn hc
  · cases h

/-- The last digit is the remainder, and those in front of it are the digits of the quotient. -/
theorem hexNumber?_hexUpper (n : Nat) : hexNumber? (hexUpper n) = some n := by
  induction n using Nat.strongRecOn with
  | _ n ih =>
    by_cases small : n < 16
    · rw [hexUpper, Nat.toDigits_of_lt_base small, hexNumber?, List.map_singleton, List.foldlM_cons, shiftIn?,
        hexDigit?_digitChar small]
      show some (16 * 0 + n) = some n
      rw [Nat.mul_zero, Nat.zero_add]
    · have front : (hexUpper (n / 16)).foldlM shiftIn? 0 = some (n / 16) := ih (n / 16) (by omega)
      have last : shiftIn? (n / 16) (n % 16).digitChar.toUpper = some n := by
        rw [shiftIn?, hexDigit?_digitChar (Nat.mod_lt n (by decide)), Option.map_some, Nat.div_add_mod]
      have cut : hexUpper n = hexUpper (n / 16) ++ [(n % 16).digitChar.toUpper] := by
        rw [hexUpper, Nat.toDigits_of_base_le (by decide) (by omega), List.map_append, List.map_singleton, hexUpper]
      rw [hexNumber?, cut, List.foldlM_append, front]
      simp only [List.foldlM_cons, last, List.foldlM_nil, Option.bind_eq_bind, Option.bind_some, Option.pure_def]

theorem foldlM_shiftIn?_zeros (k : Nat) : (List.replicate k '0').foldlM shiftIn? 0 = some 0 := by
  induction k with
  | zero => rfl
  | succ k ih =>
    have zero : shiftIn? 0 '0' = some 0 := rfl
    rw [List.replicate_succ, List.foldlM_cons, zero]
    exact ih

theorem hexNumber?_hexPadded (width n : Nat) : hexNumber? (hexPadded width n) = some n := by
  rw [hexNumber?, hexPadded, List.leftpad, List.foldlM_append, foldlM_shiftIn?_zeros]
  exact hexNumber?_hexUpper n

theorem length_hexPadded_byte (b : UInt8) : (hexPadded 2 b.toNat).length = 2 := by
  have digits : (Nat.toDigits 16 b.toNat).length ≤ 2 := Nat.toDigits_length 16 b.toNat 2 (by decide) b.toNat_lt
  rw [hexPadded, List.length_leftpad, hexUpper, List.length_map]
  omega

theorem hexByte?_hexPadded (b : UInt8) : hexByte? (hexPadded 2 b.toNat) = some b := by
  rw [hexByte?, if_pos (length_hexPadded_byte b), hexNumber?_hexPadded, Option.map_some, UInt8.ofNat_toNat]

theorem notMem_hexPadded {c : Char} (h : hexDigit? c = none) (width n : Nat) : c ∉ hexPadded width n :=
  notMem_of_hexNumber? (hexNumber?_hexPadded width n) h

end Z80Asm.Text
