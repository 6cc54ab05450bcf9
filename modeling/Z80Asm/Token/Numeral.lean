/-
Numerals. A numeral is a digit followed by letters, digits and underscores; its first two characters
may name a base. What follows them is read as a positional number of that base, which has to fit the
non-negative half of a signed 32-bit word.
-/

namespace Z80Asm

/-- The bases a numeral can be written in. -/
inductive Radix
  | octal | decimal | hexadecimal
  deriving DecidableEq, Repr

/-- Why a text is no numeral. -/
inductive NumeralFault
  | malformed
  | tooLarge
  deriving DecidableEq, Repr

namespace Radix

/-- The number of digits of a base. -/
def base : Radix → Nat
  | .octal => 8
  | .decimal => 10
  | .hexadecimal => 16

/-- The value of a digit, in either letter case. -/
def digit? (r : Radix) (c : Char) : Option Nat :=
  let value :=
    if c.isDigit then some (c.toNat - '0'.toNat)
    else if 'a' ≤ c ∧ c ≤ 'f' then some (c.toNat - 'a'.toNat + 10)
    else if 'A' ≤ c ∧ c ≤ 'F' then some (c.toNat - 'A'.toNat + 10)
    else none
  value.filter (· < r.base)

/-- The number that digits stand for, most significant first. -/
def value (r : Radix) (digits : List Nat) : Nat := digits.foldl (fun n d => n * r.base + d) 0

end Radix

namespace Numeral

/-- The base that a numeral names by its first two characters, and the digits after the name; decimal, if
they name none. -/
def split (text : List Char) : Radix × List Char :=
  let mark := text.take 2
  if mark = ['0', 'x'] ∨ mark = ['0', 'X'] then (.hexadecimal, text.drop 2)
  else if mark = ['0', 'o'] ∨ mark = ['0', 'O'] then (.octal, text.drop 2)
  else (.decimal, text)

/-- The largest number a numeral can stand for. -/
def maximum : Nat := 0x7FFFFFFF

/-- The digits of a text in a base. There is at least one, and nothing else. -/
def digits? (r : Radix) (text : List Char) : Option (List Nat) :=
  if text.isEmpty then none else text.mapM r.digit?

/-- The number that a numeral stands for. A wrong digit counts before the size. -/
def read (text : List Char) : Except NumeralFault Int32 :=
  let (radix, rest) := split text
  match digits? radix rest with
  | none => .error .malformed
  | some digits =>
    let n := radix.value digits
    if n ≤ maximum then .ok (Int32.ofNat n) else .error .tooLarge

end Numeral

end Z80Asm
