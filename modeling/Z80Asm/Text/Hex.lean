/-
Hexadecimal notation, without a mark of its base.
-/

namespace Z80Asm.Text

/-- The fewest digits of a number, in lower case. -/
def hexLower (n : Nat) : List Char := Nat.toDigits 16 n

/-- The fewest digits of a number, in upper case. -/
def hexUpper (n : Nat) : List Char := (Nat.toDigits 16 n).map Char.toUpper

/-- The digits of a number in upper case, filled with zeros on the left to at least `width`. -/
def hexPadded (width : Nat) (n : Nat) : List Char := (hexUpper n).leftpad width '0'

/-- The digits of a 32-bit word, in lower case. A negative word is written as its two's complement. -/
def hexWord (n : Int32) : String := String.ofList (hexLower n.toUInt32.toNat)

/-- Two digits for each byte, with a space between bytes. -/
def hexDump (bytes : List UInt8) : String :=
  " ".intercalate (bytes.map fun b => String.ofList (hexPadded 2 b.toNat))

end Z80Asm.Text
