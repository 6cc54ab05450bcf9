/-
The immediate fields of an instruction. A field holds the low bytes of its value; a value outside the
field's range is cut off to them all the same, and reported.
-/

namespace Z80Asm

/-- The kinds of immediate fields: 8-bit data, signed 8-bit offsets, and 16-bit data and addresses. -/
inductive Width
  | u8 | s8 | w16
  deriving DecidableEq, Repr

namespace Width

/-- The least value in the range of a field. Data may also be written as a negative number. -/
def least : Width → Int
  | .u8 => -0x80
  | .s8 => -0x80
  | .w16 => -0x8000

/-- The greatest value in the range of a field. -/
def greatest : Width → Int
  | .u8 => 0xFF
  | .s8 => 0x7F
  | .w16 => 0xFFFF

/-- Whether a value is in the range of a field. -/
def fits (w : Width) (value : Int32) : Bool := w.least ≤ value.toInt && value.toInt ≤ w.greatest

/-- The name of a field in reports. -/
def describe : Width → String
  | .u8 => "8-bit immediate"
  | .s8 => "signed 8-bit offset"
  | .w16 => "16-bit immediate"

/-- The lowest byte of a value's two's complement. -/
def lowByte (value : Int32) : UInt8 := UInt8.ofNat (value.toInt % 256).toNat

/-- The byte above the lowest of a value's two's complement. -/
def highByte (value : Int32) : UInt8 := UInt8.ofNat (value.toInt / 256 % 256).toNat

/-- The bytes of a field that holds a value, low byte first. -/
def bytes (w : Width) (value : Int32) : List UInt8 :=
  match w with
  | .u8 | .s8 => [lowByte value]
  | .w16 => [lowByte value, highByte value]

end Width

/-- A value in an immediate field, with the position of the operand it comes from. -/
structure Field where
  width : Width
  value : Int32
  operand : Nat
  deriving DecidableEq, Repr

namespace Field

/-- The bytes of a field. -/
def bytes (f : Field) : List UInt8 := f.width.bytes f.value

/-- Whether the value of a field is outside the field's range. -/
def overflows (f : Field) : Bool := !f.width.fits f.value

end Field

end Z80Asm
