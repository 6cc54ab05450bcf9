/-
The register operands: single registers, the halves of the index registers, and the register pairs.
Codes are the values of the opcode field that the operand fills.
-/
import Z80Asm.Vocabulary.Basic

namespace Z80Asm

/-! ## Single registers -/

/-- The 8-bit registers. -/
inductive Register
  | B | C | D | E | H | L | A
  deriving DecidableEq, Repr

/-- Field value 6 is missing: it stands for the byte at `(HL)`. -/
instance : Vocabulary Register where
  all := [.B, .C, .D, .E, .H, .L, .A]
  name
    | .B => "B" | .C => "C" | .D => "D" | .E => "E" | .H => "H" | .L => "L" | .A => "A"
  code
    | .B => 0 | .C => 1 | .D => 2 | .E => 3 | .H => 4 | .L => 5 | .A => 7

/-- The interrupt vector base and the refresh counter. -/
inductive SpecialRegister
  | I | R
  deriving DecidableEq, Repr

instance : Vocabulary SpecialRegister where
  all := [.I, .R]
  name
    | .I => "I" | .R => "R"
  code
    | .I => 0 | .R => 1

/-! ## Pairs -/

/-- The register pairs of the two-bit pair field. -/
inductive NormalPair
  | BC | DE | HL | SP
  deriving DecidableEq, Repr

instance : Vocabulary NormalPair where
  all := [.BC, .DE, .HL, .SP]
  name
    | .BC => "BC" | .DE => "DE" | .HL => "HL" | .SP => "SP"
  code
    | .BC => 0 | .DE => 1 | .HL => 2 | .SP => 3

/-- The accumulator with the flags, and the copy of it that `EX` swaps in. -/
inductive SpecialPair
  | AF | AFShadow
  deriving DecidableEq, Repr

instance : Vocabulary SpecialPair where
  all := [.AF, .AFShadow]
  name
    | .AF => "AF" | .AFShadow => "AF'"
  code
    | .AF => 0 | .AFShadow => 1
  tag
    | .AF => "Af" | .AFShadow => "AfShadow"

/-- The index registers. -/
inductive IndexPair
  | IX | IY
  deriving DecidableEq, Repr

instance : Vocabulary IndexPair where
  all := [.IX, .IY]
  name
    | .IX => "IX" | .IY => "IY"
  code
    | .IX => 0 | .IY => 1

/-- The byte that makes the next opcode use an index register in place of `HL`. -/
def IndexPair.prefixByte : IndexPair → UInt8
  | .IX => 0xDD
  | .IY => 0xFD

/-! ## Halves of the index registers -/

/-- The low and high bytes of the index registers. -/
inductive IndexHalf
  | IXL | IXH | IYL | IYH
  deriving DecidableEq, Repr

instance : Vocabulary IndexHalf where
  all := [.IXL, .IXH, .IYL, .IYH]
  name
    | .IXL => "IXL" | .IXH => "IXH" | .IYL => "IYL" | .IYH => "IYH"
  code
    | .IXL => 0 | .IXH => 1 | .IYL => 2 | .IYH => 3

namespace IndexHalf

/-- The index register that a half belongs to. -/
def pair : IndexHalf → IndexPair
  | .IXL | .IXH => .IX
  | .IYL | .IYH => .IY

/-- The register that a half stands in for once the opcode is prefixed. -/
def replaces : IndexHalf → Register
  | .IXH | .IYH => .H
  | .IXL | .IYL => .L

/-- The register field of a half: that of `H` or `L`. -/
def field (h : IndexHalf) : UInt8 := Vocabulary.code h.replaces

end IndexHalf

end Z80Asm
