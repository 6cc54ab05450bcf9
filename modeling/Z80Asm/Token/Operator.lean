/-
The one-character symbols of a source line.
-/

namespace Z80Asm

/-- The symbols that are tokens by themselves. -/
inductive Operator
  | leftParen | rightParen | plus | comma | colon | minus
  deriving DecidableEq, Repr

namespace Operator

/-- The table of symbols. -/
def all : List Operator := [.leftParen, .rightParen, .plus, .comma, .colon, .minus]

/-- The character of a symbol. -/
def symbol : Operator → Char
  | .leftParen => '('
  | .rightParen => ')'
  | .plus => '+'
  | .comma => ','
  | .colon => ':'
  | .minus => '-'

/-- The identifier of a symbol in structured output. -/
def tag : Operator → String
  | .leftParen => "LParen"
  | .rightParen => "RParen"
  | .plus => "Plus"
  | .comma => "Comma"
  | .colon => "Colon"
  | .minus => "Minus"

instance : ToString Operator where
  toString o := String.singleton o.symbol

/-- The symbol that a character is. -/
def ofSymbol? (c : Char) : Option Operator := all.find? (·.symbol == c)

/-- The signs may stand before a number, and between the base and the displacement of an address. -/
def isSign : Operator → Bool
  | .plus | .minus => true
  | _ => false

/-- The number that a sign makes of its magnitude; negation wraps. -/
def signed? : Operator → Int32 → Option Int32
  | .plus, n => some n
  | .minus, n => some (-n)
  | _, _ => none

theorem ofSymbol?_symbol (o : Operator) : ofSymbol? o.symbol = some o := by cases o <;> rfl

theorem symbol_of_ofSymbol? {c : Char} {o : Operator} (h : ofSymbol? c = some o) : o.symbol = c := by
  simpa using List.find?_some h

theorem isSome_signed? (o : Operator) (n : Int32) : (o.signed? n).isSome = o.isSign := by
  cases o <;> rfl

end Operator

end Z80Asm
