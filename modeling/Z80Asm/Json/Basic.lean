/-
Structured output: JSON values with integers, whose objects keep the order of their members, and their
text over several lines.
-/
import Z80Asm.Text.Hex

namespace Z80Asm

/-- A JSON value. -/
inductive Json
  | number (n : Int)
  | string (s : String)
  | array (items : List Json)
  | object (members : List (String × Json))

namespace Json

/-! ## Strings -/

/-- A character of a string. Quotes, backslashes and controls are escaped, and nothing else. -/
def escaped (c : Char) : List Char :=
  if c = '\x22' ∨ c = '\\' then ['\\', c]
  else if c = '\x08' then ['\\', 'b']
  else if c = '\x0c' then ['\\', 'f']
  else if c = '\n' then ['\\', 'n']
  else if c = '\r' then ['\\', 'r']
  else if c = '\t' then ['\\', 't']
  else if c.toNat < 0x20 then ['\\', 'u'] ++ (Text.hexLower c.toNat).leftpad 4 '0'
  else [c]

/-- A string in double quotes. -/
def quoted (s : String) : String := String.ofList (['\x22'] ++ s.toList.flatMap escaped ++ ['\x22'])

/-! ## Layout -/

/-- The blanks at the start of a line at a level of nesting. -/
def indent (depth : Nat) : String := String.ofList (List.replicate (2 * depth) ' ')

mutual

/-- A value as text: a member or item a line, two blanks a level. -/
def render (depth : Nat) : Json → String
  | .number n => toString n
  | .string s => quoted s
  | .array [] => "[]"
  | .array (item :: more) =>
    "[\n" ++ indent (depth + 1) ++ render (depth + 1) item ++ renderItems (depth + 1) more ++
      "\n" ++ indent depth ++ "]"
  | .object [] => "\x7b\x7d"
  | .object ((key, value) :: more) =>
    "\x7b\n" ++ indent (depth + 1) ++ quoted key ++ ": " ++ render (depth + 1) value ++
      renderMembers (depth + 1) more ++ "\n" ++ indent depth ++ "\x7d"

/-- The items after the first. -/
def renderItems (depth : Nat) : List Json → String
  | [] => ""
  | item :: more => ",\n" ++ indent depth ++ render depth item ++ renderItems depth more

/-- The members after the first. -/
def renderMembers (depth : Nat) : List (String × Json) → String
  | [] => ""
  | (key, value) :: more =>
    ",\n" ++ indent depth ++ quoted key ++ ": " ++ render depth value ++ renderMembers depth more

end

/-- The text of a value. -/
def pretty (j : Json) : String := render 0 j

/-- An object with one member, which says what its value is. -/
def tagged (tag : String) (value : Json) : Json := .object [(tag, value)]

/-- Bytes as numbers. -/
def ofBytes (bytes : List UInt8) : Json := .array (bytes.map fun b => .number b.toNat)

end Json

end Z80Asm
