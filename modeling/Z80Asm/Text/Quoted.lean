/-
A character as it is named in a message: between single quotes, with an escape where the character
would not show.
-/
import Z80Asm.Text.DefaultIgnorable
import Z80Asm.Text.GraphemeExtend
import Z80Asm.Text.Printable
import Z80Asm.Text.Hex

namespace Z80Asm.Text

/-- A character, or the escape for one that would not show as itself or would be misread. -/
def escaped (c : Char) : List Char :=
  if c = '\x00' then ['\\', '0']
  else if c = '\t' then ['\\', 't']
  else if c = '\r' then ['\\', 'r']
  else if c = '\n' then ['\\', 'n']
  else if c = '\x27' ∨ c = '\\' then ['\\', c]
  else if combines c || isIgnorable c || !isPrintable c then
    ['\\', 'u', '\x7b'] ++ hexLower c.toNat ++ ['\x7d']
  else [c]

/-- A character between single quotes. -/
def quoted (c : Char) : String := String.ofList (['\x27'] ++ escaped c ++ ['\x27'])

end Z80Asm.Text
