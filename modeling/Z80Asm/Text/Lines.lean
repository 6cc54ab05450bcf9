/-
The lines of a text. A line ends at a line feed; one carriage return right before the line feed
belongs to the ending, any other one to the line. A text that ends in a line feed has no empty line
after it.
-/

namespace Z80Asm.Text

/-- The lines of a text as characters. -/
def splitLines : List Char → List (List Char)
  | [] => []
  | c :: rest =>
    if c = '\n' then [] :: splitLines rest
    else if c = '\r' ∧ rest.head? = some '\n' then splitLines rest
    else
      match splitLines rest with
      | [] => [[c]]
      | line :: more => (c :: line) :: more

/-- The lines of a text. -/
def lines (s : String) : List String := (splitLines s.toList).map String.ofList

end Z80Asm.Text
