/-
The tokens of a source line, each with the byte column where it starts, and the ways in which a line
fails to have any.
-/
import Z80Asm.Token.Operator
import Z80Asm.Text.Quoted

namespace Z80Asm

/-- What a token is. Identifiers keep the spelling of the line. -/
inductive TokenKind
  | operator (o : Operator)
  | identifier (name : String)
  | number (n : Int32)
  deriving DecidableEq, Repr

/-- A token and the number of bytes before it in its line. -/
structure Token where
  kind : TokenKind
  column : Nat
  deriving DecidableEq, Repr

/-- The text of a token in a listing of tokens. -/
def Token.describe (t : Token) : String :=
  match t.kind with
  | .operator o => s!"OPERATOR {o}"
  | .identifier name => s!"IDENTIFIER {name}"
  | .number n => s!"NUMBER {n}"

/-! ## Lexical errors -/

/-- Why no token can be read. -/
inductive TokenFault
  | unexpected (c : Char)
  | badNumber (text : String)
  | numberOutOfRange (text : String)
  deriving DecidableEq, Repr

/-- A lexical error at the byte column of the character or numeral at fault. -/
structure TokenError where
  fault : TokenFault
  column : Nat
  deriving DecidableEq, Repr

/-- The wording of a lexical error. -/
def TokenError.message (e : TokenError) : String :=
  match e.fault with
  | .unexpected c => s!"unidentifiable character {Text.quoted c} at column {e.column}"
  | .badNumber text => s!"malformed number \"{text}\" at column {e.column}"
  | .numberOutOfRange text => s!"number \"{text}\" at column {e.column} does not fit in 32 bits"

end Z80Asm
