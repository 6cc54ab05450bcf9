/-
Reading a line into tokens. Blanks separate tokens and a semicolon ends the line; a word or a numeral
takes as many characters as it can, and a symbol takes one.
-/
import Z80Asm.Token.Basic
import Z80Asm.Token.Numeral

namespace Z80Asm.Token

/-! ## Character classes -/

/-- The blanks between tokens: the white space of ASCII, without the vertical tab. -/
def isBlank (c : Char) : Bool :=
  c == ' ' || c == '\t' || c == '\n' || c == '\x0c' || c == '\r'

/-- The characters that can start a word. -/
def isWordStart (c : Char) : Bool := c.isAlpha || c == '_'

/-- The characters that can go on a word or a numeral. -/
def isWordPart (c : Char) : Bool := c.isAlphanum || c == '_'

/-! ## One token -/

/-- The spelling of `AF`, in any letter case. It is the one word that a quote can follow. -/
def isAF (word : List Char) : Bool := word.map Char.toUpper == ['A', 'F']

/-- The rest of a word that starts with `c`: as many characters as can go on a word, and then the quote
of `AF'`. -/
def wordTail (c : Char) (rest : List Char) : List Char :=
  let tail := rest.takeWhile isWordPart
  if isAF (c :: tail) && (rest.drop tail.length).head? == some '\x27' then tail ++ ['\x27'] else tail

/-- The token that starts with the character `c`, and how many of the characters after `c` belong to
it. -/
def lead (c : Char) (rest : List Char) : Except TokenFault (TokenKind × Nat) :=
  if isWordStart c then
    let tail := wordTail c rest
    .ok (.identifier (String.ofList (c :: tail)), tail.length)
  else if c.isDigit then
    let tail := rest.takeWhile isWordPart
    match Numeral.read (c :: tail) with
    | .ok n => .ok (.number n, tail.length)
    | .error .malformed => .error (.badNumber (String.ofList (c :: tail)))
    | .error .tooLarge => .error (.numberOutOfRange (String.ofList (c :: tail)))
  else
    match Operator.ofSymbol? c with
    | some o => .ok (.operator o, 0)
    | none => .error (.unexpected c)

/-! ## A line -/

/-- The tokens of a text that starts at a byte column. All characters of a token are ASCII, so each of
them counts for one byte. -/
def scanFrom (column : Nat) : List Char → Except TokenError (List Token)
  | [] => .ok []
  | c :: rest =>
    if isBlank c then scanFrom (column + 1) rest
    else if c = ';' then .ok []
    else
      match lead c rest with
      | .error fault => .error ⟨fault, column⟩
      | .ok (kind, extra) =>
        match scanFrom (column + 1 + extra) (rest.drop extra) with
        | .error e => .error e
        | .ok tokens => .ok (⟨kind, column⟩ :: tokens)
termination_by text => text.length
decreasing_by
  · simp
  · simp only [List.length_cons, List.length_drop]; omega

/-- The tokens of a line. -/
def scan (line : String) : Except TokenError (List Token) := scanFrom 0 line.toList

end Z80Asm.Token
