/-
The structured form of tokens, statements, diagnostics and listings.
-/
import Z80Asm.Json.Basic
import Z80Asm.Assembler.Listing

namespace Z80Asm

/-! ## Tokens and statements -/

/-- A value of a vocabulary. -/
def Json.ofVocabulary {α : Type} [Vocabulary α] (x : α) : Json := .string (Vocabulary.tag x)

/-- What something is, and where. -/
def Json.located (kind : Json) (column : Nat) : Json := .object [("kind", kind), ("column", .number column)]

/-- The kind of a token. -/
def TokenKind.json : TokenKind → Json
  | .operator o => .tagged "Operator" (.string o.tag)
  | .identifier name => .tagged "Identifier" (.string name)
  | .number n => .tagged "Number" (.number n.toInt)

/-- A token. -/
def Token.json (t : Token) : Json := .located t.kind.json t.column

/-- A classified word, under the name of its vocabulary. -/
def Word.json : Word → Json
  | .register x => .tagged "Register" (.ofVocabulary x)
  | .specialRegister x => .tagged "SpecialRegister" (.ofVocabulary x)
  | .indexHalf x => .tagged "IndexHalf" (.ofVocabulary x)
  | .normalPair x => .tagged "NormalPair" (.ofVocabulary x)
  | .specialPair x => .tagged "SpecialPair" (.ofVocabulary x)
  | .indexPair x => .tagged "IndexPair" (.ofVocabulary x)
  | .condition x => .tagged "Condition" (.ofVocabulary x)

/-- The kind of a leaf. -/
def Leaf.json : Leaf → Json
  | .mnemonic m => .tagged "Mnemonic" (.ofVocabulary m)
  | .word w => w.json
  | .immediate n => .tagged "Immediate" (.number n.toInt)
  | .operator o => .tagged "Operator" (.string o.tag)

mutual

/-- A node. -/
def Node.json : Node → Json
  | .leaf l column => .located l.json column
  | .address children column => .located (.tagged "Address" (.array (Node.jsonAll children))) column

/-- Nodes that stand side by side. -/
def Node.jsonAll : List Node → List Json
  | [] => []
  | n :: more => n.json :: Node.jsonAll more

end

/-- A statement. -/
def Statement.json (s : Statement) : Json :=
  .object [("mnemonic", s.root.json), ("operands", .array (Node.jsonAll s.operands))]

/-! ## Diagnostics and listings -/

/-- How bad a diagnostic is. -/
def Severity.json : Severity → Json
  | .warning => .string "Warning"
  | .error => .string "Error"

/-- A diagnostic. -/
def Diagnostic.json (d : Diagnostic) : Json :=
  .object [("kind", .string d.kind), ("severity", d.severity.json), ("line", .number d.line),
    ("column", .number d.column), ("message", .string d.message)]

/-- The bytes and warnings of a line. -/
def Encoded.json (e : Encoded) : Json :=
  .object [("bytes", .ofBytes e.bytes), ("warnings", .array (e.warnings.map Diagnostic.json))]

/-- A line of a listing. -/
def Entry.json (e : Entry) : Json :=
  .object [("line", .number e.line), ("address", .number e.address.toNat), ("bytes", .ofBytes e.bytes),
    ("source", .string e.source)]

/-- A listing. -/
def Listing.json (l : Listing) : Json :=
  .object [("entries", .array (l.entries.map Entry.json)),
    ("diagnostics", .array (l.diagnostics.map Diagnostic.json))]

end Z80Asm
