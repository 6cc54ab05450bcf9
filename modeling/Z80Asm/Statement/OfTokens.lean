/-
From tokens to a statement. The grammar is

    statement = mnemonic [ operand *( "," operand ) ]
    operand   = word | number | sign number | "(" address ")"
    address   = number | base | base sign number

and the first token that does not fit is the one at fault.
-/
import Z80Asm.Statement.Basic
import Z80Asm.Token.Basic

namespace Z80Asm

/-- How tokens fail to be a statement. -/
inductive SyntaxFault
  | empty
  | expectedMnemonic
  | unknownOperand (name : String)
  | unexpectedOperator (o : Operator)
  | unclosedParen
  | expectedComma
  | danglingComma
  | emptyAddress
  | illegalAddressBase (name : String)
  | malformedAddress
  deriving DecidableEq, Repr

/-- A fault at the column of the token that shows it. -/
structure SyntaxError where
  fault : SyntaxFault
  column : Nat
  deriving DecidableEq, Repr

/-- The wording of a fault. -/
def SyntaxFault.message : SyntaxFault → String
  | .empty => "empty statement"
  | .expectedMnemonic => "statement must start with a mnemonic"
  | .unknownOperand name => String.join ["unknown operand `", name, "`"]
  | .unexpectedOperator o => String.join ["unexpected operator `", toString o, "`"]
  | .unclosedParen => "unmatched `(`"
  | .expectedComma => "expected `,` between operands"
  | .danglingComma => "`,` not followed by an operand"
  | .emptyAddress => "empty address"
  | .illegalAddressBase name => String.join ["`", name, "` cannot be used inside an address"]
  | .malformedAddress => "address must be `(n)`, `(base)` or `(base+d)`"

/-- The wording of a syntax error. -/
def SyntaxError.message (e : SyntaxError) : String :=
  String.join ["syntax error at column ", toString e.column, ": ", e.fault.message]

/-! ## Addresses -/

namespace Node

/-- The base of an address, which has to be a word. -/
def base (t : Token) : Except SyntaxError Node :=
  match t.kind with
  | .identifier name =>
    match Word.base? name with
    | some w => .ok (.leaf (.word w) t.column)
    | none => .error ⟨.illegalAddressBase name, t.column⟩
  | _ => .error ⟨.malformedAddress, t.column⟩

/-- The sign between a base and a displacement. -/
def sign (t : Token) : Except SyntaxError Node :=
  match t.kind with
  | .operator o => if o.isSign then .ok (.leaf (.operator o) t.column) else .error ⟨.malformedAddress, t.column⟩
  | _ => .error ⟨.malformedAddress, t.column⟩

/-- The magnitude of a displacement. -/
def magnitude (t : Token) : Except SyntaxError Node :=
  match t.kind with
  | .number n => .ok (.leaf (.immediate n) t.column)
  | _ => .error ⟨.malformedAddress, t.column⟩

/-- The nodes for the tokens between two parentheses, of which the first is at the column `opening`. -/
def addressChildren (opening : Nat) : List Token → Except SyntaxError (List Node)
  | [] => .error ⟨.emptyAddress, opening⟩
  | [t] =>
    match t.kind with
    | .number n => .ok [.leaf (.immediate n) t.column]
    | _ => (base t).map fun b => [b]
  | [t, s, d] => do return [← base t, ← sign s, ← magnitude d]
  | _ :: extra :: _ => .error ⟨.malformedAddress, extra.column⟩

/-! ## Operands -/

/-- Whether a token closes a parenthesis. -/
def closes (t : Token) : Bool := t.kind == .operator .rightParen

/-- The operand that starts with the token `t`, and how many of the tokens after `t` belong to it. A
parenthesis reaches to the first closing one; a sign right before a number is part of the number. -/
def lead (t : Token) (rest : List Token) : Except SyntaxError (Node × Nat) :=
  match t.kind with
  | .identifier name =>
    match Word.operand? name with
    | some w => .ok (.leaf (.word w) t.column, 0)
    | none => .error ⟨.unknownOperand name, t.column⟩
  | .number n => .ok (.leaf (.immediate n) t.column, 0)
  | .operator .leftParen =>
    let inner := rest.takeWhile fun t => !closes t
    if inner.length < rest.length then
      (addressChildren t.column inner).map fun children => (.address children t.column, inner.length + 1)
    else .error ⟨.unclosedParen, t.column⟩
  | .operator o =>
    match rest with
    | ⟨.number n, _⟩ :: _ =>
      match o.signed? n with
      | some value => .ok (.leaf (.immediate value) t.column, 1)
      | none => .error ⟨.unexpectedOperator o, t.column⟩
    | _ => .error ⟨.unexpectedOperator o, t.column⟩

/-- The operands of a statement, with single commas between them. -/
def operands : List Token → Except SyntaxError (List Node)
  | [] => .ok []
  | t :: rest =>
    match lead t rest with
    | .error e => .error e
    | .ok (node, extra) =>
      match _h : rest.drop extra with
      | [] => .ok [node]
      | ⟨.operator .comma, column⟩ :: more =>
        if more.isEmpty then .error ⟨.danglingComma, column⟩
        else
          match operands more with
          | .error e => .error e
          | .ok nodes => .ok (node :: nodes)
      | separator :: _ => .error ⟨.expectedComma, separator.column⟩
termination_by tokens => tokens.length
decreasing_by
  have := congrArg List.length _h
  simp only [List.length_drop, List.length_cons] at this ⊢
  omega

end Node

/-! ## Statements -/

namespace Statement

/-- The mnemonic that a token spells, in any letter case. -/
def mnemonic? (t : Token) : Option Mnemonic :=
  match t.kind with
  | .identifier name => Mnemonic.lookup? name.toUpper
  | _ => none

/-- The statement that tokens make. -/
def ofTokens : List Token → Except SyntaxError Statement
  | [] => .error ⟨.empty, 0⟩
  | t :: rest =>
    match mnemonic? t with
    | none => .error ⟨.expectedMnemonic, t.column⟩
    | some m => (Node.operands rest).map fun nodes => ⟨m, t.column, nodes⟩

end Statement

end Z80Asm
