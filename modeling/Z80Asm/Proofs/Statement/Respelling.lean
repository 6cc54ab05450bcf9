/-
Tokens that are spelled and placed otherwise. A statement is read from the upper case of names, and columns have no
part in it: from tokens with names of the same upper case and any columns the same statement is read, at the other
columns, or the same fault is found, at the other column (`Statement.ofTokens_map`).
-/
import Z80Asm.Proofs.Statement.Columns
import Z80Asm.Proofs.Statement.Walk

namespace Z80Asm

/-! ## Other names and columns -/

/-- What a token is, with its name spelled otherwise. -/
def TokenKind.map (spell : String → String) : TokenKind → TokenKind
  | .identifier name => .identifier (spell name)
  | kind => kind

/-- A token with another name and at another column. -/
def Token.map (spell : String → String) (place : Nat → Nat) (t : Token) : Token := ⟨t.kind.map spell, place t.column⟩

/-- Why there is no token, with the text spelled otherwise. A character by itself is no spelling of another. -/
def TokenFault.map (spell : String → String) : TokenFault → TokenFault
  | .unexpected c => .unexpected c
  | .badNumber text => .badNumber (spell text)
  | .numberOutOfRange text => .numberOutOfRange (spell text)

/-- A lexical error about another text and at another column. -/
def TokenError.map (spell : String → String) (place : Nat → Nat) (e : TokenError) : TokenError :=
  ⟨e.fault.map spell, place e.column⟩

/-- Why there is no statement, with the name spelled otherwise. -/
def SyntaxFault.map (spell : String → String) : SyntaxFault → SyntaxFault
  | .unknownOperand name => .unknownOperand (spell name)
  | .illegalAddressBase name => .illegalAddressBase (spell name)
  | fault => fault

/-- A syntax error about another name and at another column. -/
def SyntaxError.map (spell : String → String) (place : Nat → Nat) (e : SyntaxError) : SyntaxError :=
  ⟨e.fault.map spell, place e.column⟩

/-- Whether another spelling is the same up to letter case. -/
def KeepsUpper (spell : String → String) : Prop := ∀ name, (spell name).toUpper = name.toUpper

theorem keepsUpper_id : KeepsUpper id := fun _ => rfl

variable {spell : String → String} {place : Nat → Nat}

/-! ## Names -/

theorem Word.operand?_spell (h : KeepsUpper spell) (name : String) : operand? (spell name) = operand? name := by
  simp only [operand?, classify?, h name]

theorem Word.base?_spell (h : KeepsUpper spell) (name : String) : base? (spell name) = base? name := by
  simp only [base?, classify?, h name]

theorem Statement.mnemonic?_map (h : KeepsUpper spell) (t : Token) : mnemonic? (t.map spell place) = mnemonic? t := by
  obtain ⟨kind, column⟩ := t
  cases kind with
  | identifier name => exact congrArg Mnemonic.lookup? (h name)
  | _ => rfl

/-! ## Operands -/

namespace Node

theorem base_map (h : KeepsUpper spell) (t : Token) :
    base (t.map spell place) = ((base t).map (mapColumns place)).mapError (SyntaxError.map spell place) := by
  obtain ⟨kind, column⟩ := t
  cases kind with
  | identifier name =>
    simp only [base, Token.map, TokenKind.map, Word.base?_spell h]
    cases Word.base? name <;> rfl
  | _ => rfl

theorem sign_map (t : Token) :
    sign (t.map spell place) = ((sign t).map (mapColumns place)).mapError (SyntaxError.map spell place) := by
  obtain ⟨kind, column⟩ := t
  cases kind with
  | operator o => cases o <;> rfl
  | _ => rfl

theorem magnitude_map (t : Token) :
    magnitude (t.map spell place) = ((magnitude t).map (mapColumns place)).mapError (SyntaxError.map spell place) := by
  obtain ⟨kind, column⟩ := t
  cases kind <;> rfl

theorem addressChildren_map (h : KeepsUpper spell) (opening : Nat) : ∀ tokens : List Token,
    addressChildren (place opening) (tokens.map (Token.map spell place)) =
      ((addressChildren opening tokens).map (List.map (mapColumns place))).mapError (SyntaxError.map spell place)
  | [] => rfl
  | [⟨.number n, column⟩] => rfl
  | [⟨.operator o, column⟩] => rfl
  | [⟨.identifier name, column⟩] => by
    have based := @base_map spell place h ⟨.identifier name, column⟩
    simp only [List.map_cons, List.map_nil, Token.map, TokenKind.map] at based ⊢
    simp only [addressChildren, based]
    cases base ⟨.identifier name, column⟩ <;> rfl
  | [t, s] => rfl
  | [t, s, d] => by
    simp only [List.map_cons, List.map_nil, addressChildren, base_map h, sign_map, magnitude_map]
    cases base t with
    | error e => rfl
    | ok b =>
      cases sign s with
      | error e => rfl
      | ok o => cases magnitude d <;> rfl
  | t :: s :: d :: more :: rest => rfl

theorem closes_map (t : Token) : closes (t.map spell place) = closes t := by
  obtain ⟨kind, column⟩ := t
  cases kind <;> rfl

theorem lead_map (h : KeepsUpper spell) (t : Token) (rest : List Token) :
    lead (t.map spell place) (rest.map (Token.map spell place)) =
      ((lead t rest).map fun p => (p.1.mapColumns place, p.2)).mapError (SyntaxError.map spell place) := by
  obtain ⟨kind, column⟩ := t
  cases kind with
  | identifier name =>
    simp only [lead, Token.map, TokenKind.map, Word.operand?_spell h]
    cases Word.operand? name <;> rfl
  | number n => rfl
  | operator o =>
    cases o with
    | leftParen =>
      have inner : (rest.map (Token.map spell place)).takeWhile (fun t => !closes t) =
          (rest.takeWhile fun t => !closes t).map (Token.map spell place) := by
        rw [List.takeWhile_map]
        simp only [Function.comp_def, closes_map]
      simp only [lead, Token.map, TokenKind.map, inner, List.length_map]
      split
      · rw [addressChildren_map h]
        cases addressChildren column (rest.takeWhile fun t => !closes t) with
        | error e => rfl
        | ok children => simp only [Except.map, Except.mapError, mapColumns, mapAllColumns_eq]
      · rfl
    | _ =>
      -- a sign looks at the next token, and the other symbols are no operands
      rcases rest with _ | ⟨⟨kind, next⟩, more⟩
      · rfl
      · cases kind <;> rfl

theorem follows_map : ∀ tokens : List Token, Statement.follows (tokens.map (Token.map spell place)) =
    (Statement.follows tokens).mapError (SyntaxError.map spell place)
  | [] => rfl
  | ⟨.operator o, column⟩ :: more => by cases o <;> cases more <;> rfl
  | ⟨.identifier name, column⟩ :: more => rfl
  | ⟨.number n, column⟩ :: more => rfl

/-- The induction is on the number of tokens. -/
theorem operands_map (h : KeepsUpper spell) : ∀ tokens : List Token,
    operands (tokens.map (Token.map spell place)) =
      ((operands tokens).map (List.map (mapColumns place))).mapError (SyntaxError.map spell place)
  | [] => by simp only [List.map_nil, operands]; rfl
  | t :: rest => by
    rw [List.map_cons, Statement.operands_cons, Statement.operands_cons, lead_map h]
    cases lead t rest with
    | error e => rfl
    | ok p =>
      obtain ⟨node, extra⟩ := p
      simp only [Except.map, Except.mapError, ← List.map_drop, follows_map]
      cases Statement.follows (rest.drop extra) with
      | error e => rfl
      | ok more =>
        cases more with
        | false => rfl
        | true =>
          simp only [operands_map h (rest.drop (extra + 1))]
          cases operands (rest.drop (extra + 1)) <;> rfl
termination_by tokens => tokens.length
decreasing_by simp only [List.length_drop, List.length_cons]; omega

end Node

/-! ## Statements -/

namespace Statement

/-- Tokens with names of the same upper case and at other columns are the same statement at the other columns, or show
the same fault at the other column. -/
theorem ofTokens_map (h : KeepsUpper spell) (t : Token) (rest : List Token) :
    ofTokens ((t :: rest).map (Token.map spell place)) =
      ((ofTokens (t :: rest)).map (mapColumns place)).mapError (SyntaxError.map spell place) := by
  simp only [List.map_cons, ofTokens, mnemonic?_map h]
  cases mnemonic? t with
  | none => rfl
  | some m =>
    simp only [Node.operands_map h rest]
    cases Node.operands rest <;> rfl

end Statement

end Z80Asm
