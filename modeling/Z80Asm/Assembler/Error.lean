/-
What can be wrong with a line: its characters, the order of its tokens, or the operands of its mnemonic.
Every error has a column, and a wording that is computed from its cause.
-/
import Z80Asm.Machine.InstructionSet
import Z80Asm.Statement.OfTokens
import Z80Asm.Token.Scan

namespace Z80Asm

/-! ## Evaluation -/

/-- A mnemonic without an encoding for its operands, at the column that shows why. -/
structure EvalError where
  mnemonic : Mnemonic
  fault : Fault
  column : Nat
  deriving DecidableEq, Repr

/-- The wording of an evaluation error. -/
def EvalError.message (e : EvalError) : String :=
  match e.fault with
  | .illegalOperands => s!"no encoding of {Vocabulary.name e.mnemonic} for these operands"
  | .outOfRange value => s!"immediate {value} out of range for {Vocabulary.name e.mnemonic}"
  | .badBitIndex value => s!"bit index {value} is not in 0..=7"
  | .badRestart value => s!"restart vector 0x{Text.hexWord value} is not a multiple of 8 in 0x00..=0x38"
  | .badInterruptMode value => s!"interrupt mode {value} is not 0, 1 or 2"
  | .malformedAddress => s!"malformed address among the operands of {Vocabulary.name e.mnemonic}"

/-- The evaluation error that a fault is in a statement. -/
def Statement.failure (s : Statement) (fault : Fault) : EvalError :=
  ⟨s.mnemonic, fault, (fault.operand?.map s.columnOf).getD s.column⟩

/-- The fault of operands that are none. -/
def OperandFault.fault : OperandFault → Fault
  | .notAnOperand => .illegalOperands
  | .malformedAddress => .malformedAddress

/-- The machine instruction that a statement stands for. -/
def Statement.encoding (s : Statement) : Except EvalError Encoding :=
  match Operand.ofNodes s.operands with
  | .error fault => .error (s.failure fault.fault)
  | .ok operands =>
    match s.mnemonic.encode operands with
    | .error fault => .error (s.failure fault)
    | .ok e => .ok e

/-! ## Lines -/

/-- What can be wrong with a line. -/
inductive AsmError
  | token (e : TokenError)
  | statement (e : SyntaxError)
  | evaluation (e : EvalError)
  deriving DecidableEq, Repr

namespace AsmError

/-- The column of an error. -/
def column : AsmError → Nat
  | .token e => e.column
  | .statement e => e.column
  | .evaluation e => e.column

/-- The wording of an error. -/
def message : AsmError → String
  | .token e => e.message
  | .statement e => e.message
  | .evaluation e => e.message

end AsmError

/-- The statement of a line; none, if the line has no tokens. -/
def Statement.ofLine? (text : String) : Except AsmError (Option Statement) :=
  match Token.scan text with
  | .error e => .error (.token e)
  | .ok [] => .ok none
  | .ok (t :: more) =>
    match Statement.ofTokens (t :: more) with
    | .error e => .error (.statement e)
    | .ok s => .ok (some s)

end Z80Asm
