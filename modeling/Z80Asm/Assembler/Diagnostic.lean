/-
Reports about lines of a source: a value that does not fit its field, which is only a warning, or an
error, which costs the line.
-/
import Z80Asm.Assembler.Error

namespace Z80Asm

/-- A value outside the range of its field, at the column of its operand. -/
structure Overflow where
  mnemonic : Mnemonic
  width : Width
  value : Int32
  column : Nat
  deriving DecidableEq, Repr

/-- The wording of an overflow. -/
def Overflow.message (o : Overflow) : String :=
  s!"{o.value} overflows {o.width.describe} of {Vocabulary.name o.mnemonic}"

/-- The overflows of a statement's machine instruction. -/
def Statement.overflows (s : Statement) (e : Encoding) : List Overflow :=
  e.overflows.map fun f => ⟨s.mnemonic, f.width, f.value, s.columnOf f.operand⟩

/-- What a diagnostic is about. -/
inductive Report
  | overflow (o : Overflow)
  | failure (e : AsmError)
  deriving DecidableEq, Repr

/-- A report about a line. -/
structure Diagnostic where
  line : Nat
  report : Report
  deriving DecidableEq, Repr

/-- How bad a diagnostic is. -/
inductive Severity
  | warning | error
  deriving DecidableEq, Repr

namespace Diagnostic

/-- The stage that a diagnostic comes from. -/
def kind (d : Diagnostic) : String :=
  match d.report with
  | .overflow _ => "Overflow"
  | .failure (.token _) => "Token"
  | .failure (.statement _) => "Syntax"
  | .failure (.evaluation _) => "Evaluation"

/-- Overflows are warnings, and all else is an error. -/
def severity (d : Diagnostic) : Severity :=
  match d.report with
  | .overflow _ => .warning
  | .failure _ => .error

/-- Whether the line of a diagnostic failed. -/
def isError (d : Diagnostic) : Bool := d.severity == .error

/-- The column of a diagnostic. -/
def column (d : Diagnostic) : Nat :=
  match d.report with
  | .overflow o => o.column
  | .failure e => e.column

/-- The wording of a diagnostic, without its place. -/
def message (d : Diagnostic) : String :=
  match d.report with
  | .overflow o => o.message
  | .failure e => e.message

/-- A diagnostic in one line of text. -/
def describe (d : Diagnostic) : String :=
  let severity := match d.severity with
    | .warning => "warning"
    | .error => "error"
  s!"{severity} at {d.line}:{d.column}: {d.message}"

end Diagnostic

end Z80Asm
