/-
What is sent to the log: events with a level, the part of the program that they come from, a message and named values.
-/
import Z80Asm.Assembler.Diagnostic

namespace Z80Asm

/-- The levels of the log, from the least to the most serious. -/
inductive Level
  | trace | debug | info | warn | error
  deriving DecidableEq, Repr

/-- The name of a level. -/
def Level.name : Level → String
  | .trace => "TRACE"
  | .debug => "DEBUG"
  | .info => "INFO"
  | .warn => "WARN"
  | .error => "ERROR"

/-- A named value of an event. -/
inductive EventValue
  | number (n : Nat)
  | text (s : String)
  deriving DecidableEq, Repr

/-- The text of a value. -/
def EventValue.describe : EventValue → String
  | .number n => toString n
  | .text s => s

/-- An event. -/
structure Event where
  level : Level
  target : String
  message : String
  fields : List (String × EventValue)
  deriving DecidableEq, Repr

/-- An event in one line of text. -/
def Event.describe (e : Event) : String :=
  let fields := e.fields.map fun (name, value) => String.join [" ", name, "=", value.describe]
  String.join [e.level.name, " ", e.target, ": ", e.message] ++ String.join fields

/-- The event that reports a diagnostic. -/
def Diagnostic.event (d : Diagnostic) : Event where
  level := match d.severity with
    | .warning => .warn
    | .error => .error
  target := "zasm_rs::diag"
  message := d.message
  fields := [("line", .number d.line), ("column", .number d.column), ("kind", .text d.kind)]

end Z80Asm
