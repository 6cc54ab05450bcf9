/-
What the program leaves to libraries: the structured form of values and its text, the log, and how an error is shown that
ends a run.
-/
import Z80Asm.Assembler.Event
import Z80Asm.Json.Encode

namespace Z80Asm.Cli

/-- The values that have a structured form. -/
inductive Value
  | tokens (ts : List Token)
  | statement (s : Statement)
  | encoded (e : Encoded)
  | severity (s : Severity)
  | diagnostic (d : Diagnostic)
  | entry (e : Entry)
  | listing (l : Listing)

/-- The libraries. A record of the log may show its time, so its text depends on how many lines are before it. -/
structure Libraries where
  form : Value → Json
  text : Json → Except String String
  enabled : Event → Bool
  record : Nat → Event → String
  shown : String → String

namespace Libraries

/-- The text of a value in structured form. -/
def print (lib : Libraries) (v : Value) : Except String String := (lib.text (lib.form v)).map (· ++ "\n")

/-- The records of events, of those that the log lets through. -/
def log (lib : Libraries) (events : List Event) : List String := (events.filter lib.enabled).mapIdx lib.record

end Libraries

/-- The structured form of a value. -/
def Value.json : Value → Json
  | .tokens ts => .array (ts.map Token.json)
  | .statement s => s.json
  | .encoded e => e.json
  | .severity s => s.json
  | .diagnostic d => d.json
  | .entry e => e.json
  | .listing l => l.json

/-- Libraries whose log has neither times nor colours. It shows warnings and errors. -/
def Libraries.plain : Libraries where
  form := Value.json
  text j := .ok j.pretty
  enabled e := e.level == .warn || e.level == .error
  record _ e := e.describe
  shown message := message

end Z80Asm.Cli
