/-
Encoders, and assembling single lines with one. An encoder turns a statement into bytes in a buffer that
is used again for every line, and adds its reports to those of earlier lines.
-/
import Z80Asm.Assembler.Diagnostic

namespace Z80Asm

/-- What an encoder writes to: a buffer for the bytes of one line, and the reports so far. -/
structure Output where
  bytes : List UInt8
  reports : List Diagnostic
  deriving DecidableEq, Repr

/-- The output before the first line. -/
def Output.empty : Output := ⟨[], []⟩

/-- The output with nothing in its buffer. -/
def Output.clear (out : Output) : Output := { out with bytes := [] }

/-- An encoder of statements, given the number of the line. The buffer holds the bytes after a success
and nothing after a failure. -/
abbrev Encoder : Type := Nat → Statement → Output → Except EvalError Unit × Output

namespace Encoder

/-- The encoder of the instruction set. Overflows are reported only if the whole statement has an
encoding. -/
def z80 : Encoder := fun line s out =>
  match s.encoding with
  | .error e => (.error e, out.clear)
  | .ok e => (.ok (), ⟨e.bytes, out.reports ++ (s.overflows e).map fun o => ⟨line, .overflow o⟩⟩)

/-- An encoder that writes more bytes after each statement. -/
def padded (tail : List UInt8) (encode : Encoder) : Encoder := fun line s out =>
  match encode line s out with
  | (.error e, out) => (.error e, out)
  | (.ok (), out) => (.ok (), { out with bytes := out.bytes ++ tail })

/-- The bytes of a statement, in a buffer of their own. -/
def evaluate (encode : Encoder) (line : Nat) (s : Statement) (reports : List Diagnostic) :
    Except EvalError (List UInt8) × List Diagnostic :=
  match encode line s ⟨[], reports⟩ with
  | (.error e, out) => (.error e, out.reports)
  | (.ok (), out) => (.ok out.bytes, out.reports)

/-! ## Lines -/

/-- A line assembled into an output that earlier lines have used. A line without a statement has no
bytes. -/
def assembleLine (encode : Encoder) (line : Nat) (text : String) (out : Output) :
    Except AsmError (List UInt8) × Output :=
  match Statement.ofLine? text with
  | .error e => (.error e, out.clear)
  | .ok none => (.ok [], out.clear)
  | .ok (some s) =>
    match encode line s out.clear with
    | (.error e, out) => (.error (.evaluation e), out)
    | (.ok (), out) => (.ok out.bytes, out)

end Encoder

/-- The bytes of a line and the warnings about it. -/
structure Encoded where
  bytes : List UInt8
  warnings : List Diagnostic
  deriving DecidableEq, Repr

/-- A line with a number, assembled by itself. -/
def encodeLineAt (line : Nat) (text : String) : Except AsmError Encoded :=
  match Encoder.z80.assembleLine line text .empty with
  | (.error e, _) => .error e
  | (.ok bytes, out) => .ok ⟨bytes, out.reports⟩

/-- A line by itself. -/
def encodeLine (text : String) : Except AsmError Encoded := encodeLineAt 1 text

/-- All reports about a line by itself: the warnings if it assembles, and otherwise its one error. -/
def diagnoseLine (line : Nat) (text : String) : List Diagnostic :=
  match encodeLineAt line text with
  | .ok encoded => encoded.warnings
  | .error e => [⟨line, .failure e⟩]

end Z80Asm
