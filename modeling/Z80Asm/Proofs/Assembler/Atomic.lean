/-
Encoding is all or nothing (`Encoder.z80_atomic`). Whatever code is run for a mnemonic, and wherever it stops,
a failure leaves an empty buffer and no new reports; a success leaves the bytes of the statement, whatever the
buffer held before. The encoder of the instruction set runs the code of its mnemonics (`Encoder.running_dispatch`).
-/
import Z80Asm.Proofs.Assembler.Statement
import Z80Asm.Proofs.Emitter.Table

namespace Z80Asm.Encoder

/-- What a statement comes to: an error, or its bytes and reports. No buffer and no earlier report has a part in it. -/
abbrev Outcome : Type := Except EvalError (List UInt8 × List Diagnostic)

/-- An outcome, in the output that it is written to. -/
def Outcome.output (r : Outcome) (out : Output) : Except EvalError Unit × Output :=
  match r with
  | .error e => (.error e, ⟨[], out.reports⟩)
  | .ok (bytes, reports) => (.ok (), ⟨bytes, out.reports ++ reports⟩)

theorem running_outcome (code : Mnemonic → List Operand → Emitter Unit) (line : Nat) (s : Statement) :
    ∃ r : Outcome, ∀ out, running code line s out = r.output out := by
  cases hxs : Operand.ofNodes s.operands with
  | error fault =>
    refine ⟨.error (s.failure fault.fault), fun out => ?_⟩
    simp only [running, hxs]
    rfl
  | ok xs =>
    -- the code starts in a cleared buffer, so that it is run once for all outputs
    rcases hd : code s.mnemonic xs s ⟨[], []⟩ with ⟨e | _, d⟩
    · refine ⟨.error e, fun out => ?_⟩
      simp only [running, hxs, Output.clear, hd]
      rfl
    · refine ⟨.ok (d.buffer, d.pending.map fun o => ⟨line, .overflow o⟩), fun out => ?_⟩
      simp only [running, hxs, Output.clear, hd]
      rfl

/-- The encoder of the instruction set runs the code of the mnemonics. -/
theorem running_dispatch : running Emitter.dispatch = z80 := by
  funext line s out
  simp only [running, z80, Statement.encoding, Emitter.dispatch_eq]
  cases Operand.ofNodes s.operands with
  | error fault => rfl
  | ok xs => cases h : s.mnemonic.encode xs <;> simp [h, Emitter.settled, Output.clear]; rfl

theorem evaluate_of_outcome {encode : Encoder} {line : Nat} {s : Statement} {r : Outcome}
    (h : ∀ out, encode line s out = r.output out) (reports : List Diagnostic) :
    evaluate encode line s reports = match r with
      | .error e => (.error e, reports)
      | .ok (bytes, more) => (.ok bytes, reports ++ more) := by
  rw [evaluate, h]
  cases r <;> rfl

/-- What the encoder comes to with a statement is settled by the statement: at least one byte and some reports, or
an error with an empty buffer and no report. The same holds with any other code of the mnemonics, stopped anywhere. -/
theorem z80_atomic :
    z80 = running Emitter.dispatch ∧
    (∀ code line s, ∃ r : Outcome, ∀ out, running code line s out = r.output out) ∧
    ∀ line s,
      (∃ bytes reports, bytes ≠ [] ∧ ∀ out, z80 line s out = (.ok (), ⟨bytes, out.reports ++ reports⟩) ∧
        evaluate z80 line s out.reports = (.ok bytes, out.reports ++ reports)) ∨
      ∃ e, ∀ out, z80 line s out = (.error e, ⟨[], out.reports⟩) ∧
        evaluate z80 line s out.reports = (.error e, out.reports) := by
  refine ⟨running_dispatch.symm, running_outcome, fun line s => ?_⟩
  cases he : s.encoding with
  | error e =>
    right
    refine ⟨e, fun out => ⟨z80_of_error he, ?_⟩⟩
    exact evaluate_of_outcome (r := .error e) (fun out => z80_of_error he) out.reports
  | ok e =>
    left
    have ho : ∀ out, z80 line s out = Outcome.output (.ok (e.bytes, (s.overflows e).map fun o => ⟨line, .overflow o⟩)) out :=
      fun out => z80_of_encoding he
    refine ⟨e.bytes, _, e.bytes_ne_nil, fun out => ⟨ho out, ?_⟩⟩
    exact evaluate_of_outcome ho out.reports

end Z80Asm.Encoder
