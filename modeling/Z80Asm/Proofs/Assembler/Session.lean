/-
Lines that share a buffer and a list of reports. Each step comes to what it comes to alone, whatever has been
assembled before it (`Encoder.session_alone`), if the encoder keeps the contract of encoders (`Encoder.Lawful`).
-/
import Z80Asm.Proofs.Assembler.Line
import Z80Asm.Proofs.Assembler.Atomic

namespace Z80Asm

namespace Encoder

/-! ## The contract of encoders -/

/-- What an encoder answers, what it reports and what it leaves in the buffer depend on the line and the statement
alone, and a failure leaves the buffer empty. -/
structure Lawful (encode : Encoder) : Prop where
  independent : ∀ line s out, encode line s out =
    ((encode line s .empty).1, ⟨(encode line s .empty).2.bytes, out.reports ++ (encode line s .empty).2.reports⟩)
  empty_of_error : ∀ line s e, (encode line s .empty).1 = .error e → (encode line s .empty).2.bytes = []

theorem lawful_of_outcome {encode : Encoder} (h : ∀ line s, ∃ r : Outcome, ∀ out, encode line s out = r.output out) :
    encode.Lawful := by
  refine ⟨fun line s out => ?_, fun line s e he => ?_⟩
  · obtain ⟨r, hr⟩ := h line s
    rw [hr, hr]
    cases r with
    | error e => exact congrArg (Prod.mk _) (congrArg (Output.mk []) (List.append_nil _).symm)
    | ok p => rfl
  · obtain ⟨r, hr⟩ := h line s
    rw [hr] at he ⊢
    cases r with
    | error e => rfl
    | ok p => cases he

theorem lawful_z80 : z80.Lawful := by
  rw [← running_dispatch]
  exact lawful_of_outcome (running_outcome Emitter.dispatch)

/-- The contract is kept by an encoder that writes more bytes after each success. -/
theorem Lawful.padded {encode : Encoder} (h : encode.Lawful) (tail : List UInt8) : (padded tail encode).Lawful := by
  refine ⟨fun line s out => ?_, fun line s e he => ?_⟩
  · simp only [Encoder.padded]
    rw [h.independent line s out]
    rcases encode line s .empty with ⟨_ | _, d⟩ <;> rfl
  · have hd := h.empty_of_error line s e
    simp only [Encoder.padded] at he ⊢
    rcases hr : encode line s .empty with ⟨_ | _, d⟩
    · rw [hr] at hd he
      exact hd he
    · rw [hr] at he
      cases he

/-! ## One step -/

/-- What a result leaves in the buffer. -/
def buffer : Except AsmError (List UInt8) → List UInt8
  | .ok bytes => bytes
  | .error _ => []

/-- A step after other steps is the step alone, behind the reports of the others. -/
theorem Lawful.assembleLine_eq {encode : Encoder} (h : encode.Lawful) (line : Nat) (text : String) (out : Output) :
    encode.assembleLine line text out =
      ((encode.assembleLine line text .empty).1, ⟨buffer (encode.assembleLine line text .empty).1,
        out.reports ++ (encode.assembleLine line text .empty).2.reports⟩) := by
  have blank : out.clear = ⟨[], out.reports ++ []⟩ := congrArg (Output.mk []) (List.append_nil _).symm
  cases hl : Statement.ofLine? text with
  | error e =>
    rw [assembleLine_of_error hl, assembleLine_of_error hl, blank]
    rfl
  | ok read =>
    cases read with
    | none =>
      rw [assembleLine_of_blank hl, assembleLine_of_blank hl, blank]
      rfl
    | some s =>
      have hi := h.independent line s out.clear
      have he := h.empty_of_error line s
      rcases hr : encode line s .empty with ⟨e | _, d⟩
      · have fresh : encode line s Output.empty.clear = (.error e, d) := hr
        rw [hr] at hi he
        rw [assembleLine_of_fault hl hi, assembleLine_of_fault hl fresh, he e rfl]
        rfl
      · have fresh : encode line s Output.empty.clear = (.ok (), d) := hr
        rw [hr] at hi
        rw [assembleLine_of_statement hl hi, assembleLine_of_statement hl fresh]
        rfl

/-- The encoder has no part in a blank line. -/
theorem assembleLine_of_isVoid (encode : Encoder) (line : Nat) {text : String} (h : Token.isVoid text.toList = true)
    (out : Output) : encode.assembleLine line text out = (.ok [], out.clear) :=
  assembleLine_of_blank (Statement.ofLine?_eq_none_iff.2 h)

/-! ## Sessions -/

/-- A step of a session: its answer, and the buffer after it. -/
structure Turn where
  answer : Except AsmError (List UInt8)
  buffer : List UInt8

/-- Numbered lines, assembled one after the other into the same output. -/
def session (encode : Encoder) (out : Output) : List (Nat × String) → List Turn × Output
  | [] => ([], out)
  | (line, text) :: more =>
    match encode.assembleLine line text out with
    | (answer, out) =>
      match session encode out more with
      | (turns, last) => (⟨answer, out.bytes⟩ :: turns, last)

/-- A step alone, on an assembler and a list of reports of its own. -/
def alone (encode : Encoder) (step : Nat × String) : Turn × List Diagnostic :=
  match encode.assembleLine step.1 step.2 .empty with
  | (answer, out) => (⟨answer, buffer answer⟩, out.reports)

/-- The steps of a session are the steps alone, and its reports are theirs. The induction is on the steps, from any
output on. -/
theorem Lawful.session_eq {encode : Encoder} (h : encode.Lawful) (steps : List (Nat × String)) (out : Output) :
    (session encode out steps).1 = steps.map (fun step => (encode.alone step).1) ∧
    (session encode out steps).2.reports = out.reports ++ steps.flatMap fun step => (encode.alone step).2 := by
  induction steps generalizing out with
  | nil => exact ⟨rfl, (List.append_nil _).symm⟩
  | cons step more ih =>
    obtain ⟨line, text⟩ := step
    obtain ⟨turns, reports⟩ := ih (encode.assembleLine line text out).2
    rw [h.assembleLine_eq] at turns reports
    constructor
    · rw [session, List.map_cons, ← turns, h.assembleLine_eq]
      rfl
    · rw [List.flatMap_cons, ← List.append_assoc]
      refine Eq.trans ?_ reports
      rw [session, h.assembleLine_eq]

/-- A step alone is the line by itself, with the warnings moved to the line of the step. -/
theorem z80_alone (line : Nat) (text : String) : z80.alone (line, text) = match encodeLine text with
    | .ok encoded => (⟨.ok encoded.bytes, encoded.bytes⟩, encoded.warnings.map (Diagnostic.on line))
    | .error e => (⟨.error e, []⟩, []) := by
  rw [alone, z80_assembleLine]
  cases encodeLine text <;> rfl

/-- Steps have no influence on each other. Under an encoder that keeps the contract each step answers what it answers
alone and leaves its bytes in the buffer, or nothing after an error; the reports are those of the steps alone, one
after the other. Blank lines do not get to the encoder, and the encoder of the instruction set keeps the contract. -/
theorem session_alone (encode : Encoder) (h : encode.Lawful) (steps : List (Nat × String)) (out : Output) :
    (session encode out steps).1 = steps.map (fun step => (encode.alone step).1) ∧
    (session encode out steps).2.reports = out.reports ++ (steps.flatMap fun step => (encode.alone step).2) ∧
    (∀ (other : Encoder) line text out, Token.isVoid text.toList = true →
      other.assembleLine line text out = (.ok [], out.clear)) ∧
    z80.Lawful ∧ (∀ tail, (padded tail z80).Lawful) ∧
    ∀ line text, z80.alone (line, text) = match encodeLine text with
      | .ok encoded => (⟨.ok encoded.bytes, encoded.bytes⟩, encoded.warnings.map (Diagnostic.on line))
      | .error e => (⟨.error e, []⟩, []) :=
  ⟨(h.session_eq steps out).1, (h.session_eq steps out).2, fun other line _ out hv => assembleLine_of_isVoid other line hv out,
    lawful_z80, lawful_z80.padded, z80_alone⟩

/-- Two lines around one that fails and one that is blank. -/
theorem session_alone_padded :
    (session (padded [0] z80) ⟨[1, 2], []⟩ [(1, "EX DE,HL"), (2, "EX HL,DE"), (3, " ; swapped"), (4, "JR 200")]).1.map Turn.buffer =
      [[0xEB, 0], [], [], [0x18, 0xC8, 0]] := by
  rw [(session_alone _ (lawful_z80.padded [0]) _ _).1]
  decide +kernel

end Encoder

end Z80Asm
