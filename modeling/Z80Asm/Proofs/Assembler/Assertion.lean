/-
Assembling a line where a place behind the end, a cut through a character, or an address of the wrong shape would
end the program. None of them is ever come to, whatever the line is (`Statement.no_assertion`).
-/
import Z80Asm.Proofs.Assembler.Atomic
import Z80Asm.Proofs.Assembler.Line
import Z80Asm.Proofs.Statement.Shape
import Z80Asm.Proofs.Statement.Walk
import Z80Asm.Proofs.Token.Walk

namespace Z80Asm

/-! ## Lines that can end the program -/

/-- The statement of a line, whose bytes and tokens are looked up by their places. -/
def Statement.readLine? (text : String) : Option (Except AsmError (Option Statement)) :=
  match Token.walk? text with
  | none => none
  | some (.error e) => some (.error (.token e))
  | some (.ok []) => some (.ok none)
  | some (.ok (t :: more)) =>
    match walk? (t :: more) with
    | none => none
    | some (.error e) => some (.error (.statement e))
    | some (.ok s) => some (.ok (some s))

namespace Encoder

/-- The encoder that runs the code of the mnemonics, and ends the program at an address of the wrong shape. -/
def asserting (line : Nat) (s : Statement) (out : Output) : Option (Except EvalError Unit × Output) :=
  match Operand.ofNodes s.operands with
  | .error .malformedAddress => none
  | _ => some (running Emitter.dispatch line s out)

/-- A line assembled with it. -/
def assertLine? (line : Nat) (text : String) (out : Output) : Option (Except AsmError (List UInt8) × Output) :=
  match Statement.readLine? text with
  | none => none
  | some (.error e) => some (.error e, out.clear)
  | some (.ok none) => some (.ok [], out.clear)
  | some (.ok (some s)) =>
    match asserting line s out.clear with
    | none => none
    | some (.error e, out) => some (.error (.evaluation e), out)
    | some (.ok (), out) => some (.ok out.bytes, out)

end Encoder

/-- A line by itself. -/
def assertLine? (text : String) : Option (Except AsmError Encoded) :=
  match Encoder.assertLine? 1 text .empty with
  | none => none
  | some (.error e, _) => some (.error e)
  | some (.ok bytes, out) => some (.ok ⟨bytes, out.reports⟩)

/-! ## No line ends it -/

theorem Statement.readLine?_eq (text : String) : readLine? text = some (ofLine? text) := by
  rw [readLine?, Token.walk?_eq, ofLine?]
  cases Token.scan text with
  | error e => rfl
  | ok tokens =>
    cases tokens with
    | nil => rfl
    | cons t more =>
      simp only [walk?_eq]
      cases ofTokens (t :: more) <;> rfl

theorem Statement.exists_operands {tokens : List Token} {s : Statement} (h : ofTokens tokens = .ok s) :
    ∃ xs, Operand.ofNodes s.operands = .ok xs := Operand.exists_ofNodes (isRead_of_ofTokens h)

theorem Encoder.asserting_of_operands {line : Nat} {s : Statement} {xs : List Operand} {out : Output}
    (h : Operand.ofNodes s.operands = .ok xs) : asserting line s out = some (z80 line s out) := by
  rw [asserting, h, running_dispatch]

theorem Encoder.assertLine?_eq (line : Nat) (text : String) (out : Output) :
    assertLine? line text out = some (z80.assembleLine line text out) := by
  rw [assertLine?, Statement.readLine?_eq, assembleLine]
  cases hl : Statement.ofLine? text with
  | error e => rfl
  | ok s =>
    cases s with
    | none => rfl
    | some s =>
      obtain ⟨tokens, ht⟩ := Statement.ofTokens_of_ofLine? hl
      obtain ⟨xs, hxs⟩ := Statement.exists_operands ht
      simp only [asserting_of_operands hxs]
      rcases z80 line s out.clear with ⟨_ | _, out⟩ <;> rfl

theorem assertLine?_eq (text : String) : assertLine? text = some (encodeLine text) := by
  rw [assertLine?, Encoder.assertLine?_eq, encodeLine, encodeLineAt]
  rcases Encoder.z80.assembleLine 1 text .empty with ⟨_ | _, out⟩ <;> rfl

/-! ## Faults -/

theorem Fault.orIllegal_ne_malformed (o : Option Encoding) : orIllegal o ≠ .error .malformedAddress := by
  cases o <;> exact nofun

theorem Load.encode_ne_malformed (xs : List Operand) : encode xs ≠ .error .malformedAddress := by
  unfold encode
  split
  · split <;> exact nofun
  · exact Fault.orIllegal_ne_malformed _
  · exact nofun

theorem BitAccess.encode_ne_malformed (b : BitAccess) (xs : List Operand) :
    b.encode xs ≠ .error .malformedAddress := by
  unfold encode
  split
  · split
    · exact Fault.orIllegal_ne_malformed _
    · exact nofun
  · exact nofun

theorem Branch.restart_ne_malformed (xs : List Operand) : restart xs ≠ .error .malformedAddress := by
  unfold restart
  split
  · split <;> exact nofun
  · exact nofun

theorem InterruptMode.encode_ne_malformed (xs : List Operand) : encode xs ≠ .error .malformedAddress := by
  unfold encode
  split
  · repeat' split
    all_goals exact nofun
  · exact nofun

/-- No row of the tables is missed for an address of the wrong shape. -/
theorem Mnemonic.encode_ne_malformed (m : Mnemonic) (xs : List Operand) : m.encode xs ≠ .error .malformedAddress := by
  cases m with
  | LD => exact Load.encode_ne_malformed xs
  | BIT => exact BitAccess.encode_ne_malformed .BIT xs
  | RES => exact BitAccess.encode_ne_malformed .RES xs
  | SET => exact BitAccess.encode_ne_malformed .SET xs
  | RST => exact Branch.restart_ne_malformed xs
  | IM => exact InterruptMode.encode_ne_malformed xs
  | _ =>
    first
    | exact Fault.orIllegal_ne_malformed _
    | cases xs <;> exact nofun

theorem Statement.encoding_ne_malformed {s : Statement} {xs : List Operand} (hxs : Operand.ofNodes s.operands = .ok xs)
    (m : Mnemonic) (column : Nat) : s.encoding ≠ .error ⟨m, .malformedAddress, column⟩ := by
  intro h
  cases hm : s.mnemonic.encode xs with
  | ok e =>
    rw [encoding_eq_ok_iff.2 ⟨xs, hxs, Mnemonic.encode_eq_ok_iff.1 hm⟩] at h
    cases h
  | error fault =>
    rw [encoding_of_fault hxs hm, failure] at h
    cases h
    exact Mnemonic.encode_ne_malformed _ _ hm

/-- The errors of a line are those of its words and of its operands. -/
theorem encodeLine_ne_malformed (text : String) (m : Mnemonic) (column : Nat) :
    encodeLine text ≠ .error (.evaluation ⟨m, .malformedAddress, column⟩) := by
  intro h
  rw [encodeLine, encodeLineAt] at h
  cases hl : Statement.ofLine? text with
  | error e =>
    rw [Encoder.assembleLine_of_error hl] at h
    cases h
    exact Statement.ofLine?_ne_evaluation _ _ hl
  | ok read =>
    cases read with
    | none => rw [Encoder.assembleLine_of_blank hl] at h; cases h
    | some s =>
      obtain ⟨tokens, ht⟩ := Statement.ofTokens_of_ofLine? hl
      obtain ⟨xs, hxs⟩ := Statement.exists_operands ht
      cases he : s.encoding with
      | ok e => rw [Encoder.assembleLine_of_statement hl (Encoder.z80_of_encoding he)] at h; cases h
      | error e =>
        rw [Encoder.assembleLine_of_fault hl (Encoder.z80_of_error he)] at h
        cases h
        exact Statement.encoding_ne_malformed hxs _ _ he

/-! ## The guarantee -/

/-- What is read from tokens has the shapes that the conversion of operands relies on, and assembling a line comes
to an answer: no byte or token is looked up behind the end, no text is cut out through a character, and no address
has a wrong shape. -/
theorem Statement.no_assertion :
    (∀ tokens s, ofTokens tokens = .ok s →
      (∀ node ∈ s.operands, node.IsRead ∧ ∃ x, Operand.ofNode node = .ok x) ∧
      ∀ children column, .address children column ∈ s.operands → ∃ a, Address.ofNodes? children = some a) ∧
    (∀ text, Token.walk? text = some (Token.scan text)) ∧
    (∀ tokens, walk? tokens = some (ofTokens tokens)) ∧
    (∀ text, readLine? text = some (ofLine? text)) ∧
    (∀ line text out, Encoder.assertLine? line text out = some (Encoder.z80.assembleLine line text out)) ∧
    (∀ text, assertLine? text = some (encodeLine text)) ∧
    ∀ text m column, encodeLine text ≠ .error (.evaluation ⟨m, .malformedAddress, column⟩) := by
  refine ⟨fun tokens s h => ⟨fun node hn => ?_, fun children column hn => ?_⟩, Token.walk?_eq, walk?_eq, readLine?_eq,
    Encoder.assertLine?_eq, assertLine?_eq, encodeLine_ne_malformed⟩
  · have read := isRead_of_ofTokens h node hn
    exact ⟨read, read.exists_operand⟩
  · exact (isRead_of_ofTokens h _ hn).exists_address

/-- The tokens of `LD (IX-5),C`. -/
def Statement.displaced : List Token :=
  [⟨.identifier "LD", 0⟩, ⟨.operator .leftParen, 3⟩, ⟨.identifier "IX", 4⟩, ⟨.operator .minus, 6⟩, ⟨.number 5, 7⟩,
    ⟨.operator .rightParen, 8⟩, ⟨.operator .comma, 9⟩, ⟨.identifier "C", 10⟩]

theorem Statement.no_assertion_displaced : ∃ s, ofTokens displaced = .ok s ∧ s.operands.length = 2 ∧
    ∀ node ∈ s.operands, node.IsRead := by
  have read : (ofTokens displaced).toOption.map (·.operands.length) = some 2 := by decide +kernel
  cases h : ofTokens displaced with
  | error _ => rw [h] at read; cases read
  | ok s =>
    rw [h] at read
    exact ⟨s, rfl, Option.some.inj read, fun node hn => ((no_assertion.1 _ _ h).1 node hn).1⟩

end Z80Asm
