/-
Assembling one line, by what the line is: not a statement, blank, or a statement for the encoder.
-/
import Z80Asm.Proofs.Assembler.Statement

namespace Z80Asm

/-! ## What a line is -/

/-- Whether a text has nothing but blanks in front of its comment or its end. -/
def Token.isVoid (text : List Char) : Bool :=
  match text.dropWhile isBlank with
  | [] => true
  | c :: _ => c == ';'

theorem Token.scanFrom_eq_nil_iff (column : Nat) (text : List Char) : scanFrom column text = .ok [] ↔ isVoid text := by
  fun_induction scanFrom column text with
  | case1 => exact iff_of_true rfl rfl
  | case2 column c rest hb ih => rw [ih, isVoid, isVoid, List.dropWhile_cons_of_pos hb]
  | case3 column rest hb => rw [isVoid, List.dropWhile_cons_of_neg hb]; exact iff_of_true rfl rfl
  | case4 column c rest hb hc fault hl =>
    rw [isVoid, List.dropWhile_cons_of_neg hb]
    exact iff_of_false nofun (by simpa using hc)
  | case5 column c rest hb hc kind extra hl e he ih =>
    rw [isVoid, List.dropWhile_cons_of_neg hb]
    exact iff_of_false nofun (by simpa using hc)
  | case6 column c rest hb hc kind extra hl tokens ht ih =>
    rw [isVoid, List.dropWhile_cons_of_neg hb]
    exact iff_of_false nofun (by simpa using hc)

namespace Statement

/-- A line without a statement is blank, but for a comment. -/
theorem ofLine?_eq_none_iff {text : String} : ofLine? text = .ok none ↔ Token.isVoid text.toList := by
  rw [← Token.scanFrom_eq_nil_iff 0]
  unfold ofLine? Token.scan
  cases Token.scanFrom 0 text.toList with
  | error e => exact iff_of_false nofun nofun
  | ok tokens =>
    cases tokens with
    | nil => exact iff_of_true rfl rfl
    | cons t more =>
      refine iff_of_false ?_ nofun
      simp only
      cases ofTokens (t :: more) <;> exact nofun

/-- The statement of a line has been read from tokens. -/
theorem ofTokens_of_ofLine? {text : String} {s : Statement} (h : ofLine? text = .ok (some s)) :
    ∃ tokens, ofTokens tokens = .ok s := by
  unfold ofLine? at h
  split at h
  · cases h
  · cases h
  · rename_i t more _
    split at h
    · cases h
    · rename_i ht
      cases h
      exact ⟨t :: more, ht⟩

theorem ofLine?_ne_evaluation (text : String) (e : EvalError) : ofLine? text ≠ .error (.evaluation e) := by
  unfold ofLine?
  split
  · exact nofun
  · exact nofun
  · split <;> exact nofun

end Statement

/-! ## Assembling it -/

namespace Encoder

variable {encode : Encoder} {line : Nat} {text : String} {out : Output}

theorem assembleLine_of_error {e : AsmError} (h : Statement.ofLine? text = .error e) :
    assembleLine encode line text out = (.error e, out.clear) := by
  rw [assembleLine, h]

theorem assembleLine_of_blank (h : Statement.ofLine? text = .ok none) :
    assembleLine encode line text out = (.ok [], out.clear) := by
  rw [assembleLine, h]

theorem assembleLine_of_fault {s : Statement} {e : EvalError} {out' : Output} (h : Statement.ofLine? text = .ok (some s))
    (he : encode line s out.clear = (.error e, out')) : assembleLine encode line text out = (.error (.evaluation e), out') := by
  rw [assembleLine, h]
  simp only [he]

theorem assembleLine_of_statement {s : Statement} {out' : Output} (h : Statement.ofLine? text = .ok (some s))
    (he : encode line s out.clear = (.ok (), out')) : assembleLine encode line text out = (.ok out'.bytes, out') := by
  rw [assembleLine, h]
  simp only [he]

end Encoder

/-! ## Lines by themselves -/

/-- A diagnostic, moved to a line. -/
def Diagnostic.on (line : Nat) (d : Diagnostic) : Diagnostic := { d with line := line }

theorem Diagnostic.isError_on (line : Nat) (d : Diagnostic) : (on line d).isError = d.isError := rfl

/-- A line in any output comes to what it comes to by itself; its warnings have the number of the line. -/
theorem Encoder.z80_assembleLine (line : Nat) (text : String) (out : Output) :
    z80.assembleLine line text out = match encodeLine text with
      | .ok encoded => (.ok encoded.bytes, ⟨encoded.bytes, out.reports ++ encoded.warnings.map (Diagnostic.on line)⟩)
      | .error e => (.error e, out.clear) := by
  rw [encodeLine, encodeLineAt]
  cases hl : Statement.ofLine? text with
  | error e => rw [assembleLine_of_error hl, assembleLine_of_error hl]
  | ok read =>
    cases read with
    | none =>
      rw [assembleLine_of_blank hl, assembleLine_of_blank hl]
      exact congrArg (Prod.mk _) (congrArg (Output.mk []) (List.append_nil _).symm)
    | some s =>
      cases he : s.encoding with
      | error e => rw [assembleLine_of_fault hl (z80_of_error he), assembleLine_of_fault hl (z80_of_error he)]; rfl
      | ok e =>
        rw [assembleLine_of_statement hl (z80_of_encoding he), assembleLine_of_statement hl (z80_of_encoding he)]
        simp only [Output.clear, Output.empty, List.nil_append, List.map_map]
        rfl

/-- A line that assembles has no statement, or one with an encoding, whose bytes and overflows are those of the line. -/
theorem exists_of_encodeLine {text : String} {encoded : Encoded} (h : encodeLine text = .ok encoded) :
    encoded = ⟨[], []⟩ ∨ ∃ s e, Statement.ofLine? text = .ok (some s) ∧ s.encoding = .ok e ∧
      encoded = ⟨e.bytes, (s.overflows e).map fun o => ⟨1, .overflow o⟩⟩ := by
  rw [encodeLine, encodeLineAt] at h
  cases hl : Statement.ofLine? text with
  | error e => rw [Encoder.assembleLine_of_error hl] at h; cases h
  | ok read =>
    cases read with
    | none =>
      rw [Encoder.assembleLine_of_blank hl] at h
      cases h
      exact .inl rfl
    | some s =>
      cases he : s.encoding with
      | error e => rw [Encoder.assembleLine_of_fault hl (Encoder.z80_of_error he)] at h; cases h
      | ok e =>
        rw [Encoder.assembleLine_of_statement hl (Encoder.z80_of_encoding he)] at h
        cases h
        exact .inr ⟨s, e, rfl, he, rfl⟩

/-- Nothing but overflows is reported for a line that assembles. -/
theorem isError_of_mem_warnings {text : String} {encoded : Encoded} (h : encodeLine text = .ok encoded) {d : Diagnostic}
    (hd : d ∈ encoded.warnings) : d.isError = false := by
  obtain rfl | ⟨s, e, -, -, rfl⟩ := exists_of_encodeLine h
  · cases hd
  · obtain ⟨o, -, rfl⟩ := List.mem_map.1 hd
    rfl

end Z80Asm
