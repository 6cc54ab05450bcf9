/-
Letter case has no part in assembling. Two lines that are the same but for the case of letters have the same tokens but
for the case of names, and come to the same bytes and warnings; or they fail alike (`encodeLine_letterCase`).
-/
import Z80Asm.Proofs.Assembler.Columns
import Z80Asm.Proofs.Token.UpperCase

namespace Z80Asm

/-! ## Upper case -/

/-- A token with its name in upper case. -/
def Token.toUpper (t : Token) : Token := t.map String.toUpper id

/-- A lexical error with its text in upper case. -/
def TokenError.toUpper (e : TokenError) : TokenError := e.map String.toUpper id

/-- An error with its text in upper case. -/
def AsmError.toUpper (e : AsmError) : AsmError := e.map String.toUpper id

theorem keepsUpper_toUpper : KeepsUpper String.toUpper := Text.toUpper_toUpper

theorem AsmError.map_id (e : AsmError) : e.map id id = e := by
  cases e with
  | token e =>
    obtain ⟨fault, column⟩ := e
    cases fault <;> rfl
  | statement e =>
    obtain ⟨fault, column⟩ := e
    cases fault <;> rfl
  | evaluation e => rfl

theorem Diagnostic.mapColumn_id (d : Diagnostic) : d.mapColumn id = d := by
  obtain ⟨line, report⟩ := d
  cases report with
  | overflow o => rfl
  | failure e => exact congrArg (fun e => Diagnostic.mk line (.failure e)) e.map_id

theorem Encoded.mapColumns_id (encoded : Encoded) : encoded.mapColumns id = encoded := by
  have same : Diagnostic.mapColumn id = id := funext Diagnostic.mapColumn_id
  rw [mapColumns, same, List.map_id]

/-! ## Lines -/

/-- A line in upper case comes to the same as the line, or to the same error with its text in upper case. -/
theorem encodeLineAt_toUpper (line : Nat) (text : String) :
    encodeLineAt line text.toUpper = (encodeLineAt line text).mapError AsmError.toUpper := by
  rw [encodeLineAt_eq_ofTokens, encodeLineAt_eq_ofTokens, Token.scan_toUpper]
  cases Token.scan text with
  | error e => rfl
  | ok tokens =>
    have same : Encoded.mapColumns id = id := funext Encoded.mapColumns_id
    simp only [Except.map, Except.mapError, Encoded.ofTokens_map keepsUpper_toUpper, same]
    cases Encoded.ofTokens line tokens <;> rfl

/-- Two lines that are the same but for the case of their letters: either both are tokens, the same ones but for the case
of names and at the same columns, or both show the same lexical error at the same column, but for the case of its text.
And either both come to the same bytes and warnings, or both show the same error at the same column, but for the case of
its text. -/
theorem encodeLine_letterCase {a b : String} (h : a.toUpper = b.toUpper) :
    ((∃ ts us, Token.scan a = .ok ts ∧ Token.scan b = .ok us ∧ ts.map Token.toUpper = us.map Token.toUpper) ∨
      ∃ e f, Token.scan a = .error e ∧ Token.scan b = .error f ∧ e.toUpper = f.toUpper) ∧
    ((∃ encoded, encodeLine a = .ok encoded ∧ encodeLine b = .ok encoded) ∨
      ∃ e f, encodeLine a = .error e ∧ encodeLine b = .error f ∧ e.toUpper = f.toUpper) := by
  constructor
  · have tokens := congrArg Token.scan h
    rw [Token.scan_toUpper, Token.scan_toUpper] at tokens
    exact exists_of_map_eq tokens
  · have encoded := congrArg (encodeLineAt 1) h
    rw [encodeLineAt_toUpper, encodeLineAt_toUpper] at encoded
    rcases exists_of_map_eq (f := id) (by simpa only [Except.map_id, id] using encoded) with ⟨v, w, hv, hw, rfl⟩ | failed
    · exact .inl ⟨v, hv, hw⟩
    · exact .inr failed

/-- Small letters in the words, in a hexadecimal number and in its mark. -/
theorem encodeLine_letterCase_mixed : "ld (ix+0xcF),a ; Fill".toUpper = "LD (IX+0XCF),A ; FILL".toUpper ∧
    ∃ encoded, encodeLine "ld (ix+0xcF),a ; Fill" = .ok encoded ∧ encodeLine "LD (IX+0XCF),A ; FILL" = .ok encoded := by
  have same : "ld (ix+0xcF),a ; Fill".toUpper = "LD (IX+0XCF),A ; FILL".toUpper := by
    rw [← String.toList_inj, Text.toList_toUpper, Text.toList_toUpper]
    decide +kernel
  have isOk : (encodeLine "LD (IX+0XCF),A ; FILL").toOption.isSome := by decide +kernel
  rcases (encodeLine_letterCase same).2 with encoded | ⟨e, f, -, hf, -⟩
  · exact ⟨same, encoded⟩
  · rw [hf] at isOk
    cases isOk

end Z80Asm
