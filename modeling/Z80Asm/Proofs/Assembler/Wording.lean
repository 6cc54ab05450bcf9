/-
The wording of reports. A line may hold any character, but no report about it holds a control character: a character that
starts no token is named by an escape if it is a control, and what else is quoted from the line is words and numerals
(`Listing.isPlain_of_mem_diagnostics`).
-/
import Z80Asm.Proofs.Assembler.Place
import Z80Asm.Proofs.Assembler.Policy

namespace Z80Asm

/-! ## Plain text -/

namespace Text

/-- The control characters. -/
def isControl (c : Char) : Bool := c.toNat < 0x20 || 0x7F ≤ c.toNat && c.toNat < 0xA0

/-- Whether a text has no control characters. -/
def isPlain (text : String) : Bool := text.toList.all (!isControl ·)

theorem isControl_eq_false_iff {c : Char} :
    isControl c = false ↔ 0x20 ≤ c.toNat ∧ ¬(0x7F ≤ c.toNat ∧ c.toNat < 0xA0) := by
  simp [isControl]

theorem isControl_eq_false_of_range {c : Char} (h : 0x20 < c.toNat ∧ c.toNat < 0x7F) : isControl c = false := by
  rw [isControl_eq_false_iff]
  omega

theorem isPlain_iff {text : String} : isPlain text = true ↔ ∀ c ∈ text.toList, isControl c = false := by
  simp [isPlain]

@[simp] theorem isPlain_append (s t : String) : isPlain (s ++ t) = (isPlain s && isPlain t) := by
  rw [isPlain, String.toList_append, List.all_append]
  rfl

theorem exists_digitChar_of_mem_toDigits {n : Nat} {c : Char} (h : c ∈ Nat.toDigits 16 n) : ∃ v < 16, c = v.digitChar := by
  induction n using Nat.strongRecOn with
  | _ n ih =>
    by_cases small : n < 16
    · rw [Nat.toDigits_of_lt_base small, List.mem_singleton] at h
      exact ⟨n, small, h⟩
    · rw [Nat.toDigits_of_base_le (by decide) (by omega), List.mem_append, List.mem_singleton] at h
      rcases h with h | h
      · exact ih (n / 16) (by omega) h
      · exact ⟨n % 16, by omega, h⟩

theorem isControl_of_mem_hexLower {n : Nat} {c : Char} (h : c ∈ hexLower n) : isControl c = false := by
  have table : ∀ v < 16, isControl v.digitChar = false := by decide
  obtain ⟨v, lt, rfl⟩ := exists_digitChar_of_mem_toDigits h
  exact table v lt

theorem isPlain_hexWord (n : Int32) : isPlain (hexWord n) = true := by
  rw [isPlain_iff, hexWord, String.toList_ofList]
  exact fun c => isControl_of_mem_hexLower

/-- A character is named without control characters, as those are escaped. -/
theorem isPlain_quoted (c : Char) : isPlain (quoted c) = true := by
  have letter {e : Char} (h : isControl e = false) : ∀ d ∈ ['\\', e], isControl d = false := by
    intro d hd
    simp only [List.mem_cons, List.not_mem_nil, or_false] at hd
    obtain rfl | rfl := hd
    · decide
    · exact h
  have escape : ∀ d ∈ escaped c, isControl d = false := by
    unfold escaped
    split_ifs with zero tab ret line quote shapeless
    · exact letter (by decide)
    · exact letter (by decide)
    · exact letter (by decide)
    · exact letter (by decide)
    · apply letter
      rcases quote with rfl | rfl <;> decide
    · intro d hd
      simp only [List.cons_append, List.nil_append, List.mem_cons, List.mem_append, List.not_mem_nil, or_false] at hd
      rcases hd with rfl | rfl | rfl | hd | rfl
      · decide
      · decide
      · decide
      · exact isControl_of_mem_hexLower hd
      · decide
    · rintro d hd
      obtain rfl := List.mem_singleton.1 hd
      -- the two ranges of controls are without a shape
      have shape : ¬∃ r ∈ unprintable, r.1 ≤ d.toNat ∧ d.toNat ≤ r.2 := by
        rw [← CodePoints.contains_iff]
        intro h
        simp [isPrintable, h] at shapeless
      rw [isControl_eq_false_iff]
      have low : ¬d.toNat ≤ 0x1F := fun h => shape ⟨(0x0000, 0x001F), List.mem_cons_self, Nat.zero_le _, h⟩
      have high : ¬(0x7F ≤ d.toNat ∧ d.toNat ≤ 0xA0) := fun h =>
        shape ⟨(0x007F, 0x00A0), List.mem_cons_of_mem _ List.mem_cons_self, h⟩
      omega
  rw [isPlain_iff, quoted, String.toList_ofList]
  intro d hd
  simp only [List.cons_append, List.nil_append, List.mem_cons, List.mem_append, List.not_mem_nil, or_false] at hd
  rcases hd with rfl | hd | rfl
  · decide
  · exact escape d hd
  · decide

theorem isPlain_toString_nat (n : Nat) : isPlain (toString n) = true := by
  rw [isPlain_iff]
  show ∀ c ∈ (Nat.repr n).toList, isControl c = false
  intro c hc
  rw [Nat.toList_repr] at hc
  have digit := isDigit_iff.1 (Nat.isDigit_of_mem_toDigits (by decide) (by decide) hc)
  exact isControl_eq_false_of_range (by omega)

theorem isPlain_toString_int (n : Int) : isPlain (toString n) = true := by
  cases n with
  | ofNat m => exact isPlain_toString_nat m
  | negSucc m =>
    show isPlain ("-" ++ toString (m + 1)) = true
    rw [isPlain_append, isPlain_toString_nat]
    rfl

theorem isPlain_toString_word (n : Int32) : isPlain (toString n) = true := isPlain_toString_int n.toInt

end Text

open Text

/-! ## Messages -/

theorem Mnemonic.isPlain_name (m : Mnemonic) : isPlain (Vocabulary.name m) = true := by cases m <;> rfl

theorem Width.isPlain_describe (w : Width) : isPlain w.describe = true := by cases w <;> rfl

theorem Overflow.isPlain_message (o : Overflow) : isPlain o.message = true := by
  have texts : isPlain " overflows " = true ∧ isPlain " of " = true := ⟨by decide, by decide⟩
  show isPlain (toString o.value ++ " overflows " ++ o.width.describe ++ " of " ++ Vocabulary.name o.mnemonic) = true
  simp [texts, isPlain_toString_word, Width.isPlain_describe, Mnemonic.isPlain_name]

theorem EvalError.isPlain_message (e : EvalError) : isPlain e.message = true := by
  obtain ⟨m, fault, column⟩ := e
  cases fault with
  | illegalOperands =>
    show isPlain ("no encoding of " ++ Vocabulary.name m ++ " for these operands") = true
    rw [isPlain_append, isPlain_append, m.isPlain_name]
    decide
  | outOfRange v =>
    show isPlain ("immediate " ++ toString v ++ " out of range for " ++ Vocabulary.name m) = true
    rw [isPlain_append, isPlain_append, isPlain_append, m.isPlain_name, isPlain_toString_word]
    decide
  | badBitIndex v =>
    show isPlain ("bit index " ++ toString v ++ " is not in 0..=7") = true
    rw [isPlain_append, isPlain_append, isPlain_toString_word]
    decide
  | badRestart v =>
    show isPlain ("restart vector 0x" ++ hexWord v ++ " is not a multiple of 8 in 0x00..=0x38") = true
    rw [isPlain_append, isPlain_append, isPlain_hexWord]
    decide
  | badInterruptMode v =>
    show isPlain ("interrupt mode " ++ toString v ++ " is not 0, 1 or 2") = true
    rw [isPlain_append, isPlain_append, isPlain_toString_word]
    decide
  | malformedAddress =>
    show isPlain ("malformed address among the operands of " ++ Vocabulary.name m) = true
    rw [isPlain_append, m.isPlain_name]
    decide

/-- The token that shows a syntax error has a plain spelling, and with it the error has a plain wording. -/
theorem SyntaxError.isPlain_message {f : SyntaxFault} {t : Token} {word : List Char} (shown : f.IsShownBy t)
    (spelled : t.kind.Spelled word) (column : Nat) : isPlain (SyntaxError.message ⟨f, column⟩) = true := by
  have named {name : String} (h : t.kind = .identifier name) : isPlain name = true := by
    rw [h] at spelled
    cases spelled with
    | identifier hn =>
      exact isPlain_iff.2 fun c hc =>
        isControl_eq_false_of_range (Token.range_of_mem_spelled (TokenKind.Spelled.identifier hn) hc).1
  have fault : isPlain f.message = true := by
    cases f with
    | unknownOperand name =>
      show isPlain ("" ++ "unknown operand `" ++ name ++ "`") = true
      simp only [isPlain_append, named shown]
      decide
    | illegalAddressBase name =>
      show isPlain ("" ++ "`" ++ name ++ "` cannot be used inside an address") = true
      simp only [isPlain_append, named shown]
      decide
    | unexpectedOperator o => cases o <;> decide
    | _ => decide
  show isPlain ("" ++ "syntax error at column " ++ toString column ++ ": " ++ f.message) = true
  simp only [isPlain_append, isPlain_toString_nat, fault]
  decide

theorem TokenError.isPlain_message {fault : TokenFault} {rest : List Char} (h : Token.Stuck fault rest) (column : Nat) :
    isPlain (TokenError.message ⟨fault, column⟩) = true := by
  have numeral {c : Char} {tail : List Char} (hc : c.isDigit = true) (ht : ∀ d ∈ tail, Token.isWordPart d = true) :
      isPlain (String.ofList (c :: tail)) = true := by
    have parts : ∀ d ∈ c :: tail, Token.isWordPart d = true :=
      List.forall_mem_cons.2 ⟨Token.isWordPart_of_isDigit hc, ht⟩
    rw [isPlain_iff, String.toList_ofList]
    exact fun d hd => isControl_eq_false_of_range (Token.range_of_isWordPart (parts d hd))
  cases h with
  | badNumber hc ht =>
    show isPlain ("malformed number \x22" ++ String.ofList (_ :: _) ++ "\x22 at column " ++ toString column) = true
    simp only [isPlain_append, isPlain_toString_nat, numeral hc ht]
    decide
  | numberOutOfRange hc ht =>
    show isPlain ("number \x22" ++ String.ofList (_ :: _) ++ "\x22 at column " ++ toString column ++
      " does not fit in 32 bits") = true
    simp only [isPlain_append, isPlain_toString_nat, numeral hc ht]
    decide
  | unexpected rest blank start digit symbol =>
    show isPlain ("unidentifiable character " ++ quoted _ ++ " at column " ++ toString column) = true
    simp only [isPlain_append, isPlain_toString_nat, isPlain_quoted]
    decide

/-! ## Reports about lines -/

/-- What is said about a line is plain, whatever the line holds. -/
theorem Report.isPlain_of_pointsAt {text : String} {r : Report} {column : Nat} (h : r.PointsAt text column) (line : Nat) :
    isPlain (Diagnostic.message ⟨line, r⟩) = true := by
  cases h with
  | text run stuck =>
    simp only [Diagnostic.message, AsmError.message]
    exact TokenError.isPlain_message stuck column
  | token scanned fails shown =>
    obtain ⟨stop, run⟩ := Token.scan_eq_ok_iff.1 scanned
    obtain ⟨before, word, behind, -, lexeme⟩ := run.exists_of_mem (List.mem_append_right _ List.mem_cons_self)
    simp only [Diagnostic.message, AsmError.message]
    exact SyntaxError.isPlain_message shown lexeme.spelled _
  | mnemonic | number =>
    simp only [Diagnostic.message, AsmError.message]
    exact EvalError.isPlain_message _
  | field =>
    simp only [Diagnostic.message]
    exact Overflow.isPlain_message _

namespace Listing

theorem isPlain_of_mem_reported {text : String} {line : Nat} {d : Diagnostic} (h : d ∈ reported (text, line)) :
    isPlain d.message = true := by
  unfold reported at h
  split at h
  · rename_i encoded assembled
    obtain ⟨d, hd, rfl⟩ := List.mem_map.1 h
    obtain ⟨o, ho, -⟩ := pointsAt_of_mem_warnings assembled hd
    obtain ⟨_, _⟩ := d
    cases ho
    exact o.isPlain_message
  · rename_i e failed
    obtain rfl := List.mem_singleton.1 h
    exact Report.isPlain_of_pointsAt (pointsAt_of_error failed) line

/-- Every report of a listing is one about a line of its source. -/
theorem exists_of_mem_diagnostics {policy : Policy} {lines : List String} : ∀ {line : Nat} {address : UInt32} {d : Diagnostic},
    d ∈ (ofLines policy line address lines).diagnostics → ∃ text n, d ∈ reported (text, n) := by
  induction lines with
  | nil => exact nofun
  | cons text more ih =>
    intro line address d h
    cases he : encodeLine text with
    | ok encoded =>
      rw [ofLines_of_ok he, List.mem_append] at h
      rcases h with h | h
      · exact ⟨text, line, by simpa [reported, he] using h⟩
      · exact ih h
    | error e =>
      have first : reported (text, line) = [⟨line, .failure e⟩] := by simp [reported, he]
      cases policy with
      | stop =>
        rw [ofLines_stop_of_error he] at h
        exact ⟨text, line, first ▸ h⟩
      | keepGoing =>
        rw [ofLines_keepGoing_of_error he] at h
        rcases List.mem_cons.1 h with rfl | h
        · exact ⟨text, line, first ▸ List.mem_cons_self⟩
        · exact ih h

/-- No report about a source has a control character, whatever the source holds. -/
theorem isPlain_of_mem_diagnostics {policy : Policy} {source : String} {d : Diagnostic}
    (h : d ∈ (ofSource policy source).diagnostics) : isPlain d.message = true := by
  obtain ⟨text, line, reported⟩ := exists_of_mem_diagnostics h
  exact isPlain_of_mem_reported reported

end Listing

end Z80Asm
