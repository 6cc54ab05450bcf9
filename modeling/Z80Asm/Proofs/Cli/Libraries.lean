/-
What the program relies on in its libraries (`Cli.Libraries.Documented`). Enumerations, structures and lists have their
usual structured forms, and every form has a JSON text; the log shows warnings and errors, and of an event that has no
control characters it shows the level, the origin, the message and the named values. All of it holds for libraries whose log
has no times (`Cli.Libraries.documented_plain`), and with times in front (`Cli.Libraries.documented_stamped`).
-/
import Z80Asm.Cli.Libraries
import Z80Asm.Proofs.Assembler.Wording
import Z80Asm.Proofs.Json.Written

namespace Z80Asm

/-! ## What a text shows -/

/-- A text shows others, one behind the other and with anything between them. -/
def Text.Shows : List String → List Char → Prop
  | [], _ => True
  | piece :: more, text => ∃ front behind, text = front ++ (piece.toList ++ behind) ∧ Shows more behind

theorem Text.Shows.behind {pieces : List String} {text : List Char} (h : Shows pieces text) (front : List Char) :
    Shows pieces (front ++ text) := by
  cases pieces with
  | nil => trivial
  | cons piece more =>
    obtain ⟨before, behind, rfl, h⟩ := h
    exact ⟨front ++ before, behind, (List.append_assoc ..).symm, h⟩

theorem Text.Shows.cons {pieces : List String} {text : List Char} (h : Shows pieces text) (piece : String) :
    Shows (piece :: pieces) (piece.toList ++ text) := ⟨[], text, rfl, h⟩

/-- The texts of an event, in their order. -/
def Event.pieces (e : Event) : List String :=
  [e.level.name, e.target, e.message] ++ e.fields.flatMap fun (name, value) => [name, value.describe]

namespace Cli.Libraries

/-- What the libraries say of themselves, where an environment asks for no other log than that of the program, and for no
traces of errors. -/
structure Documented (lib : Libraries) : Prop where
  /-- A value of an enumeration takes the form of its name. -/
  severity : lib.form (.severity .warning) = .string "Warning" ∧ lib.form (.severity .error) = .string "Error"
  /-- A structure takes the form of its fields, under their names and in their order. -/
  diagnostic : ∀ d, lib.form (.diagnostic d) = .object [("kind", .string d.kind),
    ("severity", lib.form (.severity d.severity)), ("line", .number d.line), ("column", .number d.column),
    ("message", .string d.message)]
  entry : ∀ e, lib.form (.entry e) = .object [("line", .number e.line), ("address", .number e.address.toNat),
    ("bytes", .array (e.bytes.map fun b => .number b.toNat)), ("source", .string e.source)]
  /-- A list takes the form of its items. -/
  listing : ∀ l, lib.form (.listing l) = .object [("entries", .array (l.entries.map fun e => lib.form (.entry e))),
    ("diagnostics", .array (l.diagnostics.map fun d => lib.form (.diagnostic d)))]
  /-- A form whose members are named by strings has a text, which is JSON. -/
  text : ∀ j, ∃ text, lib.text j = .ok text ∧ Json.Written j text
  /-- The level that is asked for lets through events of this level and of more serious ones. -/
  enabled : ∀ e, lib.enabled e = true ↔ e.level = .warn ∨ e.level = .error
  /-- A record shows its event, in which only control characters are escaped. -/
  record : ∀ n e, (∀ piece ∈ e.pieces, Text.isPlain piece = true) → Text.Shows e.pieces (lib.record n e).toList
  /-- An error is shown by its message, if it has no cause. -/
  shown : ∀ message, lib.shown message = message

/-- The libraries, with a number of lines already on the log. -/
def after (lib : Libraries) (lines : Nat) : Libraries := { lib with record := fun n => lib.record (lines + n) }

section

variable {lib : Libraries}

theorem Documented.after (h : lib.Documented) (lines : Nat) : (lib.after lines).Documented where
  severity := h.severity
  diagnostic := h.diagnostic
  entry := h.entry
  listing := h.listing
  text := h.text
  enabled := h.enabled
  record n := h.record (lines + n)
  shown := h.shown

/-- The form of a listing, down to its numbers and strings. -/
theorem Documented.form_listing (h : lib.Documented) (l : Listing) : lib.form (.listing l) = .object [
    ("entries", .array (l.entries.map fun e => .object [("line", .number e.line), ("address", .number e.address.toNat),
      ("bytes", .array (e.bytes.map fun b => .number b.toNat)), ("source", .string e.source)])),
    ("diagnostics", .array (l.diagnostics.map fun d => .object [("kind", .string d.kind),
      ("severity", .string (if d.isError then "Error" else "Warning")), ("line", .number d.line),
      ("column", .number d.column), ("message", .string d.message)]))] := by
  have severity (d : Diagnostic) :
      lib.form (.severity d.severity) = .string (if d.isError then "Error" else "Warning") := by
    unfold Diagnostic.isError
    cases d.severity with
    | warning => exact h.severity.1
    | error => exact h.severity.2
  simp only [h.listing, h.entry, h.diagnostic, severity]

/-- The text of a listing in structured form is the text of that form and of no other. -/
theorem Documented.exists_text (h : lib.Documented) (v : Value) :
    ∃ text, lib.print v = .ok (text ++ "\n") ∧ ∀ j, Json.Written j text ↔ j = lib.form v := by
  obtain ⟨text, eq, written⟩ := h.text (lib.form v)
  refine ⟨text, by rw [print, eq]; rfl, fun j => ⟨fun other => other.unique written, ?_⟩⟩
  rintro rfl
  exact written

theorem after_after (lib : Libraries) (m n : Nat) : (lib.after m).after n = lib.after (m + n) := by
  simp only [after, Nat.add_assoc]

/-- Events are recorded behind lines of the log as if they were recorded one after the other. -/
theorem log_append (lib : Libraries) (lines : List String) (front behind : List Event) :
    lines ++ (lib.after lines.length).log (front ++ behind) =
      lines ++ (lib.after lines.length).log front ++
        (lib.after (lines ++ (lib.after lines.length).log front).length).log behind := by
  rw [List.append_assoc, List.length_append, ← after_after]
  congr 1
  simp only [log, List.filter_append, List.mapIdx_append, List.length_mapIdx, after, Nat.add_comm]

end

/-! ## Libraries that are as documented -/

theorem shows_describe (e : Event) : Text.Shows e.pieces e.describe.toList := by
  have fields (more : List (String × EventValue)) : Text.Shows (more.flatMap fun (name, value) => [name, value.describe])
      (String.join (more.map fun (name, value) => String.join [" ", name, "=", value.describe])).toList := by
    induction more with
    | nil => trivial
    | cons field more ih =>
      obtain ⟨name, value⟩ := field
      have named := (((ih.cons value.describe).behind "=".toList).cons name).behind " ".toList
      simpa [String.join_cons] using named
  have origin := ((((fields e.fields).cons e.message).behind ": ".toList).cons e.target).behind " ".toList
  simpa [Event.pieces, Event.describe, String.join_cons] using origin.cons e.level.name

/-- Libraries whose log has no times are as documented. -/
theorem documented_plain : plain.Documented where
  severity := ⟨rfl, rfl⟩
  diagnostic _ := rfl
  entry _ := rfl
  listing _ := rfl
  text j := ⟨j.pretty, rfl, j.written_pretty⟩
  enabled e := by
    show (e.level == .warn || e.level == .error) = true ↔ _
    simp
  record _ e _ := shows_describe e
  shown _ := rfl

/-- The time of a record, one microsecond after that of the record in front of it. -/
def stamp (n : Nat) : String := "2026-01-01T00:00:00." ++ String.ofList ((Nat.toDigits 10 n).leftpad 6 '0') ++ "Z"

/-- A record with its time in front, and with the level in five columns. -/
def stampedRecord (n : Nat) (e : Event) : String :=
  stamp n ++ String.ofList (List.replicate (6 - e.level.name.length) ' ') ++ e.describe

/-- Libraries whose log has times. -/
def stamped : Libraries := { plain with record := stampedRecord }

/-- Libraries whose log has times are as documented. -/
theorem documented_stamped : stamped.Documented :=
  { documented_plain with
    record := fun n e _ => by
      show Text.Shows e.pieces (stampedRecord n e).toList
      rw [stampedRecord, String.toList_append]
      exact (shows_describe e).behind _ }

end Cli.Libraries

end Z80Asm
