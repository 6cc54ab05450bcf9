/-
Runs of `assemble`, with any libraries that are as documented. A binary is written exactly where every line of the source
assembles, and any other run says how many lines failed; what is printed is the listing, as text or as the JSON text of its
form, and the log has its diagnostics (`Cli.run_assemble`). The run is also given step by step: it prints, logs, checks and
writes in this order, and what it has done when it ends is the outcome (`Cli.exec_assemble`).
-/
import Z80Asm.Cli.Outcome
import Z80Asm.Proofs.Cli.Libraries
import Z80Asm.Proofs.Assembler.Policy

namespace Z80Asm.Cli

/-! ## A run step by step -/

/-- What a run changes: its two outputs, and the files. -/
structure World where
  stdout : String
  stderr : List String
  files : String → Option (List UInt8)

/-- A part of a run. It changes the world, and may end the run with a message. -/
abbrev Act (α : Type) : Type := ExceptT String (StateM World) α

namespace Act

def print (text : String) : Act Unit := modify fun w => { w with stdout := w.stdout ++ text }

/-- A record of an event, if the log lets it through. -/
def emit (lib : Libraries) (e : Event) : Act Unit :=
  modify fun w => { w with stderr := w.stderr ++ (lib.after w.stderr.length).log [e] }

def write (name : String) (bytes : List UInt8) : Act Unit :=
  modify fun w => { w with files := fun n => if n = name then some bytes else w.files n }

/-- The end of the run, unless a condition holds. -/
def ensure (condition : Bool) (message : String) : Act Unit := if condition then pure () else throw message

/-- The text that is there, or the end of the run. -/
def require : Except String String → Act String
  | .ok text => pure text
  | .error message => throw message

/-- The listing is printed; as text, it is followed by its diagnostics in the log. -/
def present (lib : Libraries) (o : AssembleOptions) (l : Listing) : Act Unit :=
  match o.format with
  | .json => do print (← require (lib.print (.listing l)))
  | .text => do
    print (l.render o.showBytes)
    forM l.diagnostics fun d => emit lib d.event

/-- `assemble`: the listing is presented before the failures are counted, and the image is written last. -/
def assemble (lib : Libraries) (o : AssembleOptions) (content : Except FileError String) : Act Unit := do
  let source ← require (content.mapError FileError.message)
  let l := Listing.ofSource o.policy source
  emit lib (o.assembled l)
  present lib o l
  ensure (l.errorCount = 0) s!"{l.errorCount} line(s) failed to assemble"
  match o.out with
  | some name => write name l.image
  | none => pure ()

end Act

/-- A whole run, which shows the message that ends it: its exit code, and the world after it. -/
def exec (lib : Libraries) (act : Act Unit) (w : World) : UInt8 × World :=
  match act w with
  | (.ok (), w) => (0, w)
  | (.error message, w) => (1, { w with stderr := w.stderr ++ ["Error: " ++ lib.shown message] })

/-- The exit code of an outcome, and the world that it leaves behind. -/
def Outcome.leave (r : Outcome) (w : World) : UInt8 × World :=
  (r.exit, ⟨w.stdout ++ r.stdout, w.stderr ++ r.stderr, match r.file with
    | none => w.files
    | some (name, bytes) => fun n => if n = name then some bytes else w.files n⟩)

section

variable {lib : Libraries}

theorem Act.bind_apply {α β : Type} (x : Act α) (f : α → Act β) (w : World) :
    (x >>= f) w = match x w with
      | (.ok a, w) => f a w
      | (.error message, w) => (.error message, w) := by
  show (match x w with | (a, w) => ExceptT.bindCont f a w) = _
  rcases x w with ⟨_ | _, _⟩ <;> rfl

theorem Act.emit_apply (e : Event) (w : World) :
    emit lib e w = (.ok (), { w with stderr := w.stderr ++ (lib.after w.stderr.length).log [e] }) := rfl

theorem Act.forM_emit (ds : List Diagnostic) (w : World) :
    forM ds (fun d => emit lib d.event) w =
      (.ok (), { w with stderr := w.stderr ++ (lib.after w.stderr.length).log (ds.map Diagnostic.event) }) := by
  induction ds generalizing w with
  | nil =>
    rw [List.map_nil]
    show (Except.ok (), w) = (Except.ok (), { w with stderr := w.stderr ++ [] })
    rw [List.append_nil]
  | cons d more ih =>
    rw [List.forM_cons, bind_apply, emit_apply]
    simp only [ih, ← Libraries.log_append, List.singleton_append, List.map_cons]

theorem Act.present_apply (o : AssembleOptions) (l : Listing) (w : World) :
    present lib o l w = match o.print lib l with
      | .ok text =>
        (.ok (), { w with stdout := w.stdout ++ text, stderr := w.stderr ++ (lib.after w.stderr.length).log (o.reports l) })
      | .error message => (.error message, w) := by
  unfold present AssembleOptions.print AssembleOptions.reports
  cases o.format with
  | text =>
    have first : print (l.render o.showBytes) w = (.ok (), { w with stdout := w.stdout ++ l.render o.showBytes }) := rfl
    simp only [bind_apply, first, forM_emit]
  | json =>
    simp only [bind_apply]
    cases lib.print (.listing l) with
    | error message => rfl
    | ok text =>
      show (Except.ok (), { w with stdout := w.stdout ++ text }) =
        (Except.ok (), { w with stdout := w.stdout ++ text, stderr := w.stderr ++ [] })
      rw [List.append_nil]

/-- What a run has done when it ends is its outcome, in which the log goes on behind what is there already. -/
theorem exec_assemble (lib : Libraries) (o : AssembleOptions) (content : Except FileError String) (w : World) :
    exec lib (Act.assemble lib o content) w = (runAssemble (lib.after w.stderr.length) o content).leave w := by
  unfold exec Act.assemble runAssemble
  cases content with
  | error e =>
    have stop : Act.require ((Except.error e : Except FileError String).mapError FileError.message) w =
      (.error e.message, w) := rfl
    simp [Act.bind_apply, stop, Outcome.failure, Outcome.leave, Libraries.after]
  | ok source =>
    have start : Act.require ((Except.ok source : Except FileError String).mapError FileError.message) w =
      (.ok source, w) := rfl
    simp only [Act.bind_apply, start, Act.emit_apply, Act.present_apply]
    generalize Listing.ofSource o.policy source = l
    have printed : o.print (lib.after w.stderr.length) l = o.print lib l := rfl
    have recorded := Libraries.log_append lib w.stderr [o.assembled l] (o.reports l)
    rw [List.singleton_append] at recorded
    rw [printed]
    cases o.print lib l with
    | error message => simp [Outcome.failure, Outcome.leave, Libraries.after]
    | ok text =>
      by_cases h : l.errorCount = 0
      · have passed (w : World) : Act.ensure (decide (l.errorCount = 0)) s!"{l.errorCount} line(s) failed to assemble" w =
            (.ok (), w) := by
          rw [decide_eq_true h]
          rfl
        simp only [passed, ← recorded, if_pos h]
        cases o.out <;> rfl
      · have stopped (w : World) : Act.ensure (decide (l.errorCount = 0)) s!"{l.errorCount} line(s) failed to assemble" w =
            (.error s!"{l.errorCount} line(s) failed to assemble", w) := by
          rw [decide_eq_false h]
          rfl
        simp only [stopped, ← recorded, if_neg h, Outcome.failure, Outcome.leave, List.append_assoc]
        rfl

end

/-! ## The content of the file -/

theorem decodeText_toUTF8 (source : String) : decodeText source.toUTF8 = .ok source := by
  have valid : String.fromUTF8? source.toUTF8 = some source := dif_pos source.isValidUTF8
  rw [decodeText, valid]

theorem decodeText_of_ne_toUTF8 {bytes : ByteArray} (h : ∀ source : String, source.toUTF8 ≠ bytes) :
    decodeText bytes = .error .notText := by
  have invalid : String.fromUTF8? bytes = none := dif_neg fun valid => h (String.fromUTF8 bytes valid) rfl
  rw [decodeText, invalid]

/-- The run of `assemble` on the bytes of its file. -/
def runOn (lib : Libraries) (o : AssembleOptions) (bytes : ByteArray) : Outcome :=
  (Command.assemble o).runWith lib (decodeText bytes)

/-! ## Failures -/

/-- The number of failing lines that a run gets to. -/
def AssembleOptions.failures (o : AssembleOptions) (source : String) : Nat :=
  if o.keepGoing then (Text.lines source).countP Listing.fails else 1

/-- The image of lines that all assemble, whatever the policy. -/
theorem image_ofSource (policy : Policy) {source : String} (h : ∀ text ∈ Text.lines source, Listing.fails text = false) :
    (Listing.ofSource policy source).image = (Text.lines source).flatMap Listing.lineBytes := by
  cases policy with
  | stop => rw [Listing.ofSource, Listing.ofLines_stop 1 0 h, Listing.image_ofLines]
  | keepGoing => exact Listing.image_ofLines 1 0 _

theorem errorCount_of_assembled (policy : Policy) {source : String}
    (h : ∀ text ∈ Text.lines source, Listing.fails text = false) : (Listing.ofSource policy source).errorCount = 0 := by
  have none : (Text.lines source).countP Listing.fails = 0 := List.countP_eq_zero.2 fun t ht => by simp [h t ht]
  cases policy with
  | stop => rw [Listing.ofSource, Listing.ofLines_stop 1 0 h, Listing.errorCount_ofLines, none]
  | keepGoing => rw [Listing.ofSource, Listing.errorCount_ofLines, none]

/-- Where a line fails, the listing has as many errors as the run gets to, and at least one. -/
theorem errorCount_of_failure (o : AssembleOptions) {source : String}
    (h : ¬∀ text ∈ Text.lines source, Listing.fails text = false) :
    (Listing.ofSource o.policy source).errorCount = o.failures source ∧ 0 < o.failures source := by
  have some_fails : (Text.lines source).any Listing.fails = true := by simpa using h
  unfold AssembleOptions.policy AssembleOptions.failures Listing.ofSource
  cases o.keepGoing with
  | false => simp [Listing.errorCount_stop, some_fails]
  | true =>
    refine ⟨Listing.errorCount_ofLines 1 0 _, ?_⟩
    obtain ⟨text, ht, hf⟩ := List.any_eq_true.1 some_fails
    exact List.countP_pos_iff.2 ⟨text, ht, hf⟩

theorem fails_eq_false_iff {text : String} : Listing.fails text = false ↔ ∃ encoded, encodeLine text = .ok encoded := by
  cases h : encodeLine text with
  | ok encoded => simp [Listing.fails_of_ok h]
  | error e => simp [Listing.fails_of_error h]

/-! ## What is shown and logged -/

section

variable {lib : Libraries}

theorem forall₂_mapIdx {α β : Type} {r : α → β → Prop} : ∀ {l : List α} {f : Nat → α → β}, (∀ n, ∀ a ∈ l, r a (f n a)) →
    List.Forall₂ r l (l.mapIdx f)
  | [], _, _ => .nil
  | a :: l, f, h => by
    rw [List.mapIdx_cons]
    exact .cons (h 0 a List.mem_cons_self) (forall₂_mapIdx fun n b hb => h (n + 1) b (List.mem_cons_of_mem a hb))

/-- The event of a diagnostic has its level, and its wording, place and kind. -/
theorem event_eq (d : Diagnostic) : d.event = ⟨if d.isError then .error else .warn, "zasm_rs::diag", d.message,
    [("line", .number d.line), ("column", .number d.column), ("kind", .text d.kind)]⟩ := by
  rw [Diagnostic.event, Diagnostic.isError]
  cases d.severity <;> rfl

/-- The log has the diagnostics of a listing that is shown as text, and nothing else. -/
theorem Libraries.Documented.log_reports (h : lib.Documented) (o : AssembleOptions) (l : Listing) :
    lib.log (o.assembled l :: o.reports l) = match o.format with
      | .text => l.diagnostics.mapIdx fun n d => lib.record n d.event
      | .json => [] := by
  have quiet : ¬lib.enabled (o.assembled l) = true := by simp [h.enabled, AssembleOptions.assembled]
  have heard : ∀ e ∈ o.reports l, lib.enabled e = true := by
    intro e he
    rw [h.enabled]
    unfold AssembleOptions.reports at he
    split at he
    · obtain ⟨d, -, rfl⟩ := List.mem_map.1 he
      rw [event_eq]
      cases d.isError
      · exact .inl rfl
      · exact .inr rfl
    · cases he
  rw [Libraries.log, List.filter_cons_of_neg quiet, List.filter_eq_self.2 heard, AssembleOptions.reports]
  cases o.format with
  | json => rfl
  | text => exact List.ext_getElem (by simp) fun i _ _ => by simp

/-- The record of a diagnostic without control characters shows the level, the wording, the place and the kind. -/
theorem Libraries.Documented.shows_event (h : lib.Documented) {d : Diagnostic} (plain : Text.isPlain d.message = true)
    (n : Nat) : Text.Shows [if d.isError then "ERROR" else "WARN", "zasm_rs::diag", d.message, "line", toString d.line,
      "column", toString d.column, "kind", d.kind] (lib.record n d.event).toList := by
  have pieces : d.event.pieces = [if d.isError then "ERROR" else "WARN", "zasm_rs::diag", d.message, "line",
      toString d.line, "column", toString d.column, "kind", d.kind] := by
    rw [event_eq]
    cases d.isError <;> rfl
  have level : Text.isPlain (if d.isError then "ERROR" else "WARN") = true := by cases d.isError <;> decide
  have kind : Text.isPlain d.kind = true := by
    unfold Diagnostic.kind
    split <;> decide
  have names : Text.isPlain "zasm_rs::diag" = true ∧ Text.isPlain "line" = true ∧ Text.isPlain "column" = true ∧
    Text.isPlain "kind" = true := ⟨by decide, by decide, by decide, by decide⟩
  have shown := h.record n d.event
  rw [pieces] at shown
  apply shown
  simp only [List.mem_cons, List.not_mem_nil, or_false]
  rintro piece (rfl | rfl | rfl | rfl | rfl | rfl | rfl | rfl | rfl)
  · exact level
  · exact names.1
  · exact plain
  · exact names.2.1
  · exact Text.isPlain_toString_nat _
  · exact names.2.2.1
  · exact Text.isPlain_toString_nat _
  · exact names.2.2.2
  · exact kind

/-! ## Outcomes -/

/-- The run on a source whose lines all assemble. -/
theorem runOn_of_assembled (o : AssembleOptions) {source text : String}
    (printed : o.print lib (Listing.ofSource o.policy source) = .ok text)
    (h : ∀ text ∈ Text.lines source, Listing.fails text = false) :
    runOn lib o source.toUTF8 = ⟨text,
      lib.log (o.assembled (Listing.ofSource o.policy source) :: o.reports (Listing.ofSource o.policy source)), 0,
      o.out.map fun name => (name, (Text.lines source).flatMap Listing.lineBytes)⟩ := by
  rw [runOn, decodeText_toUTF8]
  simp only [Command.runWith, runAssemble, printed, errorCount_of_assembled o.policy h, image_ofSource o.policy h, if_true]

/-- The run on a source with a line that fails. -/
theorem runOn_of_failure (o : AssembleOptions) {source text : String}
    (printed : o.print lib (Listing.ofSource o.policy source) = .ok text)
    (h : ¬∀ text ∈ Text.lines source, Listing.fails text = false) :
    runOn lib o source.toUTF8 = ⟨text,
      lib.log (o.assembled (Listing.ofSource o.policy source) :: o.reports (Listing.ofSource o.policy source)) ++
        ["Error: " ++ lib.shown s!"{o.failures source} line(s) failed to assemble"], 1, none⟩ := by
  obtain ⟨count, pos⟩ := errorCount_of_failure o h
  have stopped : ¬o.failures source = 0 := by omega
  rw [runOn, decodeText_toUTF8]
  simp only [Command.runWith, runAssemble, printed, count, if_neg stopped, Outcome.failure]

/-- The run on any text, with libraries as documented: what is printed, and the records of the log in front of the line
that ends a failing run. -/
theorem Libraries.Documented.runOn_eq (h : lib.Documented) (o : AssembleOptions) (source : String) :
    ∃ text, o.print lib (Listing.ofSource o.policy source) = .ok text ∧ (runOn lib o source.toUTF8).stdout = text ∧
      (runOn lib o source.toUTF8).stderr =
        (match o.format with
          | .text => (Listing.ofSource o.policy source).diagnostics.mapIdx fun n d => lib.record n d.event
          | .json => []) ++
        if (runOn lib o source.toUTF8).exit = 0 then []
        else ["Error: " ++ s!"{o.failures source} line(s) failed to assemble"] := by
  obtain ⟨text, printed⟩ : ∃ text, o.print lib (Listing.ofSource o.policy source) = .ok text := by
    unfold AssembleOptions.print
    cases o.format with
    | text => exact ⟨_, rfl⟩
    | json =>
      obtain ⟨text, eq, -⟩ := h.exists_text (.listing (Listing.ofSource o.policy source))
      exact ⟨_, eq⟩
  refine ⟨text, printed, ?_⟩
  rw [← h.log_reports]
  by_cases all : ∀ text ∈ Text.lines source, Listing.fails text = false
  · rw [runOn_of_assembled o printed all]
    exact ⟨rfl, (List.append_nil _).symm⟩
  · rw [runOn_of_failure o printed all, h.shown]
    exact ⟨rfl, rfl⟩

end

/-- A run of `assemble` never writes a binary for a source with a line that fails. It succeeds where every line
assembles, and then the bytes of all lines are what is written, if a file is asked for. Otherwise it says how many lines
failed. In both cases the listing is printed, as text or in structured form, and as text its diagnostics are logged, each
once and at its level. A file that is no text comes to nothing. The run, step by step, leaves behind what the outcome
says. -/
theorem run_assemble (lib : Libraries) (h : lib.Documented) (o : AssembleOptions) :
    (∀ source : String,
      let l := Listing.ofSource o.policy source
      let r := runOn lib o source.toUTF8
      (r.exit = 0 ↔ ∀ text ∈ Text.lines source, ∃ encoded, encodeLine text = .ok encoded) ∧
      (r.exit = 0 → r.file = o.out.map fun name => (name, (Text.lines source).flatMap Listing.lineBytes)) ∧
      (r.exit ≠ 0 → r.exit = 1 ∧ r.file = none) ∧
      (match o.format with
        | .text => r.stdout = l.render o.showBytes
        | .json => ∃ text, r.stdout = text ++ "\n" ∧ ∀ j, Json.Written j text ↔ j = .object [
          ("entries", .array (l.entries.map fun e => .object [("line", .number e.line),
            ("address", .number e.address.toNat), ("bytes", .array (e.bytes.map fun b => .number b.toNat)),
            ("source", .string e.source)])),
          ("diagnostics", .array (l.diagnostics.map fun d => .object [("kind", .string d.kind),
            ("severity", .string (if d.isError then "Error" else "Warning")), ("line", .number d.line),
            ("column", .number d.column), ("message", .string d.message)]))]) ∧
      ∃ records, r.stderr = records ++
          (if r.exit = 0 then [] else ["Error: " ++ s!"{o.failures source} line(s) failed to assemble"]) ∧
        match o.format with
        | .text =>
          (records = l.diagnostics.mapIdx fun n d => lib.record n ⟨if d.isError then .error else .warn, "zasm_rs::diag",
            d.message, [("line", .number d.line), ("column", .number d.column), ("kind", .text d.kind)]⟩) ∧
          List.Forall₂ (fun d record => Text.Shows [if d.isError then "ERROR" else "WARN", "zasm_rs::diag", d.message,
            "line", toString d.line, "column", toString d.column, "kind", d.kind] record.toList) l.diagnostics records
        | .json => records = []) ∧
    (∀ bytes : ByteArray, (∀ source : String, source.toUTF8 ≠ bytes) →
      runOn lib o bytes = ⟨"", ["Error: stream did not contain valid UTF-8"], 1, none⟩) ∧
    ∀ bytes w, exec lib (Act.assemble lib o (decodeText bytes)) w = (runOn (lib.after w.stderr.length) o bytes).leave w := by
  refine ⟨fun source => ?_, fun bytes invalid => ?_, fun bytes w => exec_assemble lib o _ w⟩
  · obtain ⟨text, printed, stdout, stderr⟩ := h.runOn_eq o source
    have assembled (all : ∀ text ∈ Text.lines source, Listing.fails text = false) :
        (runOn lib o source.toUTF8).exit = 0 ∧ (runOn lib o source.toUTF8).file =
          o.out.map fun name => (name, (Text.lines source).flatMap Listing.lineBytes) := by
      rw [runOn_of_assembled o printed all]
      exact ⟨rfl, rfl⟩
    have failed (some_fails : ¬∀ text ∈ Text.lines source, Listing.fails text = false) :
        (runOn lib o source.toUTF8).exit = 1 ∧ (runOn lib o source.toUTF8).file = none := by
      rw [runOn_of_failure o printed some_fails]
      exact ⟨rfl, rfl⟩
    have success : (runOn lib o source.toUTF8).exit = 0 ↔ ∀ text ∈ Text.lines source, Listing.fails text = false := by
      refine ⟨fun done => ?_, fun all => (assembled all).1⟩
      by_contra some_fails
      rw [(failed some_fails).1] at done
      exact absurd done (by decide)
    refine ⟨?_, fun done => (assembled (success.1 done)).2, fun stopped => failed (mt success.2 stopped), ?_, _, stderr, ?_⟩
    · simp only [success, fails_eq_false_iff]
    · rw [stdout]
      unfold AssembleOptions.print at printed
      split
      · rename_i format
        rw [format] at printed
        exact (Except.ok.inj printed).symm
      · rename_i format
        rw [format] at printed
        obtain ⟨written, eq, unique⟩ := h.exists_text (.listing (Listing.ofSource o.policy source))
        obtain rfl := Except.ok.inj (printed.symm.trans eq)
        exact ⟨written, rfl, fun j => h.form_listing _ ▸ unique j⟩
    · split
      · exact ⟨by simp only [event_eq],
          forall₂_mapIdx fun n d hd => h.shows_event (Listing.isPlain_of_mem_diagnostics hd) n⟩
      · rfl
  · rw [runOn, decodeText_of_ne_toUTF8 invalid]
    show Outcome.failure "" [] (lib.shown FileError.notText.message) = _
    rw [h.shown]
    rfl

/-- Options that ask for everything but structured output. -/
def AssembleOptions.verbose : AssembleOptions := ⟨"in.asm", some "out.bin", .text, true, true⟩

/-- Options that ask for structured output only. -/
def AssembleOptions.structured : AssembleOptions := ⟨"in.asm", none, .json, false, false⟩

/-- A source that assembles with a warning, one with two lines that fail, a file that is no text, and a warning and an error
in structured form. The log has times. -/
theorem run_assemble_verbose :
    runOn .stamped .verbose "JR 200\nRET".toUTF8 = ⟨"0000  18 C8        JR 200\n0002  C9           RET\n",
      ["2026-01-01T00:00:00.000000Z  WARN zasm_rs::diag: 200 overflows signed 8-bit offset of JR" ++
        " line=1 column=3 kind=Overflow"], 0, some ("out.bin", [0x18, 0xC8, 0xC9])⟩ ∧
    runOn .stamped .verbose "JR\nRET\nJP A".toUTF8 = ⟨"0000  C9           RET\n",
      ["2026-01-01T00:00:00.000000Z ERROR zasm_rs::diag: no encoding of JR for these operands" ++
          " line=1 column=0 kind=Evaluation",
        "2026-01-01T00:00:00.000001Z ERROR zasm_rs::diag: no encoding of JP for these operands" ++
          " line=3 column=0 kind=Evaluation",
        "Error: 2 line(s) failed to assemble"], 1, none⟩ ∧
    runOn .stamped .verbose ⟨#[0xFF]⟩ = ⟨"", ["Error: stream did not contain valid UTF-8"], 1, none⟩ ∧
    ∃ text, runOn .stamped .structured "JR 200\nFOO".toUTF8 =
        ⟨text ++ "\n", ["Error: 1 line(s) failed to assemble"], 1, none⟩ ∧
      ∀ j, Json.Written j text ↔ j = .object [
        ("entries", .array [.object [("line", .number 1), ("address", .number 0),
          ("bytes", .array [.number 0x18, .number 0xC8]), ("source", .string "JR 200")]]),
        ("diagnostics", .array [
          .object [("kind", .string "Overflow"), ("severity", .string "Warning"), ("line", .number 1),
            ("column", .number 3), ("message", .string "200 overflows signed 8-bit offset of JR")],
          .object [("kind", .string "Syntax"), ("severity", .string "Error"), ("line", .number 2), ("column", .number 0),
            ("message", .string "syntax error at column 0: statement must start with a mnemonic")]])] := by
  obtain ⟨runs, noText, -⟩ := run_assemble .stamped Libraries.documented_stamped .verbose
  have all : ∀ text ∈ Text.lines "JR 200\nRET", Listing.fails text = false := by decide +kernel
  have two : ¬∀ text ∈ Text.lines "JR\nRET\nJP A", Listing.fails text = false := by decide +kernel
  have one : ¬∀ text ∈ Text.lines "JR 200\nFOO", Listing.fails text = false := by decide +kernel
  have invalid : ∀ source : String, source.toUTF8 ≠ ⟨#[0xFF]⟩ := fun source h =>
    absurd (h ▸ source.isValidUTF8 : ByteArray.IsValidUTF8 ⟨#[0xFF]⟩) (by decide +kernel)
  refine ⟨?_, ?_, noText _ invalid, ?_⟩
  · obtain ⟨success, file, -, stdout, records, stderr, logged, -⟩ := runs "JR 200\nRET"
    have ok := success.2 fun text ht => fails_eq_false_iff.1 (all text ht)
    refine Outcome.ext (stdout.trans (by decide +kernel)) ?_ ok ((file ok).trans (by decide +kernel))
    rw [stderr, if_pos ok, logged]
    decide +kernel
  · obtain ⟨success, -, failure, stdout, records, stderr, logged, -⟩ := runs "JR\nRET\nJP A"
    have failed := mt success.1 fun h => two fun text ht => fails_eq_false_iff.2 (h text ht)
    refine Outcome.ext (stdout.trans (by decide +kernel)) ?_ (failure failed).1 (failure failed).2
    rw [stderr, if_neg failed, logged]
    decide +kernel
  · obtain ⟨success, -, failure, ⟨text, stdout, form⟩, records, stderr, logged⟩ :=
      (run_assemble .stamped Libraries.documented_stamped .structured).1 "JR 200\nFOO"
    have failed := mt success.1 fun h => one fun text ht => fails_eq_false_iff.2 (h text ht)
    refine ⟨text, Outcome.ext stdout ?_ (failure failed).1 (failure failed).2, ?_⟩
    · show _ = ["Error: 1 line(s) failed to assemble"]
      rw [stderr, if_neg failed, logged]
      decide +kernel
    · have listing : Listing.ofSource AssembleOptions.structured.policy "JR 200\nFOO" =
          ⟨[⟨1, 0, [0x18, 0xC8], "JR 200"⟩],
            [⟨1, .overflow ⟨.JR, .s8, 200, 3⟩⟩, ⟨2, .failure (.statement ⟨.expectedMnemonic, 0⟩)⟩]⟩ := by
        decide +kernel
      have messages : (Overflow.mk .JR .s8 200 3).message = "200 overflows signed 8-bit offset of JR" ∧
          (AsmError.statement ⟨.expectedMnemonic, 0⟩).message =
            "syntax error at column 0: statement must start with a mnemonic" := by
        decide +kernel
      rw [listing] at form
      rw [← messages.1, ← messages.2]
      exact form

end Z80Asm.Cli
