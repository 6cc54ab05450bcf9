/-
Where a source is left off. A listing that stops has the lines in front of the first failure, and that failure, of the
listing that keeps going (`Listing.ofSource_stop`); where nothing fails, both are the same.
-/
import Z80Asm.Proofs.Assembler.Append

namespace Z80Asm.Listing

variable {policy : Policy} {line : Nat} {address : UInt32} {texts : List String}

/-! ## Lines of the entries and the diagnostics -/

/-- Whether all entries and diagnostics are about lines from one number to another. -/
structure Within (first stop : Nat) (l : Listing) : Prop where
  entries : ∀ e ∈ l.entries, first ≤ e.line ∧ e.line < stop
  diagnostics : ∀ d ∈ l.diagnostics, first ≤ d.line ∧ d.line < stop

theorem Within.append {i j k : Nat} {l m : Listing} (hl : l.Within i j) (hm : m.Within j k) (hij : i ≤ j) (hjk : j ≤ k) :
    (l ++ m).Within i k := by
  constructor
  · intro e he
    rcases List.mem_append.1 he with he | he
    · have := hl.entries e he
      omega
    · have := hm.entries e he
      omega
  · intro d hd
    rcases List.mem_append.1 hd with hd | hd
    · have := hl.diagnostics d hd
      omega
    · have := hm.diagnostics d hd
      omega

theorem within_empty (first stop : Nat) : Within first stop empty :=
  ⟨List.forall_mem_nil _, List.forall_mem_nil _⟩

theorem within_failure (line : Nat) (e : AsmError) : Within line (line + 1) ⟨[], [⟨line, .failure e⟩]⟩ :=
  ⟨nofun, List.forall_mem_singleton.2 ⟨Nat.le_refl line, Nat.lt_succ_self line⟩⟩

theorem within_encoded (line : Nat) (address : UInt32) (text : String) (encoded : Encoded) :
    Within line (line + 1) ⟨[⟨line, address, encoded.bytes, text⟩], encoded.warnings.map (Diagnostic.on line)⟩ := by
  refine ⟨List.forall_mem_singleton.2 ⟨Nat.le_refl line, Nat.lt_succ_self line⟩, fun d hd => ?_⟩
  obtain ⟨w, -, rfl⟩ := List.mem_map.1 hd
  exact ⟨Nat.le_refl line, Nat.lt_succ_self line⟩

/-- A listing is about its lines. -/
theorem within_ofLines (policy : Policy) (line : Nat) (address : UInt32) (texts : List String) :
    (ofLines policy line address texts).Within line (line + texts.length) := by
  induction texts generalizing line address with
  | nil => exact within_empty line _
  | cons text more ih =>
    have last : line + (text :: more).length = line + 1 + more.length := by rw [List.length_cons]; omega
    rw [last]
    cases ht : encodeLine text with
    | ok encoded =>
      rw [ofLines_of_ok ht]
      exact (within_encoded line address text encoded).append (ih (line + 1) _) (by omega) (by omega)
    | error e =>
      cases policy with
      | stop =>
        rw [ofLines_stop_of_error ht]
        exact (within_failure line e).append (within_empty _ _) (by omega) (Nat.le_add_right ..)
      | keepGoing =>
        rw [ofLines_keepGoing_of_error ht]
        exact (within_failure line e).append (ih (line + 1) address) (by omega) (by omega)

/-! ## Both policies -/

/-- The policy plays no part in lines that all assemble. -/
theorem ofLines_stop (line : Nat) (address : UInt32) (h : ∀ text ∈ texts, fails text = false) :
    ofLines .stop line address texts = ofLines .keepGoing line address texts := by
  induction texts generalizing line address with
  | nil => rfl
  | cons text more ih =>
    have hm : ∀ t ∈ more, fails t = false := fun t ht => h t (List.mem_cons_of_mem text ht)
    cases ht : encodeLine text with
    | ok encoded => rw [ofLines_of_ok ht, ofLines_of_ok ht, ih _ _ hm]
    | error e =>
      have := h text List.mem_cons_self
      rw [fails_of_error ht] at this
      cases this

/-- Nothing but warnings is reported about lines that all assemble. -/
theorem isError_of_mem_diagnostics (h : ∀ text ∈ texts, fails text = false) {d : Diagnostic}
    (hd : d ∈ (ofLines .keepGoing line address texts).diagnostics) : d.isError = false := by
  have none : (ofLines .keepGoing line address texts).errorCount = 0 := by
    rw [errorCount_ofLines, List.countP_eq_zero]
    intro text ht
    simp [h text ht]
  exact Bool.eq_false_iff.2 (List.countP_eq_zero.1 none d hd)

/-- The first line that fails, with the lines around it. -/
theorem exists_of_findIdx? {i : Nat} (h : texts.findIdx? fails = some i) :
    ∃ before text after e, texts = before ++ text :: after ∧ before.length = i ∧ (∀ t ∈ before, fails t = false) ∧
      encodeLine text = .error e := by
  obtain ⟨hi, hf, hb⟩ := List.findIdx?_eq_some_iff_getElem.1 h
  refine ⟨texts.take i, texts[i], texts.drop (i + 1), ?_⟩
  have before : ∀ t ∈ texts.take i, fails t = false := by
    intro t ht
    obtain ⟨j, hj, rfl⟩ := List.mem_take_iff_getElem.1 ht
    exact Bool.eq_false_iff.2 (hb j (by omega))
  cases he : encodeLine texts[i] with
  | ok encoded => rw [fails_of_ok he] at hf; cases hf
  | error e => exact ⟨e, by simp, by simp; omega, before, rfl⟩

section

variable {before : List String} {text : String} {e : AsmError} (hb : ∀ t ∈ before, fails t = false)
  (he : encodeLine text = .error e) (line : Nat) (address : UInt32) (after : List String)
include hb he

/-- A listing that stops ends in the first failure. -/
theorem ofLines_stop_of_failure : ofLines .stop line address (before ++ text :: after) =
    ofLines .keepGoing line address before ++ ⟨[], [⟨line + before.length, .failure e⟩]⟩ := by
  rw [ofLines_append (.inr hb), ofLines_stop_of_error he, ofLines_stop line address hb]

omit hb in
/-- A listing that keeps going has the lines behind the first failure, too. -/
theorem ofLines_keepGoing_of_failure : ∃ address', ofLines .keepGoing line address (before ++ text :: after) =
    ofLines .keepGoing line address before ++
      (⟨[], [⟨line + before.length, .failure e⟩]⟩ ++ ofLines .keepGoing (line + before.length + 1) address' after) := by
  rw [ofLines_append (.inl rfl), ofLines_keepGoing_of_error he]
  exact ⟨_, rfl⟩

end

theorem errorCount_append (l m : Listing) : (l ++ m).errorCount = l.errorCount + m.errorCount := List.countP_append ..

/-- A listing that stops has one error at most. -/
theorem errorCount_stop (line : Nat) (address : UInt32) (texts : List String) :
    (ofLines .stop line address texts).errorCount = if texts.any fails then 1 else 0 := by
  by_cases h : ∀ text ∈ texts, fails text = false
  · have none : texts.countP fails = 0 := List.countP_eq_zero.2 fun t ht => by simp [h t ht]
    rw [ofLines_stop line address h, errorCount_ofLines, none, if_neg (by simpa using h)]
  · have some_fails : texts.any fails = true := by simpa using h
    obtain ⟨i, hi⟩ : ∃ i, texts.findIdx? fails = some i := by
      cases hi : texts.findIdx? fails with
      | none => exact absurd (List.findIdx?_eq_none_iff.1 hi) h
      | some i => exact ⟨i, rfl⟩
    obtain ⟨before, text, after, e, rfl, -, hb, he⟩ := exists_of_findIdx? hi
    have none : before.countP fails = 0 := List.countP_eq_zero.2 fun t ht => by simp [hb t ht]
    rw [if_pos some_fails, ofLines_stop_of_failure hb he, errorCount_append, errorCount_ofLines, none]
    rfl

/-- Stopping cuts the listing that keeps going at the first failure. Where no line fails, both listings are the same.
Otherwise the one that stops has the entries in front of the first line that fails and the diagnostics up to it, of which
only the last is an error, and its image is the beginning of the other one. -/
theorem ofSource_stop (source : String) :
    ((∀ text ∈ Text.lines source, fails text = false) → ofSource .stop source = ofSource .keepGoing source) ∧
    ∀ i, (Text.lines source).findIdx? fails = some i →
      (ofSource .stop source).entries = (ofSource .keepGoing source).entries.filter (·.line < i + 1) ∧
      (ofSource .stop source).diagnostics = (ofSource .keepGoing source).diagnostics.filter (·.line ≤ i + 1) ∧
      (ofSource .stop source).diagnostics <+: (ofSource .keepGoing source).diagnostics ∧
      (∃ warnings e, (ofSource .stop source).diagnostics = warnings ++ [⟨i + 1, .failure e⟩] ∧
        ∀ d ∈ warnings, d.isError = false) ∧
      (ofSource .stop source).image <+: (ofSource .keepGoing source).image ∧
      (ofSource .stop source).errorCount = 1 := by
  refine ⟨fun h => ofLines_stop 1 0 h, fun i hi => ?_⟩
  obtain ⟨before, text, after, e, lines, rfl, hb, he⟩ := exists_of_findIdx? hi
  have stop := ofLines_stop_of_failure hb he 1 0 after
  obtain ⟨address', go⟩ := @ofLines_keepGoing_of_failure before text e he 1 0 after
  rw [ofSource, ofSource, lines, stop, go, Nat.add_comm 1]
  -- the lines in front have smaller numbers than the failure, and the lines behind it larger ones
  have inFront := within_ofLines .keepGoing 1 0 before
  have behind := within_ofLines .keepGoing (before.length + 1 + 1) address' after
  have warnings (d : Diagnostic) (h : d ∈ (ofLines .keepGoing 1 0 before).diagnostics) := isError_of_mem_diagnostics hb h
  generalize ofLines .keepGoing 1 0 before = front at *
  generalize ofLines .keepGoing (before.length + 1 + 1) address' after = back at *
  simp only [entries_append, diagnostics_append, image_append, List.filter_append]
  refine ⟨?_, ?_, ⟨back.diagnostics, by simp⟩, ⟨front.diagnostics, e, rfl, warnings⟩, ⟨back.image, ?_⟩, ?_⟩
  · have kept : front.entries.filter (·.line < before.length + 1) = front.entries :=
      List.filter_eq_self.2 fun e he => decide_eq_true (by have := inFront.entries e he; omega)
    have dropped : back.entries.filter (·.line < before.length + 1) = [] :=
      List.filter_eq_nil_iff.2 fun e he => by have := behind.entries e he; simp; omega
    rw [kept, dropped, List.filter_nil]
    rfl
  · have kept : front.diagnostics.filter (·.line ≤ before.length + 1) = front.diagnostics :=
      List.filter_eq_self.2 fun d hd => decide_eq_true (by have := inFront.diagnostics d hd; omega)
    have dropped : back.diagnostics.filter (·.line ≤ before.length + 1) = [] :=
      List.filter_eq_nil_iff.2 fun d hd => by have := behind.diagnostics d hd; simp; omega
    rw [kept, dropped]
    simp
  · simp [image]
  · have none : front.errorCount = 0 := List.countP_eq_zero.2 fun d hd => by simp [warnings d hd]
    rw [errorCount_append, none]
    rfl

/-- A line that fails, between a jump that does not reach and a return. -/
theorem ofSource_stop_return : (Text.lines "JR 200\nJR\nRET").findIdx? fails = some 1 ∧
    (ofSource .stop "JR 200\nJR\nRET").entries.map Entry.line = [1] ∧
    (ofSource .keepGoing "JR 200\nJR\nRET").entries.map Entry.line = [1, 3] ∧
    (ofSource .stop "JR 200\nJR\nRET").errorCount = 1 := by
  have first : (Text.lines "JR 200\nJR\nRET").findIdx? fails = some 1 := by decide +kernel
  obtain ⟨entries, -, -, -, -, errors⟩ := (ofSource_stop "JR 200\nJR\nRET").2 1 first
  refine ⟨first, ?_, by decide +kernel, errors⟩
  rw [entries]
  decide +kernel

end Z80Asm.Listing
