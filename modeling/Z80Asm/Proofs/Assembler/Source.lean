/-
Assembling a source loses, duplicates and misplaces nothing (`Listing.ofSource_keepGoing`). Each line stands in the
listing with its bytes and warnings or with its error, and the addresses are the offsets into the image.
-/
import Z80Asm.Assembler.Listing
import Z80Asm.Proofs.Assembler.Line

namespace Z80Asm

/-! ## Lines in a shared output -/

/-- A listing in the making: the entries so far, the address of the next one, and the output of all lines. -/
structure Progress where
  entries : List Entry
  address : UInt32
  out : Output

namespace Progress

/-- The listing so far. -/
def listing (p : Progress) : Listing := ⟨p.entries, p.out.reports⟩

/-- The lines from one with a number on, assembled into the same output. Errors are reported to the list that the
encoder reports to. -/
def run (policy : Policy) (p : Progress) (line : Nat) : List String → Progress
  | [] => p
  | text :: more =>
    match Encoder.z80.assembleLine line text p.out with
    | (.ok bytes, out) =>
      run policy ⟨p.entries ++ [⟨line, p.address, bytes, text⟩], p.address + UInt32.ofNat bytes.length, out⟩ (line + 1) more
    | (.error e, out) =>
      let failed : Progress := { p with out := { out with reports := out.reports ++ [⟨line, .failure e⟩] } }
      match policy with
      | .stop => failed
      | .keepGoing => run policy failed (line + 1) more

end Progress

/-! ## One line more -/

theorem encodeLineAt_eq (line : Nat) (text : String) : encodeLineAt line text = match encodeLine text with
    | .ok encoded => .ok ⟨encoded.bytes, encoded.warnings.map (Diagnostic.on line)⟩
    | .error e => .error e := by
  rw [encodeLineAt, Encoder.z80_assembleLine]
  cases encodeLine text <;> rfl

namespace Listing

variable {policy : Policy} {line : Nat} {address : UInt32} {text : String} {more : List String}

theorem ofLines_of_ok {encoded : Encoded} (h : encodeLine text = .ok encoded) :
    ofLines policy line address (text :: more) =
      ⟨⟨line, address, encoded.bytes, text⟩ ::
          (ofLines policy (line + 1) (address + UInt32.ofNat encoded.bytes.length) more).entries,
        encoded.warnings.map (Diagnostic.on line) ++
          (ofLines policy (line + 1) (address + UInt32.ofNat encoded.bytes.length) more).diagnostics⟩ := by
  simp only [ofLines, encodeLineAt_eq, h]

theorem ofLines_keepGoing_of_error {e : AsmError} (h : encodeLine text = .error e) :
    ofLines .keepGoing line address (text :: more) =
      ⟨(ofLines .keepGoing (line + 1) address more).entries,
        ⟨line, .failure e⟩ :: (ofLines .keepGoing (line + 1) address more).diagnostics⟩ := by
  simp only [ofLines, encodeLineAt_eq, h]

theorem ofLines_stop_of_error {e : AsmError} (h : encodeLine text = .error e) :
    ofLines .stop line address (text :: more) = ⟨[], [⟨line, .failure e⟩]⟩ := by
  simp only [ofLines, encodeLineAt_eq, h, empty]

end Listing

namespace Progress

/-- The lines add to a listing in the making what they make of their own. The induction is on the lines. -/
theorem listing_run (policy : Policy) (p : Progress) (line : Nat) (lines : List String) :
    (p.run policy line lines).listing =
      ⟨p.entries ++ (Listing.ofLines policy line p.address lines).entries,
        p.out.reports ++ (Listing.ofLines policy line p.address lines).diagnostics⟩ := by
  induction lines generalizing p line with
  | nil => simp only [run, listing, Listing.ofLines, Listing.empty, List.append_nil]
  | cons text more ih =>
    cases h : encodeLine text with
    | ok encoded =>
      rw [Listing.ofLines_of_ok h]
      simp only [run, Encoder.z80_assembleLine, h, ih, List.append_assoc, List.singleton_append]
    | error e =>
      cases policy with
      | stop =>
        rw [Listing.ofLines_stop_of_error h]
        simp only [run, Encoder.z80_assembleLine, h, listing, Output.clear, List.append_nil]
      | keepGoing =>
        rw [Listing.ofLines_keepGoing_of_error h]
        simp only [run, Encoder.z80_assembleLine, h, ih, Output.clear, List.append_assoc, List.singleton_append]

end Progress

/-! ## What the lines contribute -/

namespace Listing

/-- The entry of a numbered line but for its address, if it assembles. -/
def assembled? (p : String × Nat) : Option (Nat × String × List UInt8) :=
  match encodeLine p.1 with
  | .ok encoded => some (p.2, p.1, encoded.bytes)
  | .error _ => none

/-- The reports about a numbered line. -/
def reported (p : String × Nat) : List Diagnostic :=
  match encodeLine p.1 with
  | .ok encoded => encoded.warnings.map (Diagnostic.on p.2)
  | .error e => [⟨p.2, .failure e⟩]

/-- Whether a line fails. -/
def fails (text : String) : Bool :=
  match encodeLine text with
  | .ok _ => false
  | .error _ => true

theorem fails_of_ok {text : String} {encoded : Encoded} (h : encodeLine text = .ok encoded) : fails text = false := by
  simp [fails, h]

theorem fails_of_error {text : String} {e : AsmError} (h : encodeLine text = .error e) : fails text = true := by
  simp [fails, h]

theorem map_entries_ofLines (line : Nat) (address : UInt32) (lines : List String) :
    (ofLines .keepGoing line address lines).entries.map (fun e => (e.line, e.source, e.bytes)) =
      (lines.zipIdx line).filterMap assembled? := by
  induction lines generalizing line address with
  | nil => rfl
  | cons text more ih =>
    rw [List.zipIdx_cons, List.filterMap_cons, assembled?]
    cases h : encodeLine text with
    | ok encoded => rw [ofLines_of_ok h, List.map_cons, ih]
    | error e => rw [ofLines_keepGoing_of_error h, ih]

theorem diagnostics_ofLines (line : Nat) (address : UInt32) (lines : List String) :
    (ofLines .keepGoing line address lines).diagnostics = (lines.zipIdx line).flatMap reported := by
  induction lines generalizing line address with
  | nil => rfl
  | cons text more ih =>
    rw [List.zipIdx_cons, List.flatMap_cons, reported]
    cases h : encodeLine text with
    | ok encoded => rw [ofLines_of_ok h, ih]
    | error e => rw [ofLines_keepGoing_of_error h, ih, List.singleton_append]

theorem errorCount_ofLines (line : Nat) (address : UInt32) (lines : List String) :
    (ofLines .keepGoing line address lines).errorCount = lines.countP fails := by
  induction lines generalizing line address with
  | nil => rfl
  | cons text more ih =>
    cases h : encodeLine text with
    | ok encoded =>
      have warnings : (encoded.warnings.map (Diagnostic.on line)).countP Diagnostic.isError = 0 := by
        rw [List.countP_map, List.countP_eq_zero]
        intro d hd
        rw [Function.comp_apply, Diagnostic.isError_on, isError_of_mem_warnings h hd]
        exact Bool.false_ne_true
      rw [ofLines_of_ok h, errorCount, List.countP_append, warnings, Nat.zero_add,
        List.countP_cons_of_neg (by simp [fails_of_ok h])]
      exact ih _ _
    | error e =>
      rw [ofLines_keepGoing_of_error h, errorCount, List.countP_cons_of_pos rfl, List.countP_cons_of_pos (fails_of_error h)]
      exact congrArg (· + 1) (ih _ _)

/-- The bytes of a line; none, if it fails. -/
def lineBytes (text : String) : List UInt8 :=
  match encodeLine text with
  | .ok encoded => encoded.bytes
  | .error _ => []

theorem image_ofLines (line : Nat) (address : UInt32) (lines : List String) :
    (ofLines .keepGoing line address lines).image = lines.flatMap lineBytes := by
  induction lines generalizing line address with
  | nil => rfl
  | cons text more ih =>
    rw [List.flatMap_cons, lineBytes]
    cases h : encodeLine text with
    | ok encoded => rw [ofLines_of_ok h, image, List.flatMap_cons]; exact congrArg _ (ih _ _)
    | error e => rw [ofLines_keepGoing_of_error h]; exact ih _ _

/-! ## Addresses -/

/-- An address is the number of bytes in front of it, counted on from the first address. -/
theorem address_ofLines (policy : Policy) (line : Nat) (address : UInt32) (lines : List String) {k : Nat} {e : Entry}
    (h : (ofLines policy line address lines).entries[k]? = some e) :
    e.address = address + UInt32.ofNat (((ofLines policy line address lines).entries.take k).flatMap Entry.bytes).length := by
  induction lines generalizing line address k with
  | nil => cases h
  | cons text more ih =>
    cases ht : encodeLine text with
    | ok encoded =>
      rw [ofLines_of_ok ht] at h ⊢
      cases k with
      | zero =>
        rw [List.getElem?_cons_zero, Option.some.injEq] at h
        subst h
        rw [List.take_zero]
        exact (UInt32.add_zero address).symm
      | succ k =>
        rw [List.getElem?_cons_succ] at h
        rw [ih _ _ h, List.take_succ_cons, List.flatMap_cons, List.length_append, UInt32.ofNat_add, UInt32.add_assoc]
    | error fault =>
      cases policy with
      | stop => rw [ofLines_stop_of_error ht] at h; cases h
      | keepGoing =>
        rw [ofLines_keepGoing_of_error ht] at h ⊢
        exact ih _ _ h

theorem toNat_address_ofSource (policy : Policy) (source : String) {k : Nat} {e : Entry}
    (h : (ofSource policy source).entries[k]? = some e) :
    e.address.toNat = (((ofSource policy source).entries.take k).flatMap Entry.bytes).length % UInt32.size := by
  rw [address_ofLines policy 1 0 (Text.lines source) h, UInt32.zero_add, UInt32.toNat_ofNat']
  rfl

/-- The bytes in front of an entry, its own, and the bytes behind it make up the image. -/
theorem image_eq_append (l : Listing) {k : Nat} {e : Entry} (h : l.entries[k]? = some e) :
    l.image = (l.entries.take k).flatMap Entry.bytes ++ e.bytes ++ (l.entries.drop (k + 1)).flatMap Entry.bytes := by
  obtain ⟨hk, rfl⟩ := List.getElem?_eq_some_iff.1 h
  rw [image, List.append_assoc, ← List.flatMap_cons, ← List.drop_eq_getElem_cons hk, ← List.flatMap_append,
    List.take_append_drop]

/-- As long as addresses do not wrap, the bytes of an entry stand at its address in the image. -/
theorem slice_image (policy : Policy) (source : String) (hl : (ofSource policy source).image.length < UInt32.size) {k : Nat}
    {e : Entry} (h : (ofSource policy source).entries[k]? = some e) :
    ((ofSource policy source).image.drop e.address.toNat).take e.bytes.length = e.bytes := by
  have cut := image_eq_append _ h
  rw [cut, List.length_append, List.length_append] at hl
  rw [toNat_address_ofSource policy source h, Nat.mod_eq_of_lt (by omega), cut, List.append_assoc, List.drop_left,
    List.take_left]

/-- Line by line, the listing of a source has the entry of the line, or its one error; the warnings of the entries
stand among the errors in line order, and the addresses are the offsets into the image. Assembling all lines into a
shared output gives this listing. -/
theorem ofSource_keepGoing (source : String) :
    (∀ policy, (Progress.run policy ⟨[], 0, .empty⟩ 1 (Text.lines source)).listing = ofSource policy source) ∧
    (ofSource .keepGoing source).entries.map (fun e => (e.line, e.source, e.bytes)) =
      ((Text.lines source).zipIdx 1).filterMap assembled? ∧
    (ofSource .keepGoing source).diagnostics = ((Text.lines source).zipIdx 1).flatMap reported ∧
    (ofSource .keepGoing source).errorCount = (Text.lines source).countP fails ∧
    (ofSource .keepGoing source).image = (ofSource .keepGoing source).entries.flatMap Entry.bytes ∧
    (∀ (k : Nat) e, (ofSource .keepGoing source).entries[k]? = some e →
      e.address.toNat = (((ofSource .keepGoing source).entries.take k).flatMap Entry.bytes).length % UInt32.size) ∧
    ((ofSource .keepGoing source).image.length < UInt32.size → ∀ (k : Nat) e,
      (ofSource .keepGoing source).entries[k]? = some e →
        ((ofSource .keepGoing source).image.drop e.address.toNat).take e.bytes.length = e.bytes) :=
  ⟨fun policy => Progress.listing_run policy _ 1 (Text.lines source), map_entries_ofLines 1 0 (Text.lines source),
    diagnostics_ofLines 1 0 (Text.lines source), errorCount_ofLines 1 0 (Text.lines source), rfl,
    fun _ _ => toNat_address_ofSource .keepGoing source, fun hl _ _ => slice_image .keepGoing source hl⟩

/-- A line that fails, between a jump that does not reach and a return. -/
theorem ofSource_keepGoing_return : ∃ e, (ofSource .keepGoing "JR 200\nJR\nRET").entries[1]? = some e ∧
    e.address.toNat = 2 ∧
    ((ofSource .keepGoing "JR 200\nJR\nRET").image.drop e.address.toNat).take e.bytes.length = e.bytes := by
  have h : (ofSource .keepGoing "JR 200\nJR\nRET").entries[1]? = some ⟨3, 2, [0xC9], "RET"⟩ := by decide +kernel
  have hl : (ofSource .keepGoing "JR 200\nJR\nRET").image.length < UInt32.size := by decide +kernel
  obtain ⟨-, -, -, -, -, addresses, slices⟩ := ofSource_keepGoing "JR 200\nJR\nRET"
  refine ⟨_, h, ?_, slices hl 1 _ h⟩
  rw [addresses 1 _ h]
  decide +kernel

end Listing

end Z80Asm
