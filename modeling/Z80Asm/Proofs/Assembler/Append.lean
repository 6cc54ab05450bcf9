/-
Assembling a source in parts. The listing of two sources, one behind the other, is the listing of the first one
followed by that of the second, moved behind the lines and the bytes of the first (`Listing.ofSource_append`).
-/
import Z80Asm.Proofs.Assembler.Source
import Z80Asm.Proofs.Text.Lines

namespace Z80Asm

/-- Whether lines behind the given ones are looked at. -/
def Policy.Passes (policy : Policy) (texts : List String) : Prop :=
  policy = .keepGoing ∨ ∀ text ∈ texts, Listing.fails text = false

/-! ## Listings, one behind the other -/

/-- An entry behind so many lines and bytes. Addresses wrap at 32 bits. -/
def Entry.behind (lines bytes : Nat) (e : Entry) : Entry :=
  { e with line := e.line + lines, address := e.address + UInt32.ofNat bytes }

/-- A diagnostic behind so many lines. -/
def Diagnostic.behind (lines : Nat) (d : Diagnostic) : Diagnostic := { d with line := d.line + lines }

namespace Listing

/-- The entries and the diagnostics of two listings, those of the first one in front. -/
instance : Append Listing where
  append l m := ⟨l.entries ++ m.entries, l.diagnostics ++ m.diagnostics⟩

/-- A listing behind so many lines and bytes. -/
def behind (lines bytes : Nat) (l : Listing) : Listing :=
  ⟨l.entries.map (Entry.behind lines bytes), l.diagnostics.map (Diagnostic.behind lines)⟩

@[simp] theorem entries_append (l m : Listing) : (l ++ m).entries = l.entries ++ m.entries := rfl

@[simp] theorem diagnostics_append (l m : Listing) : (l ++ m).diagnostics = l.diagnostics ++ m.diagnostics := rfl

@[simp] theorem image_append (l m : Listing) : (l ++ m).image = l.image ++ m.image := by
  simp [image]

@[simp] theorem image_behind (lines bytes : Nat) (l : Listing) : (l.behind lines bytes).image = l.image := by
  simp [image, behind, List.flatMap_map, Entry.behind]

theorem behind_on (line lines : Nat) (d : Diagnostic) : (d.on line).behind lines = d.on (line + lines) := rfl

/-! ## Lines behind other lines -/

/-- Lines that stand behind others come to the same listing, but for its place. The induction is on the lines, from any
line and address on. -/
theorem ofLines_behind (policy : Policy) (line lines : Nat) (address : UInt32) (bytes : Nat) (texts : List String) :
    ofLines policy (line + lines) (address + UInt32.ofNat bytes) texts = (ofLines policy line address texts).behind lines bytes := by
  induction texts generalizing line address with
  | nil => rfl
  | cons text more ih =>
    have next : line + lines + 1 = line + 1 + lines := by omega
    cases h : encodeLine text with
    | ok encoded =>
      have address' : address + UInt32.ofNat bytes + UInt32.ofNat encoded.bytes.length =
          address + UInt32.ofNat encoded.bytes.length + UInt32.ofNat bytes := by
        rw [UInt32.add_assoc, UInt32.add_assoc, UInt32.add_comm (UInt32.ofNat bytes)]
      rw [ofLines_of_ok h, ofLines_of_ok h, next, address', ih]
      simp [behind, Entry.behind, Function.comp_def, behind_on]
    | error e =>
      cases policy with
      | stop =>
        rw [ofLines_stop_of_error h, ofLines_stop_of_error h]
        rfl
      | keepGoing =>
        rw [ofLines_keepGoing_of_error h, ofLines_keepGoing_of_error h, next, ih]
        rfl

/-- The lines in front come to what they come to alone, and the others to what they come to behind them. The induction is
on the lines in front. -/
theorem ofLines_append {policy : Policy} {a : List String} (ha : policy.Passes a) (line : Nat) (address : UInt32)
    (b : List String) :
    ofLines policy line address (a ++ b) = ofLines policy line address a ++
      ofLines policy (line + a.length) (address + UInt32.ofNat (ofLines policy line address a).image.length) b := by
  induction a generalizing line address with
  | nil => simp [ofLines, empty, image]; rfl
  | cons text more ih =>
    have next : line + (text :: more).length = line + 1 + more.length := by rw [List.length_cons]; omega
    cases h : encodeLine text with
    | ok encoded =>
      have hm : policy.Passes more := ha.imp_right fun all t ht => all t (List.mem_cons_of_mem text ht)
      rw [List.cons_append, ofLines_of_ok h, ofLines_of_ok h, next, ih hm]
      have bytes (l : Listing) : (⟨⟨line, address, encoded.bytes, text⟩ :: l.entries,
          encoded.warnings.map (Diagnostic.on line) ++ l.diagnostics⟩ : Listing).image = encoded.bytes ++ l.image := rfl
      rw [bytes, List.length_append, UInt32.ofNat_add, UInt32.add_assoc]
      exact congrArg (Listing.mk _) (List.append_assoc ..).symm
    | error e =>
      obtain rfl : policy = .keepGoing := ha.resolve_right fun all => by
        have := all text List.mem_cons_self
        rw [fails_of_error h] at this
        cases this
      rw [List.cons_append, ofLines_keepGoing_of_error h, ofLines_keepGoing_of_error h, next, ih (.inl rfl)]
      rfl

/-- Assembling is compositional. Where a source is empty or ends in a line feed, another source behind it adds its entries
and diagnostics, moved behind the lines and the bytes of the first, and its bytes follow the bytes of the first. -/
theorem ofSource_append (a b : String) (h : a = "" ∨ ∃ s, a = s ++ "\n") :
    (ofSource .keepGoing (a ++ b)).entries = (ofSource .keepGoing a).entries ++ (ofSource .keepGoing b).entries.map (fun e =>
      { e with line := e.line + (Text.lines a).length,
               address := e.address + UInt32.ofNat (ofSource .keepGoing a).image.length }) ∧
    (ofSource .keepGoing (a ++ b)).diagnostics = (ofSource .keepGoing a).diagnostics ++
      (ofSource .keepGoing b).diagnostics.map (fun d => { d with line := d.line + (Text.lines a).length }) ∧
    (ofSource .keepGoing (a ++ b)).image = (ofSource .keepGoing a).image ++ (ofSource .keepGoing b).image := by
  have parts : ofSource .keepGoing (a ++ b) = ofSource .keepGoing a ++
      (ofSource .keepGoing b).behind (Text.lines a).length (ofSource .keepGoing a).image.length := by
    rw [ofSource, Text.lines_append h, ofLines_append (.inl rfl), ofLines_behind]
    rfl
  rw [parts]
  exact ⟨rfl, rfl, by simp⟩

/-- A return, behind a jump that does not reach and a line that fails. -/
theorem ofSource_append_return :
    (ofSource .keepGoing ("JR 200\r\nJR\n" ++ "RET")).entries =
      [⟨1, 0, [0x18, 0xC8], "JR 200"⟩] ++ [⟨1 + 2, 0 + 2, [0xC9], "RET"⟩] := by
  rw [(ofSource_append "JR 200\r\nJR\n" "RET" (.inr ⟨"JR 200\r\nJR", rfl⟩)).1]
  decide +kernel

end Listing

end Z80Asm
