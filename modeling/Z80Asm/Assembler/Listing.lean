/-
Assembling a source. Each line that assembles has an entry with its address, which is the number of bytes
before it; each line that fails has a diagnostic, and the policy says whether the next lines are looked
at.
-/
import Z80Asm.Assembler.Encoder
import Z80Asm.Text.Lines
import Z80Asm.Text.WhiteSpace

namespace Z80Asm

/-- What to do after a line that fails. -/
inductive Policy
  | stop | keepGoing
  deriving DecidableEq, Repr

/-- A line that assembled. Addresses wrap at 32 bits. -/
structure Entry where
  line : Nat
  address : UInt32
  bytes : List UInt8
  source : String
  deriving DecidableEq, Repr

/-- The lines that assembled, and the reports about all lines, in line order. -/
structure Listing where
  entries : List Entry
  diagnostics : List Diagnostic
  deriving DecidableEq, Repr

namespace Listing

/-- The listing without lines. -/
def empty : Listing := ⟨[], []⟩

/-- The listing of lines, given the number and the address of the first. -/
def ofLines (policy : Policy) (line : Nat) (address : UInt32) : List String → Listing
  | [] => empty
  | text :: more =>
    match encodeLineAt line text with
    | .ok encoded =>
      let next := ofLines policy (line + 1) (address + UInt32.ofNat encoded.bytes.length) more
      ⟨⟨line, address, encoded.bytes, text⟩ :: next.entries, encoded.warnings ++ next.diagnostics⟩
    | .error e =>
      let next := match policy with
        | .stop => empty
        | .keepGoing => ofLines policy (line + 1) address more
      ⟨next.entries, ⟨line, .failure e⟩ :: next.diagnostics⟩

/-- The listing of a source. -/
def ofSource (policy : Policy) (source : String) : Listing := ofLines policy 1 0 (Text.lines source)

/-- The number of lines that failed. -/
def errorCount (l : Listing) : Nat := l.diagnostics.countP Diagnostic.isError

/-- All bytes, in line order. -/
def image (l : Listing) : List UInt8 := l.entries.flatMap Entry.bytes

end Listing

/-! ## Text -/

/-- The width of the column of bytes, enough for four of them. -/
def Entry.bytesWidth : Nat := 12

/-- The address of an entry, in at least four digits. -/
def Entry.addressText (e : Entry) : String := String.ofList (Text.hexPadded 4 e.address.toNat)

/-- The bytes of an entry, filled with blanks to the width of their column. -/
def Entry.bytesText (e : Entry) : String :=
  String.ofList ((Text.hexDump e.bytes).toList.rightpad Entry.bytesWidth ' ')

/-- An entry in one line of text, without the white space at the end of its source. -/
def Entry.render (showBytes : Bool) (e : Entry) : String :=
  let bytes := if showBytes then e.bytesText ++ " " else ""
  e.addressText ++ "  " ++ bytes ++ Text.trimEnd e.source ++ "\n"

/-- The text of a listing. -/
def Listing.render (showBytes : Bool) (l : Listing) : String := String.join (l.entries.map (·.render showBytes))

end Z80Asm
