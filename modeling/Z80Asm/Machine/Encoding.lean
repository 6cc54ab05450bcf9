/-
One machine instruction in its parts: an optional index prefix, the opcode page, the opcode, and the
immediate fields. The bytes come in this order, except that on the bit page an index displacement stands
before the opcode.
-/
import Z80Asm.Machine.Field
import Z80Asm.Operand.Basic

namespace Z80Asm

/-- The opcode pages: the unprefixed one, the bit page after `CB`, and the extended page after `ED`. -/
inductive Page
  | main | bit | extended
  deriving DecidableEq, Repr

/-- The byte that selects a page. -/
def Page.bytes : Page → List UInt8
  | .main => []
  | .bit => [0xCB]
  | .extended => [0xED]

/-- A machine instruction. -/
structure Encoding where
  index : Option IndexPair
  page : Page
  opcode : UInt8
  displacement : Option Field
  data : Option Field
  deriving DecidableEq, Repr

namespace Encoding

/-! ## Building -/

/-- An opcode of a page, by itself. -/
def ofPage (page : Page) (opcode : UInt8) : Encoding := ⟨none, page, opcode, none, none⟩

/-- An opcode of the unprefixed page. -/
def main (opcode : UInt8) : Encoding := ofPage .main opcode

/-- An opcode of the bit page. -/
def bit (opcode : UInt8) : Encoding := ofPage .bit opcode

/-- An opcode of the extended page. -/
def extended (opcode : UInt8) : Encoding := ofPage .extended opcode

/-- The instruction with an index register, if one is given, in place of `HL`. -/
def indexedBy (p : Option IndexPair) (e : Encoding) : Encoding := { e with index := p <|> e.index }

/-- The instruction with a value after its opcode. -/
def withData (width : Width) (value : Int32) (operand : Nat) (e : Encoding) : Encoding :=
  { e with data := some ⟨width, value, operand⟩ }

/-- The instruction on a memory operand, whose opcode is that for `(HL)`. -/
def onMemory (m : Memory) (operand : Nat) (e : Encoding) : Encoding :=
  match m with
  | .hl => e
  | .indexed p d => { e with index := some p, displacement := some ⟨.s8, d, operand⟩ }

/-! ## Reading -/

/-- The immediate fields, in the order of their bytes. -/
def fields (e : Encoding) : List Field := e.displacement.toList ++ e.data.toList

/-- The fields whose values do not fit. -/
def overflows (e : Encoding) : List Field := e.fields.filter Field.overflows

/-- The bytes of a field that may be absent. -/
def fieldBytes (f : Option Field) : List UInt8 := (f.map Field.bytes).getD []

/-- The bytes of an instruction. -/
def bytes (e : Encoding) : List UInt8 :=
  let start := (e.index.map IndexPair.prefixByte).toList ++ e.page.bytes
  let displacement := fieldBytes e.displacement
  let data := fieldBytes e.data
  match e.page with
  | .bit => start ++ displacement ++ [e.opcode] ++ data
  | _ => start ++ [e.opcode] ++ displacement ++ data

theorem bytes_ne_nil (e : Encoding) : e.bytes ≠ [] := by
  unfold bytes; cases e.page <;> simp

end Encoding

end Z80Asm
