/-
Cells of the opcode map. An encoding is its cell, which is the opcode with the index prefix and the page
before it, and the bytes of its fields; on the bit page the bytes of the fields stand before the opcode.
-/
import Z80Asm.Proofs.Field.Feed

namespace Z80Asm

/-- A place in the opcode map: an opcode of a page, under an index prefix or under none. -/
structure Cell where
  index : Option IndexPair
  page : Page
  opcode : UInt8
  deriving DecidableEq, Repr

/-- The bytes of an instruction of a cell, with those of its fields. -/
def Cell.bytes (c : Cell) (fields : List UInt8) : List UInt8 :=
  let start := (c.index.map IndexPair.prefixByte).toList ++ c.page.bytes
  match c.page with
  | .bit => start ++ fields ++ [c.opcode]
  | _ => start ++ c.opcode :: fields

theorem Cell.bytes_inj {c : Cell} {fs gs : List UInt8} : c.bytes fs = c.bytes gs ↔ fs = gs := by
  obtain ⟨index, page, opcode⟩ := c
  cases page <;> simp [bytes]

namespace Encoding

/-- The cell of an encoding. -/
def cell (e : Encoding) : Cell := ⟨e.index, e.page, e.opcode⟩

@[simp] theorem cell_main (opcode : UInt8) : (main opcode).cell = ⟨none, .main, opcode⟩ := rfl
@[simp] theorem cell_bit (opcode : UInt8) : (bit opcode).cell = ⟨none, .bit, opcode⟩ := rfl
@[simp] theorem cell_extended (opcode : UInt8) : (extended opcode).cell = ⟨none, .extended, opcode⟩ := rfl
@[simp] theorem cell_withData (e : Encoding) (w : Width) (v : Int32) (i : Nat) : (e.withData w v i).cell = e.cell := rfl
@[simp] theorem cell_indexedBy (e : Encoding) (i : IndexPair) :
    (e.indexedBy (some i)).cell = { e.cell with index := some i } := rfl
@[simp] theorem cell_onMemory (e : Encoding) (i : IndexPair) (d : Int32) (operand : Nat) :
    (e.onMemory (.indexed i d) operand).cell = { e.cell with index := some i } := rfl

/-- The bytes of the fields of an encoding. -/
def tail (e : Encoding) : List UInt8 := e.fields.flatMap Field.bytes

theorem fieldBytes_eq_flatMap (f : Option Field) : fieldBytes f = f.toList.flatMap Field.bytes := by
  cases f <;> simp [fieldBytes]

/-- The bytes of an encoding, where none on the bit page has data. -/
theorem bytes_eq_cell_bytes {e : Encoding} (h : e.page = .bit → e.data = none) : e.bytes = e.cell.bytes e.tail := by
  obtain ⟨index, page, opcode, displacement, data⟩ := e
  cases page with
  | bit =>
    obtain rfl := h rfl
    simp [bytes, Cell.bytes, cell, tail, fields, fieldBytes_eq_flatMap]
  | _ => simp [bytes, Cell.bytes, cell, tail, fields, fieldBytes_eq_flatMap]

end Encoding

/-- The bytes of the field that an operand feeds. -/
def Mnemonic.operandBytes (m : Mnemonic) (operands : List Operand) (x : Operand) : List UInt8 :=
  match m.width? operands x with
  | some w => w.bytes x.value
  | none => []

theorem Row.tail_eq {m : Mnemonic} {xs : List Operand} {e : Encoding} (h : Row m xs e) :
    e.tail = xs.flatMap (m.operandBytes xs) := by
  rw [Encoding.tail, h.fields_eq, Mnemonic.fields]
  -- the positions, which no byte shows, vary in the induction; the operands that decide the widths do not
  suffices ∀ (ys : List Operand) (k : Nat),
      ((ys.zipIdx k).filterMap fun p => m.field? xs p.1 p.2).flatMap Field.bytes = ys.flatMap (m.operandBytes xs) from
    this xs 0
  intro ys
  induction ys with
  | nil => intro k; rfl
  | cons y ys ih =>
    intro k
    rw [List.zipIdx_cons, List.flatMap_cons, ← ih (k + 1), Mnemonic.operandBytes]
    cases hw : m.width? xs y <;> simp [Mnemonic.field?, hw, Field.bytes]

/-! ## The bit page -/

/-- On the bit page an encoding has a displacement under an index prefix, and no other field. -/
structure Encoding.BitRegular (e : Encoding) : Prop where
  data : e.page = .bit → e.data = none
  displacement : e.page = .bit → e.tail.length = e.index.toList.length

theorem Encoding.bitRegular_of_page {e : Encoding} (h : e.page ≠ .bit) : e.BitRegular :=
  ⟨fun hp => absurd hp h, fun hp => absurd hp h⟩

theorem BitPage.Target.bitRegular {opcode : UInt8} {first : Nat} {xs : List Operand} {e : Encoding}
    (h : Target opcode first xs e) : e.BitRegular := by
  cases h <;> exact ⟨fun _ => rfl, fun _ => rfl⟩

theorem Row.bitRegular {m : Mnemonic} {xs : List Operand} {e : Encoding} (h : Row m xs e) : e.BitRegular := by
  cases h with
  | rotation r row => exact row.bitRegular
  | bit b row =>
    obtain ⟨-, row⟩ := row
    exact row.bitRegular
  | load row => cases row <;> exact Encoding.bitRegular_of_page nofun
  | alu op row =>
    cases row with
    | short implicit source => cases source <;> exact Encoding.bitRegular_of_page nofun
    | long source => cases source <;> exact Encoding.bitRegular_of_page nofun
    | _ => exact Encoding.bitRegular_of_page nofun
  | step s row => cases row <;> exact Encoding.bitRegular_of_page nofun
  | jump row =>
    cases row with
    | absolute row => cases row <;> exact Encoding.bitRegular_of_page nofun
    | _ => exact Encoding.bitRegular_of_page nofun
  | @implied m e opcode => cases m <;> cases opcode <;> exact Encoding.bitRegular_of_page nofun
  | _ row => cases row <;> exact Encoding.bitRegular_of_page nofun

theorem Row.bytes_eq {m : Mnemonic} {xs : List Operand} {e : Encoding} (h : Row m xs e) :
    e.bytes = e.cell.bytes e.tail := Encoding.bytes_eq_cell_bytes h.bitRegular.data

end Z80Asm
