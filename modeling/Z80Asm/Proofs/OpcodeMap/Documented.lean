/-
The documented instruction set, as byte sequences: with the forms for the halves of the index registers and
the indexed ones that copy to a register, these are all that the encoder writes, and it writes each of them
(`Encoder.z80_emits_iff`). The opcodes are listed here one by one, apart from the tables that encode and
decode.
-/
import Z80Asm.Proofs.OpcodeMap.Disassemble

namespace Z80Asm

/-! ## The documented instructions -/

namespace Documented

/-- The bytes of the main page that begin a longer opcode. -/
def prefixes : List UInt8 := [0xCB, 0xDD, 0xED, 0xFD]

/-- The opcodes that one byte follows. -/
def withByte : List UInt8 :=
  [0x06, 0x0E, 0x16, 0x1E, 0x26, 0x2E, 0x36, 0x3E, 0xC6, 0xCE, 0xD6, 0xDE, 0xE6, 0xEE, 0xF6, 0xFE, 0xD3, 0xDB,
    0x10, 0x18, 0x20, 0x28, 0x30, 0x38]

/-- The opcodes that two bytes follow; the last sixteen are the jumps and the calls on a condition. -/
def withWord : List UInt8 :=
  [0x01, 0x11, 0x21, 0x31, 0x22, 0x2A, 0x32, 0x3A, 0xC3, 0xCD,
    0xC2, 0xCA, 0xD2, 0xDA, 0xE2, 0xEA, 0xF2, 0xFA, 0xC4, 0xCC, 0xD4, 0xDC, 0xE4, 0xEC, 0xF4, 0xFC]

/-- The row of the bit page that is not documented. -/
def emptyRow : List UInt8 := [0x30, 0x31, 0x32, 0x33, 0x34, 0x35, 0x36, 0x37]

/-- The opcodes of the extended page that nothing follows. -/
def extendedAlone : List UInt8 :=
  [0x40, 0x48, 0x50, 0x58, 0x60, 0x68, 0x70, 0x78, 0x41, 0x49, 0x51, 0x59, 0x61, 0x69, 0x71, 0x79,
    0x42, 0x52, 0x62, 0x72, 0x4A, 0x5A, 0x6A, 0x7A, 0x44, 0x45, 0x4D, 0x46, 0x56, 0x5E, 0x47, 0x4F, 0x57, 0x5F,
    0x67, 0x6F, 0xA0, 0xA1, 0xA2, 0xA3, 0xA8, 0xA9, 0xAA, 0xAB, 0xB0, 0xB1, 0xB2, 0xB3, 0xB8, 0xB9, 0xBA, 0xBB]

/-- The opcodes of the extended page that two bytes follow. -/
def extendedWithWord : List UInt8 := [0x43, 0x53, 0x73, 0x4B, 0x5B, 0x7B]

/-- The opcodes that nothing follows under an index prefix. -/
def indexedAlone : List UInt8 :=
  [0x09, 0x19, 0x29, 0x39, 0x23, 0x2B, 0x24, 0x25, 0x2C, 0x2D, 0x44, 0x45, 0x4C, 0x4D, 0x54, 0x55, 0x5C, 0x5D,
    0x7C, 0x7D, 0x60, 0x61, 0x62, 0x63, 0x64, 0x65, 0x67, 0x68, 0x69, 0x6A, 0x6B, 0x6C, 0x6D, 0x6F,
    0x84, 0x85, 0x8C, 0x8D, 0x94, 0x95, 0x9C, 0x9D, 0xA4, 0xA5, 0xAC, 0xAD, 0xB4, 0xB5, 0xBC, 0xBD,
    0xE1, 0xE3, 0xE5, 0xE9, 0xF9]

/-- The opcodes that one byte of data follows under an index prefix. -/
def indexedWithByte : List UInt8 := [0x26, 0x2E]

/-- The opcodes that two bytes of data follow under an index prefix. -/
def indexedWithWord : List UInt8 := [0x21, 0x22, 0x2A]

/-- The opcodes that a displacement follows under an index prefix. -/
def indexedWithOffset : List UInt8 :=
  [0x34, 0x35, 0x46, 0x4E, 0x56, 0x5E, 0x66, 0x6E, 0x7E, 0x70, 0x71, 0x72, 0x73, 0x74, 0x75, 0x77,
    0x86, 0x8E, 0x96, 0x9E, 0xA6, 0xAE, 0xB6, 0xBE]

end Documented

open Documented in
/-- The bytes of the documented instructions. -/
inductive Documented : List UInt8 → Prop
  -- the main page
  | alone {opcode : UInt8} (own : opcode ∉ prefixes) (noByte : opcode ∉ withByte) (noWord : opcode ∉ withWord) :
    Documented [opcode]
  | byte {opcode : UInt8} (h : opcode ∈ withByte) (n : UInt8) : Documented [opcode, n]
  | word {opcode : UInt8} (h : opcode ∈ withWord) (low high : UInt8) : Documented [opcode, low, high]
  -- the bit page and the extended page
  | bit {opcode : UInt8} (h : opcode ∉ emptyRow) : Documented [0xCB, opcode]
  | extended {opcode : UInt8} (h : opcode ∈ extendedAlone) : Documented [0xED, opcode]
  | extendedWord {opcode : UInt8} (h : opcode ∈ extendedWithWord) (low high : UInt8) :
    Documented [0xED, opcode, low, high]
  -- the index prefixes
  | indexed (i : IndexPair) {opcode : UInt8} (h : opcode ∈ indexedAlone) : Documented [i.prefixByte, opcode]
  | indexedByte (i : IndexPair) {opcode : UInt8} (h : opcode ∈ indexedWithByte) (n : UInt8) :
    Documented [i.prefixByte, opcode, n]
  | indexedWord (i : IndexPair) {opcode : UInt8} (h : opcode ∈ indexedWithWord) (low high : UInt8) :
    Documented [i.prefixByte, opcode, low, high]
  | displaced (i : IndexPair) {opcode : UInt8} (h : opcode ∈ indexedWithOffset) (d : UInt8) :
    Documented [i.prefixByte, opcode, d]
  | displacedByte (i : IndexPair) (d n : UInt8) : Documented [i.prefixByte, 0x36, d, n]
  | displacedBit (i : IndexPair) (d : UInt8) {opcode : UInt8} (h : opcode ∉ emptyRow) :
    Documented [i.prefixByte, 0xCB, d, opcode]

/-! ## Their cells -/

/-- The number of bytes that the values of the instruction in a cell have; none, if the cell is empty. -/
def Cell.size? (c : Cell) : Option Nat := c.form?.map fun (m, xs) => (xs.flatMap (m.operandBytes xs)).length

namespace Documented

/-- The sizes of the cells in the lists. -/
structure Sized : Prop where
  prefixes : ∀ opcode ∈ prefixes, Cell.size? ⟨none, .main, opcode⟩ = none
  withByte : ∀ opcode ∈ withByte, Cell.size? ⟨none, .main, opcode⟩ = some 1
  withWord : ∀ opcode ∈ withWord, Cell.size? ⟨none, .main, opcode⟩ = some 2
  emptyRow : ∀ index, ∀ opcode ∈ emptyRow, Cell.size? ⟨index, .bit, opcode⟩ = none
  extendedAlone : ∀ opcode ∈ extendedAlone, Cell.size? ⟨none, .extended, opcode⟩ = some 0
  extendedWithWord : ∀ opcode ∈ extendedWithWord, Cell.size? ⟨none, .extended, opcode⟩ = some 2
  indexedAlone : ∀ i, ∀ opcode ∈ indexedAlone, Cell.size? ⟨some i, .main, opcode⟩ = some 0
  indexedWithByte : ∀ i, ∀ opcode ∈ indexedWithByte, Cell.size? ⟨some i, .main, opcode⟩ = some 1
  indexedWithWord : ∀ i, ∀ opcode ∈ indexedWithWord, Cell.size? ⟨some i, .main, opcode⟩ = some 2
  indexedWithOffset : ∀ i, ∀ opcode ∈ indexedWithOffset, Cell.size? ⟨some i, .main, opcode⟩ = some 1

/-- They are checked opcode by opcode. -/
theorem sized : Sized where
  prefixes := by decide +kernel
  withByte := by decide +kernel
  withWord := by decide +kernel
  emptyRow := by rintro (_ | _ | _) <;> decide +kernel
  extendedAlone := by decide +kernel
  extendedWithWord := by decide +kernel
  indexedAlone := by rintro (_ | _) <;> decide +kernel
  indexedWithByte := by rintro (_ | _) <;> decide +kernel
  indexedWithWord := by rintro (_ | _) <;> decide +kernel
  indexedWithOffset := by rintro (_ | _) <;> decide +kernel

/-- Whether a cell is in the list for the number of bytes that its values have. An empty cell of the main page
is a prefix, and one of the bit page is in the empty row. -/
def isListed (c : Cell) : Bool :=
  match c.index, c.page, c.size? with
  | none, .main, none => prefixes.contains c.opcode
  | none, .main, some 0 => true
  | none, .main, some 1 => withByte.contains c.opcode
  | none, .main, some 2 => withWord.contains c.opcode
  | _, .bit, none => emptyRow.contains c.opcode
  | none, .bit, some 0 => true
  | some _, .bit, some 1 => true
  | none, .extended, some 0 => extendedAlone.contains c.opcode
  | none, .extended, some 2 => extendedWithWord.contains c.opcode
  | some _, .main, some 0 => indexedAlone.contains c.opcode
  | some _, .main, some 1 => indexedWithByte.contains c.opcode || indexedWithOffset.contains c.opcode
  | some _, .main, some 2 => indexedWithWord.contains c.opcode || c.opcode == 0x36
  | some _, .main, none => true
  | _, .extended, none => true
  | _, _, _ => false

theorem isListed_eq_true : ∀ c : Cell, isListed c = true := by
  refine Cell.forall_of_opcodes ?_ ?_ ?_ <;> rintro (_ | _ | _) <;> decide +kernel

theorem of_main {opcode : UInt8} {fields : List UInt8} (h : Cell.size? ⟨none, .main, opcode⟩ = some fields.length) :
    Documented (opcode :: fields) := by
  have listed := isListed_eq_true ⟨none, .main, opcode⟩
  rw [isListed, h] at listed
  match fields with
  | [] =>
    refine .alone ?_ ?_ ?_ <;> intro hm
    · rw [sized.prefixes opcode hm] at h; cases h
    · rw [sized.withByte opcode hm] at h; cases h
    · rw [sized.withWord opcode hm] at h; cases h
  | [n] => exact .byte (List.contains_iff_mem.1 listed) n
  | [low, high] => exact .word (List.contains_iff_mem.1 listed) low high
  | _ :: _ :: _ :: _ => cases listed

theorem of_extended {opcode : UInt8} {fields : List UInt8}
    (h : Cell.size? ⟨none, .extended, opcode⟩ = some fields.length) : Documented (0xED :: opcode :: fields) := by
  have listed := isListed_eq_true ⟨none, .extended, opcode⟩
  rw [isListed, h] at listed
  match fields with
  | [] => exact .extended (List.contains_iff_mem.1 listed)
  | [n] => cases listed
  | [low, high] => exact .extendedWord (List.contains_iff_mem.1 listed) low high
  | _ :: _ :: _ :: _ => cases listed

theorem of_indexed (i : IndexPair) {opcode : UInt8} {fields : List UInt8}
    (h : Cell.size? ⟨some i, .main, opcode⟩ = some fields.length) : Documented (i.prefixByte :: opcode :: fields) := by
  have listed := isListed_eq_true ⟨some i, .main, opcode⟩
  rw [isListed, h] at listed
  match fields with
  | [] => exact .indexed i (List.contains_iff_mem.1 listed)
  | [n] =>
    rcases Bool.or_eq_true_iff.1 listed with byte | offset
    · exact .indexedByte i (List.contains_iff_mem.1 byte) n
    · exact .displaced i (List.contains_iff_mem.1 offset) n
  | [low, high] =>
    rcases Bool.or_eq_true_iff.1 listed with word | both
    · exact .indexedWord i (List.contains_iff_mem.1 word) low high
    · obtain rfl : opcode = 0x36 := by simpa using both
      exact .displacedByte i low high
  | _ :: _ :: _ :: _ => cases listed

/-- A cell of the map is documented, with any bytes for its values. -/
theorem of_cell {c : Cell} {fields : List UInt8} (h : c.size? = some fields.length) : Documented (c.bytes fields) := by
  have listed := isListed_eq_true c
  obtain ⟨index, page, opcode⟩ := c
  cases page with
  | main =>
    cases index with
    | none => exact of_main h
    | some i => exact of_indexed i h
  | bit =>
    have own : opcode ∉ emptyRow := by
      intro hm
      rw [sized.emptyRow index opcode hm] at h; cases h
    rw [isListed, h] at listed
    match index, fields with
    | none, [] => exact .bit own
    | some i, [d] => exact .displacedBit i d own
    | none, _ :: _ => cases listed
    | some i, [] => cases listed
    | some i, _ :: _ :: _ => cases listed
  | extended =>
    cases index with
    | none => exact of_extended h
    | some i =>
      rw [isListed, h] at listed
      cases listed

theorem size?_alone {opcode : UInt8} (own : opcode ∉ prefixes) (noByte : opcode ∉ withByte)
    (noWord : opcode ∉ withWord) : Cell.size? ⟨none, .main, opcode⟩ = some 0 := by
  have listed := isListed_eq_true ⟨none, .main, opcode⟩
  rw [isListed] at listed
  split at listed
  · exact absurd (List.contains_iff_mem.1 listed) own
  · assumption
  · exact absurd (List.contains_iff_mem.1 listed) noByte
  · exact absurd (List.contains_iff_mem.1 listed) noWord
  all_goals simp_all

theorem size?_bit {index : Option IndexPair} {opcode : UInt8} (own : opcode ∉ emptyRow) :
    Cell.size? ⟨index, .bit, opcode⟩ = some index.toList.length := by
  have listed := isListed_eq_true ⟨index, .bit, opcode⟩
  rw [isListed] at listed
  cases hs : Cell.size? ⟨index, .bit, opcode⟩ with
  | none =>
    rw [hs] at listed
    cases index <;> exact absurd (List.contains_iff_mem.1 listed) own
  | some n =>
    rw [hs] at listed
    match index, n with
    | none, 0 => rfl
    | some i, 1 => rfl
    | none, n + 1 => cases listed
    | some i, 0 => cases listed
    | some i, n + 2 => cases listed

/-- A documented instruction has a cell of the map, and bytes for its values. -/
theorem exists_cell {bs : List UInt8} (h : Documented bs) :
    ∃ (c : Cell) (fields : List UInt8), c.size? = some fields.length ∧ bs = c.bytes fields := by
  cases h with
  | alone own noByte noWord => exact ⟨⟨none, .main, _⟩, [], size?_alone own noByte noWord, rfl⟩
  | byte h n => exact ⟨⟨none, .main, _⟩, [n], sized.withByte _ h, rfl⟩
  | word h low high => exact ⟨⟨none, .main, _⟩, [low, high], sized.withWord _ h, rfl⟩
  | bit h => exact ⟨⟨none, .bit, _⟩, [], size?_bit h, rfl⟩
  | extended h => exact ⟨⟨none, .extended, _⟩, [], sized.extendedAlone _ h, rfl⟩
  | extendedWord h low high => exact ⟨⟨none, .extended, _⟩, [low, high], sized.extendedWithWord _ h, rfl⟩
  | indexed i h => exact ⟨⟨some i, .main, _⟩, [], sized.indexedAlone i _ h, rfl⟩
  | indexedByte i h n => exact ⟨⟨some i, .main, _⟩, [n], sized.indexedWithByte i _ h, rfl⟩
  | indexedWord i h low high => exact ⟨⟨some i, .main, _⟩, [low, high], sized.indexedWithWord i _ h, rfl⟩
  | displaced i h d => exact ⟨⟨some i, .main, _⟩, [d], sized.indexedWithOffset i _ h, rfl⟩
  | displacedByte i d n => exact ⟨⟨some i, .main, 0x36⟩, [d, n], by cases i <;> rfl, rfl⟩
  | displacedBit i d h => exact ⟨⟨some i, .bit, _⟩, [d], size?_bit h, rfl⟩

end Documented

/-! ## Values for all bytes -/

theorem Row.size?_cell {m : Mnemonic} {xs : List Operand} {e : Encoding} (h : Row m xs e) :
    e.cell.size? = some e.tail.length := by
  obtain ⟨f, row, -, tail⟩ := h.reduce
  have alike := m.alike_mapValues (fun _ _ => 0) (m.reduce xs)
  rw [Cell.size?, h.form?_cell, ← tail, row.tail_eq]
  exact congrArg some alike.length_eq

/-- Operands without values take any bytes for them, with values in range. -/
theorem exists_operands {m : Mnemonic} {blanks : List Operand} : ∀ (xs : List Operand) (fields : List UInt8),
    fields.length = (xs.flatMap (m.operandBytes blanks)).length → (∀ x ∈ xs, x.isWritable = true) →
      ∃ ys, List.Forall₂ (fun x y => Operand.Alike (m.width? blanks x) x y) xs ys ∧
        (∀ y ∈ ys, y.isWritable = true ∧ ∀ w, m.width? blanks y = some w → w.fits y.value = true) ∧
        ys.flatMap (m.operandBytes blanks) = fields
  | [], fields, hl, _ => ⟨[], .nil, nofun, (List.eq_nil_of_length_eq_zero hl).symm⟩
  | x :: xs, fields, hl, hx => by
    have hxs : ∀ x ∈ xs, x.isWritable = true := fun x hm => hx x (List.mem_cons_of_mem _ hm)
    rw [List.flatMap_cons, List.length_append] at hl
    cases hw : m.width? blanks x with
    | none =>
      rw [Mnemonic.operandBytes, hw] at hl
      obtain ⟨ys, alike, fits, bytes⟩ := exists_operands xs fields (by simpa using hl) hxs
      refine ⟨x :: ys, .cons (hw ▸ .same none x) alike, ?_, ?_⟩
      · rintro y hy
        rcases List.mem_cons.1 hy with rfl | hy
        · exact ⟨hx y List.mem_cons_self, fun w h => by rw [hw] at h; cases h⟩
        · exact fits y hy
      · rw [List.flatMap_cons, Mnemonic.operandBytes, hw, bytes]; rfl
    | some w =>
      rw [Mnemonic.operandBytes, hw, Width.length_bytes] at hl
      have size : (fields.take w.size).length = w.size := by rw [List.length_take]; omega
      have left : (fields.drop w.size).length = (xs.flatMap (m.operandBytes blanks)).length := by
        rw [List.length_drop]; omega
      obtain ⟨ys, alike, fits, bytes⟩ := exists_operands xs (fields.drop w.size) left hxs
      refine ⟨x.withValue (w.read (fields.take w.size)) :: ys, .cons (hw ▸ .withValue hw _) alike, ?_, ?_⟩
      · rintro y hy
        rcases List.mem_cons.1 hy with rfl | hy
        · refine ⟨x.isWritable_withValue _, fun w' h => ?_⟩
          rw [Mnemonic.width?_withValue, hw] at h
          cases h
          rw [Operand.value_withValue hw]
          exact Width.fits_read w _
        · exact fits y hy
      · rw [List.flatMap_cons, Mnemonic.operandBytes, Mnemonic.width?_withValue, hw, bytes]
        simp only [Operand.value_withValue hw, Width.bytes_read size, List.take_append_drop]

/-- Every cell of the map is that of an encoding, with any bytes for its values. -/
theorem Cell.exists_row {c : Cell} {fields : List UInt8} (h : c.size? = some fields.length) :
    ∃ m xs e, Row m xs e ∧ (∀ x ∈ xs, x.isWritable = true) ∧ e.bytes = c.bytes fields := by
  obtain ⟨⟨m, blanks⟩, form, size⟩ := Option.map_eq_some_iff.1 h
  obtain ⟨⟨e, row, rfl⟩, writable⟩ := Cell.row_of_form? form
  obtain ⟨xs, alike, fits, bytes⟩ := exists_operands blanks fields size.symm writable
  have widths := Mnemonic.Alike.width?_eq alike
  have loadable : m.Loadable xs := Mnemonic.loadable_of_fits fun x hx w hw => (fits x hx).2 w (widths ▸ hw)
  obtain ⟨f, row', cell⟩ := row.sameCell alike loadable
  refine ⟨m, xs, f, row', fun x hx => (fits x hx).1, ?_⟩
  rw [row'.bytes_eq, cell, row'.tail_eq, Mnemonic.Alike.operandBytes_eq alike, bytes]

/-! ## The bytes of statements -/

/-- The byte sequences that the encoder writes are those of the documented instructions. -/
theorem Encoder.z80_emits_iff (bs : List UInt8) : (∃ s : Statement, s.Emits bs) ↔ Documented bs := by
  constructor
  · rintro ⟨s, h⟩
    obtain ⟨xs, e, hxs, row, rfl⟩ := Statement.emits_iff.1 h
    rw [row.bytes_eq]
    exact Documented.of_cell row.size?_cell
  · intro h
    obtain ⟨c, fields, size, rfl⟩ := h.exists_cell
    obtain ⟨m, xs, e, row, writable, bytes⟩ := Cell.exists_row size
    refine ⟨⟨m, 0, xs.map Operand.node⟩, Statement.emits_iff.2 ⟨xs, e, ?_, row, bytes⟩⟩
    exact Operand.ofNodes_eq_ok_iff.2 (List.forall₂_map_left_iff.2 (List.forall₂_same.2 fun x hx =>
      Operand.ofNode_node (writable x hx)))

end Z80Asm
