/-
The bytes of `LD`. Each shape of its operands has its bytes (`Load.Bytes`), to which the encoder encodes exactly these
operands; a number outside the range of its register is rejected as such, and all other operands are not those of `LD`
(`Encoder.z80_load`).
-/
import Z80Asm.Proofs.Bytes.Table

namespace Z80Asm

open Vocabulary Width

namespace Load

/-- The operands of `LD` and their bytes. A register that is a byte has its code in the opcode, and the half of an index
register its number. -/
inductive Bytes : List Operand → List UInt8 → Prop
  -- bytes
  | register (r s : Register) : Bytes [.register r, .register s] [0x40 + 8 * code r + code s]
  | number (r : Register) (n : Int32) (range : -128 ≤ n.toInt ∧ n.toInt ≤ 255) :
    Bytes [.register r, .immediate n] [0x06 + 8 * code r, lowByte n]
  | fromHL (r : Register) : Bytes [.register r, .hl] [0x46 + 8 * code r]
  | fromIndexed (r : Register) (i : IndexPair) (d : Option Int32) :
    Bytes [.register r, .indexed i d] [i.prefixByte, 0x46 + 8 * code r, lowByte (d.getD 0)]
  | toHL (r : Register) : Bytes [.hl, .register r] [0x70 + code r]
  | toIndexed (i : IndexPair) (d : Option Int32) (r : Register) :
    Bytes [.indexed i d, .register r] [i.prefixByte, 0x70 + code r, lowByte (d.getD 0)]
  | numberToHL (n : Int32) : Bytes [.hl, .immediate n] [0x36, lowByte n]
  | numberToIndexed (i : IndexPair) (d : Option Int32) (n : Int32) :
    Bytes [.indexed i d, .immediate n] [i.prefixByte, 0x36, lowByte (d.getD 0), lowByte n]
  -- the accumulator
  | fromBC : Bytes [.register .A, .pointer .BC] [0x0A]
  | fromDE : Bytes [.register .A, .pointer .DE] [0x1A]
  | fromNumeric (nn : Int32) : Bytes [.register .A, .numeric nn none] [0x3A, lowByte nn, highByte nn]
  | toBC : Bytes [.pointer .BC, .register .A] [0x02]
  | toDE : Bytes [.pointer .DE, .register .A] [0x12]
  | toNumeric (nn : Int32) : Bytes [.numeric nn none, .register .A] [0x32, lowByte nn, highByte nn]
  -- halves of index registers
  | fromHalf (r : Register) (k : IndexHalf) (plain : r ≠ .H ∧ r ≠ .L) :
    Bytes [.register r, .indexHalf k] [k.pair.prefixByte, 0x40 + 8 * code r + k.number]
  | toHalf (k : IndexHalf) (r : Register) (plain : r ≠ .H ∧ r ≠ .L) :
    Bytes [.indexHalf k, .register r] [k.pair.prefixByte, 0x40 + 8 * k.number + code r]
  | half (k l : IndexHalf) (same : k.pair = l.pair) :
    Bytes [.indexHalf k, .indexHalf l] [k.pair.prefixByte, 0x40 + 8 * k.number + l.number]
  | numberToHalf (k : IndexHalf) (n : Int32) :
    Bytes [.indexHalf k, .immediate n] [k.pair.prefixByte, 0x06 + 8 * k.number, lowByte n]
  -- the special registers
  | fromI : Bytes [.register .A, .specialRegister .I] [0xED, 0x57]
  | fromR : Bytes [.register .A, .specialRegister .R] [0xED, 0x5F]
  | toI : Bytes [.specialRegister .I, .register .A] [0xED, 0x47]
  | toR : Bytes [.specialRegister .R, .register .A] [0xED, 0x4F]
  -- pairs
  | pairNumber (p : NormalPair) (nn : Int32) :
    Bytes [.normalPair p, .immediate nn] [0x01 + 16 * code p, lowByte nn, highByte nn]
  | hlFromNumeric (nn : Int32) : Bytes [.normalPair .HL, .numeric nn none] [0x2A, lowByte nn, highByte nn]
  | hlToNumeric (nn : Int32) : Bytes [.numeric nn none, .normalPair .HL] [0x22, lowByte nn, highByte nn]
  | pairFromNumeric (p : NormalPair) (nn : Int32) (long : p ≠ .HL) :
    Bytes [.normalPair p, .numeric nn none] [0xED, 0x4B + 16 * code p, lowByte nn, highByte nn]
  | pairToNumeric (p : NormalPair) (nn : Int32) (long : p ≠ .HL) :
    Bytes [.numeric nn none, .normalPair p] [0xED, 0x43 + 16 * code p, lowByte nn, highByte nn]
  -- index registers
  | indexNumber (i : IndexPair) (nn : Int32) :
    Bytes [.indexPair i, .immediate nn] [i.prefixByte, 0x21, lowByte nn, highByte nn]
  | indexFromNumeric (i : IndexPair) (nn : Int32) :
    Bytes [.indexPair i, .numeric nn none] [i.prefixByte, 0x2A, lowByte nn, highByte nn]
  | indexToNumeric (i : IndexPair) (nn : Int32) :
    Bytes [.numeric nn none, .indexPair i] [i.prefixByte, 0x22, lowByte nn, highByte nn]
  | stackPointer : Bytes [.normalPair .SP, .normalPair .HL] [0xF9]
  | stackPointerIndex (i : IndexPair) : Bytes [.normalPair .SP, .indexPair i] [i.prefixByte, 0xF9]

theorem Bytes.exists_row {xs : List Operand} {bs : List UInt8} (h : Bytes xs bs) : ∃ e, Row xs e ∧ e.bytes = bs := by
  cases h with
  | register r s => exact ⟨_, .register r s, rfl⟩
  | number r n range => exact ⟨_, .number r n (fits_iff.2 range), rfl⟩
  | fromHL r => exact ⟨_, .fromHL r, rfl⟩
  | fromIndexed r i d => exact ⟨_, .fromIndexed r i d, rfl⟩
  | toHL r => exact ⟨_, .toHL r, rfl⟩
  | toIndexed i d r => exact ⟨_, .toIndexed i d r, rfl⟩
  | numberToHL n => exact ⟨_, .numberToHL n, rfl⟩
  | numberToIndexed i d n => exact ⟨_, .numberToIndexed i d n, rfl⟩
  | fromBC => exact ⟨_, .fromPointer .BC (.inl rfl), rfl⟩
  | fromDE => exact ⟨_, .fromPointer .DE (.inr rfl), rfl⟩
  | fromNumeric nn => exact ⟨_, .fromNumeric nn none, rfl⟩
  | toBC => exact ⟨_, .toPointer .BC (.inl rfl), rfl⟩
  | toDE => exact ⟨_, .toPointer .DE (.inr rfl), rfl⟩
  | toNumeric nn => exact ⟨_, .toNumeric nn none, rfl⟩
  | fromHalf r k plain => exact ⟨_, .fromHalf r k plain, by rw [k.number_eq]; rfl⟩
  | toHalf k r plain => exact ⟨_, .toHalf k r plain, by rw [k.number_eq]; rfl⟩
  | half k l same => exact ⟨_, .half k l same, by rw [k.number_eq, l.number_eq]; rfl⟩
  | numberToHalf k n => exact ⟨_, .numberToHalf k n, by rw [k.number_eq]; rfl⟩
  | fromI => exact ⟨_, .fromSpecial .I, rfl⟩
  | fromR => exact ⟨_, .fromSpecial .R, rfl⟩
  | toI => exact ⟨_, .toSpecial .I, rfl⟩
  | toR => exact ⟨_, .toSpecial .R, rfl⟩
  | pairNumber p nn => exact ⟨_, .pairNumber p nn, rfl⟩
  | hlFromNumeric nn => exact ⟨_, .hlFromNumeric nn none, rfl⟩
  | hlToNumeric nn => exact ⟨_, .hlToNumeric nn none, rfl⟩
  | pairFromNumeric p nn long => exact ⟨_, .pairFromNumeric p nn none long, rfl⟩
  | pairToNumeric p nn long => exact ⟨_, .pairToNumeric p nn none long, rfl⟩
  | indexNumber i nn => exact ⟨_, .indexNumber i nn, rfl⟩
  | indexFromNumeric i nn => exact ⟨_, .indexFromNumeric i nn none, rfl⟩
  | indexToNumeric i nn => exact ⟨_, .indexToNumeric i nn none, rfl⟩
  | stackPointer => exact ⟨_, .stackPointer, rfl⟩
  | stackPointerIndex i => exact ⟨_, .stackPointerIndex i, rfl⟩

theorem Row.toBytes {xs : List Operand} {e : Encoding} (h : Row xs e) (writable : ∀ x ∈ xs, x.isWritable = true) :
    Bytes xs e.bytes := by
  have bare {nn : Int32} {d : Option Int32} (hx : .numeric nn d ∈ xs) : d = none :=
    Option.isNone_iff_eq_none.1 (writable (.numeric nn d) hx)
  cases h with
  | register r s => exact .register r s
  | number r n fits => exact .number r n (fits_iff.1 fits)
  | fromHL r => exact .fromHL r
  | fromIndexed r i d => exact .fromIndexed r i d
  | toHL r => exact .toHL r
  | toIndexed i d r => exact .toIndexed i d r
  | numberToHL n => exact .numberToHL n
  | numberToIndexed i d n => exact .numberToIndexed i d n
  | fromHalf r k plain => exact k.number_eq ▸ .fromHalf r k plain
  | toHalf k r plain => exact k.number_eq ▸ .toHalf k r plain
  | half k l same => exact k.number_eq ▸ l.number_eq ▸ .half k l same
  | numberToHalf k n => exact k.number_eq ▸ .numberToHalf k n
  | fromPointer p wide => rcases wide with rfl | rfl <;> constructor
  | fromNumeric nn d => cases bare (List.mem_cons_of_mem _ List.mem_cons_self); exact .fromNumeric nn
  | toPointer p wide => rcases wide with rfl | rfl <;> constructor
  | toNumeric nn d => cases bare List.mem_cons_self; exact .toNumeric nn
  | fromSpecial r => cases r <;> constructor
  | toSpecial r => cases r <;> constructor
  | pairNumber p nn => exact .pairNumber p nn
  | indexNumber i nn => exact .indexNumber i nn
  | hlFromNumeric nn d => cases bare (List.mem_cons_of_mem _ List.mem_cons_self); exact .hlFromNumeric nn
  | hlToNumeric nn d => cases bare List.mem_cons_self; exact .hlToNumeric nn
  | pairFromNumeric p nn d long => cases bare (List.mem_cons_of_mem _ List.mem_cons_self); exact .pairFromNumeric p nn long
  | pairToNumeric p nn d long => cases bare List.mem_cons_self; exact .pairToNumeric p nn long
  | indexFromNumeric i nn d => cases bare (List.mem_cons_of_mem _ List.mem_cons_self); exact .indexFromNumeric i nn
  | indexToNumeric i nn d => cases bare List.mem_cons_self; exact .indexToNumeric i nn
  | stackPointer => exact .stackPointer
  | stackPointerIndex i => exact .stackPointerIndex i

theorem bytes_iff {xs : List Operand} (writable : ∀ x ∈ xs, x.isWritable = true) {bs : List UInt8} :
    Bytes xs bs ↔ ∃ e, Row xs e ∧ e.bytes = bs := by
  constructor
  · exact Bytes.exists_row
  · rintro ⟨e, row, rfl⟩
    exact row.toBytes writable

end Load

/-! ## The encoder -/

/-- A statement of `LD` is encoded to the bytes of its operands. A number outside the range of the register it goes to is
reported as such, at its own column, and all other operands without bytes are not those of `LD`. -/
theorem Encoder.z80_load (line : Nat) (out : Output) {s : Statement} {xs : List Operand} (hm : s.mnemonic = .LD)
    (hxs : Operand.ofNodes s.operands = .ok xs) :
    (∀ bs, (∃ out', z80 line s out = (.ok (), out') ∧ out'.bytes = bs) ↔ Load.Bytes xs bs) ∧
    (∀ r n, xs = [.register r, .immediate n] → ¬(-128 ≤ n.toInt ∧ n.toInt ≤ 255) →
      z80 line s out = (.error ⟨.LD, .outOfRange n, s.columnOf 1⟩, out.clear)) ∧
    ((∀ bs, ¬Load.Bytes xs bs) → (∀ r n, xs ≠ [.register r, .immediate n]) →
      z80 line s out = (.error ⟨.LD, .illegalOperands, s.column⟩, out.clear)) := by
  have bytes (bs : List UInt8) : Load.Bytes xs bs ↔ ∃ e, Load.Row xs e ∧ e.bytes = bs :=
    Load.bytes_iff (Operand.isWritable_of_ofNodes hxs)
  have rows (e : Encoding) (row : Row s.mnemonic xs e) : Load.Row xs e := Row.of_LD (hm ▸ row)
  refine ⟨fun bs => ?_, ?_, fun none other => ?_⟩
  · rw [exists_bytes_iff hxs, bytes]
    exact ⟨fun ⟨e, row, eq⟩ => ⟨e, rows e row, eq⟩, fun ⟨e, row, eq⟩ => ⟨e, hm ▸ .load row, eq⟩⟩
  · rintro r n rfl range
    have none (e : Encoding) : ¬Row s.mnemonic [.register r, .immediate n] e := fun row => by
      cases rows e row with
      | number _ _ fits => exact range (Width.fits_iff.1 fits)
    rw [z80_of_no_row hxs none, Statement.failure, hm]
    rfl
  · have rejected : Load.rejection xs = .illegalOperands := by
      unfold Load.rejection
      split
      · exact absurd rfl (other _ _)
      · rfl
    rw [z80_of_no_row hxs fun e row => none e.bytes ((bytes _).2 ⟨e, rows e row, rfl⟩), Statement.failure, hm,
      Mnemonic.rejection, rejected]
    rfl

/-- `LD (IX+200),300` and loads of halves have their bytes, `LD A,300` a number that is out of range, and `LD HL,DE` no
bytes. -/
theorem Encoder.z80_load_numbers :
    (∃ out', z80 1 ⟨.LD, 0, [(Operand.indexed .IX (some 200)).node, (Operand.immediate 300).node]⟩ .empty = (.ok (), out') ∧
      out'.bytes = [0xDD, 0x36, 0xC8, 0x2C]) ∧
    (∃ out', z80 1 ⟨.LD, 0, [(Operand.register .B).node, (Operand.indexHalf .IXH).node]⟩ .empty = (.ok (), out') ∧
      out'.bytes = [0xDD, 0x44]) ∧
    (∃ out', z80 1 ⟨.LD, 0, [(Operand.indexHalf .IYL).node, (Operand.indexHalf .IYH).node]⟩ .empty = (.ok (), out') ∧
      out'.bytes = [0xFD, 0x6C]) ∧
    z80 1 ⟨.LD, 0, [(Operand.register .A).node, .leaf (.immediate 300) 5]⟩ .empty =
      (.error ⟨.LD, .outOfRange 300, 5⟩, .empty) ∧
    z80 1 ⟨.LD, 0, [(Operand.normalPair .HL).node, (Operand.normalPair .DE).node]⟩ .empty =
      (.error ⟨.LD, .illegalOperands, 0⟩, .empty) := by
  refine ⟨?_, ?_, ?_, ?_, ?_⟩
  · exact ((z80_load 1 .empty rfl rfl).1 _).2 (.numberToIndexed .IX (some 200) 300)
  · exact ((z80_load 1 .empty rfl rfl).1 _).2 (.fromHalf .B .IXH (by decide))
  · exact ((z80_load 1 .empty rfl rfl).1 _).2 (.half .IYL .IYH rfl)
  · exact (z80_load 1 .empty rfl rfl).2.1 .A 300 rfl (by decide)
  · exact (z80_load 1 .empty rfl rfl).2.2 nofun nofun

end Z80Asm
