/-
Loads and stores. What is read from an address can be written to it: the two instructions are encoded for the same
operands, and differ in one byte, their opcode, and in the mnemonic and the column that their warnings name
(`Encoder.z80_mirror`). This holds of `LD` in both its directions, and of `IN` and `OUT`.
-/
import Z80Asm.Proofs.Assembler.Atomic
import Z80Asm.Proofs.Assembler.Overflow
import Z80Asm.Proofs.Bytes.Table
import Z80Asm.Proofs.OpcodeMap.Cell

namespace Z80Asm

open Vocabulary Width

/-! ## Reading and writing -/

/-- What has addresses. -/
inductive AddressSpace
  | memory | ports
  deriving DecidableEq, Repr

namespace AddressSpace

/-- The mnemonic that reads from an address, which is its second operand. -/
def reader : AddressSpace → Mnemonic
  | .memory => .LD
  | .ports => .IN

/-- The mnemonic that writes to an address, which is its first operand. -/
def writer : AddressSpace → Mnemonic
  | .memory => .LD
  | .ports => .OUT

/-- The bytes of what is written in an address: an address of memory, the number of a port, or a displacement. -/
def addressBytes : AddressSpace → Address → List UInt8
  | .memory, ⟨.immediate n, _⟩ => [lowByte n, highByte n]
  | .ports, ⟨.immediate n, _⟩ => [lowByte n]
  | _, ⟨.indexPair _, d⟩ => [lowByte (d.getD 0)]
  | _, _ => []

/-- The opcodes of reading an operand from an address and of writing it there. -/
inductive Opcodes : AddressSpace → Operand → Address → UInt8 → UInt8 → Prop
  | byte (r : Register) (a : Address) (memory : a.memory?.isSome = true) :
    Opcodes .memory (.register r) a (0x46 + 8 * code r) (0x70 + code r)
  | other {x : Operand} {a : Address} {read write : UInt8} (plain : ∀ r, x = .register r → a.memory? = none)
    (bit : read = write + 8) : Opcodes .memory x a read write
  | numeric {n : Int32} {read write : UInt8} (bit : read = write + 8) :
    Opcodes .ports (.register .A) ⟨.immediate n, none⟩ read write
  | portC {r : Register} {read write : UInt8} (bit : read = write - 1) :
    Opcodes .ports (.register r) ⟨.register .C, none⟩ read write

theorem Opcodes.ne {s : AddressSpace} {x : Operand} {a : Address} {read write : UInt8}
    (h : s.Opcodes x a read write) : read ≠ write := by
  cases h with
  | byte r a memory => cases r <;> decide
  | other plain bit => simp [bit]
  | numeric bit => simp [bit]
  | portC bit =>
    rw [bit]
    exact fun h => absurd (UInt8.sub_eq_iff_eq_add.1 h) (by simp)

/-- The encodings of reading an operand from an address and of writing it there, apart from their fields. The operand
itself feeds no field. -/
structure Mirrored (s : AddressSpace) (x : Operand) (a : Address) (read write : Encoding) : Prop where
  index : write.index = read.index
  page : write.page = read.page
  notBit : read.page ≠ .bit
  opcodes : s.Opcodes x a read.opcode write.opcode
  plain : ∀ m operands, Mnemonic.width? m operands x = none

end AddressSpace

theorem Cell.bytes_of_page {c : Cell} (h : c.page ≠ .bit) (fields : List UInt8) :
    c.bytes fields = (c.index.map IndexPair.prefixByte).toList ++ c.page.bytes ++ c.opcode :: fields := by
  obtain ⟨index, page, opcode⟩ := c
  cases page with
  | bit => exact absurd rfl h
  | _ => rfl

theorem Statement.reports_pair (line : Nat) (m : Mnemonic) (c : Nat) (n k : Node) (x y : Operand) :
    Statement.reports line ⟨m, c, [n, k]⟩ [x, y] =
      (x.report? line m [x, y] n.column).toList ++ (y.report? line m [x, y] k.column).toList := by
  simp only [reports, List.zip_cons_cons, List.zip_nil_left, List.filterMap_cons, List.filterMap_nil]
  cases x.report? line m [x, y] n.column <;> cases y.report? line m [x, y] k.column <;> rfl

theorem Statement.encoding_pair_iff {m : Mnemonic} {c : Nat} {n k : Node} {e : Encoding} :
    Statement.encoding ⟨m, c, [n, k]⟩ = .ok e ↔
      ∃ x y, Operand.ofNode n = .ok x ∧ Operand.ofNode k = .ok y ∧ Row m [x, y] e := by
  rw [encoding_eq_ok_iff]
  constructor
  · rintro ⟨xs, hxs, row⟩
    obtain ⟨x, y, hx, hy, rfl⟩ := forall₂_pair (Operand.ofNodes_eq_ok_iff.1 hxs)
    exact ⟨x, y, hx, hy, row⟩
  · rintro ⟨x, y, hx, hy, row⟩
    exact ⟨[x, y], Operand.ofNodes_eq_ok_iff.2 (.cons hx (.cons hy .nil)), row⟩

/-! ## The rows -/

/-- An operand that is loaded from an address can be stored there. -/
theorem Load.Row.store {x : Operand} {a : Address} {e : Encoding} (h : Row [x, .address a] e) :
    ∃ f, Row [.address a, x] f ∧ AddressSpace.memory.Mirrored x a e f := by
  cases h with
  | fromHL r => exact ⟨_, .toHL r, rfl, rfl, nofun, .byte r _ rfl, fun _ _ => rfl⟩
  | fromIndexed r i d => exact ⟨_, .toIndexed i d r, rfl, rfl, nofun, .byte r _ rfl, fun _ _ => rfl⟩
  | fromPointer p wide =>
    refine ⟨_, .toPointer p wide, rfl, rfl, nofun, .other (fun _ _ => ?_) ?_, fun _ _ => rfl⟩
    · rcases wide with rfl | rfl <;> rfl
    · rcases wide with rfl | rfl <;> rfl
  | fromNumeric nn d => exact ⟨_, .toNumeric nn d, rfl, rfl, nofun, .other (fun _ _ => rfl) rfl, fun _ _ => rfl⟩
  | hlFromNumeric nn d => exact ⟨_, .hlToNumeric nn d, rfl, rfl, nofun, .other (fun _ _ => rfl) rfl, fun _ _ => rfl⟩
  | pairFromNumeric p nn d long =>
    refine ⟨_, .pairToNumeric p nn d long, rfl, rfl, nofun, .other (fun _ _ => rfl) ?_, fun _ _ => rfl⟩
    cases p <;> rfl
  | indexFromNumeric i nn d =>
    exact ⟨_, .indexToNumeric i nn d, rfl, rfl, nofun, .other (fun _ _ => rfl) rfl, fun _ _ => rfl⟩

/-- An operand that is stored at an address, and is no number, can be loaded from there. -/
theorem Load.Row.exists_load {x : Operand} {a : Address} {f : Encoding} (h : Row [.address a, x] f)
    (hx : ∀ n, x ≠ .immediate n) : ∃ e, Row [x, .address a] e := by
  cases h with
  | toHL r => exact ⟨_, .fromHL r⟩
  | toIndexed i d r => exact ⟨_, .fromIndexed r i d⟩
  | numberToHL n => exact absurd rfl (hx n)
  | numberToIndexed i d n => exact absurd rfl (hx n)
  | toPointer p wide => exact ⟨_, .fromPointer p wide⟩
  | toNumeric nn d => exact ⟨_, .fromNumeric nn d⟩
  | hlToNumeric nn d => exact ⟨_, .hlFromNumeric nn d⟩
  | pairToNumeric p nn d long => exact ⟨_, .pairFromNumeric p nn d long⟩
  | indexToNumeric i nn d => exact ⟨_, .indexFromNumeric i nn d⟩

/-- What is read from a port can be written to it. -/
theorem Port.Input.output {x : Operand} {a : Address} {e : Encoding} (h : Input [x, .address a] e) :
    ∃ f, Output [.address a, x] f ∧ AddressSpace.ports.Mirrored x a e f := by
  cases h with
  | numeric n => exact ⟨_, .numeric n, rfl, rfl, nofun, .numeric rfl, fun _ _ => rfl⟩
  | register r =>
    refine ⟨_, .register r, rfl, rfl, nofun, .portC ?_, fun _ _ => rfl⟩
    cases r <;> rfl

/-- What is written to a port, and is no number, can be read from it. -/
theorem Port.Output.exists_input {x : Operand} {a : Address} {f : Encoding} (h : Output [.address a, x] f)
    (hx : ∀ n, x ≠ .immediate n) : ∃ e, Input [x, .address a] e := by
  cases h with
  | zero => exact absurd rfl (hx 0)
  | numeric n => exact ⟨_, .numeric n⟩
  | register r => exact ⟨_, .register r⟩

namespace AddressSpace

variable {s : AddressSpace} {x : Operand} {a : Address}

theorem exists_write {e : Encoding} (h : Row s.reader [x, .address a] e) :
    ∃ f, Row s.writer [.address a, x] f ∧ s.Mirrored x a e f := by
  cases s with
  | memory =>
    obtain ⟨f, row, mirrored⟩ := h.of_LD.store
    exact ⟨f, .load row, mirrored⟩
  | ports =>
    obtain ⟨f, row, mirrored⟩ := (Row.input_iff.1 h).output
    exact ⟨f, .output row, mirrored⟩

theorem exists_read {f : Encoding} (h : Row s.writer [.address a, x] f) (hx : ∀ n, x ≠ .immediate n) :
    ∃ e, Row s.reader [x, .address a] e := by
  cases s with
  | memory =>
    obtain ⟨e, row⟩ := h.of_LD.exists_load hx
    exact ⟨e, .load row⟩
  | ports =>
    obtain ⟨e, row⟩ := (Row.output_iff.1 h).exists_input hx
    exact ⟨e, .input row⟩

/-! ## The field of an address -/

variable {m : Mnemonic}

/-- Writing to an address takes the field that reading from it takes. -/
theorem addressWidth?_eq (hm : m = s.reader ∨ m = s.writer) (base : Base) :
    m.addressWidth? base = s.reader.addressWidth? base := by
  rcases hm with rfl | rfl
  · rfl
  · cases s <;> cases base <;> rfl

theorem operandBytes_address (hm : m = s.reader ∨ m = s.writer) (operands : List Operand) :
    m.operandBytes operands (.address a) = s.addressBytes a := by
  rw [Mnemonic.operandBytes, Mnemonic.width?, addressWidth?_eq hm]
  obtain ⟨base, d⟩ := a
  cases s <;> cases base <;> rfl

/-- The value of an address that is outside the range of its field, with the width of the field. -/
def overflow? (s : AddressSpace) (a : Address) : Option (Width × Int32) :=
  (s.reader.addressWidth? a.base).bind fun w =>
    if w.fits (Operand.address a).value then none else some (w, (Operand.address a).value)

/-- The warning about an address in a statement of a mnemonic. -/
def warnings (s : AddressSpace) (line : Nat) (m : Mnemonic) (a : Address) (column : Nat) : List Diagnostic :=
  ((s.overflow? a).map fun (w, v) => ⟨line, .overflow ⟨m, w, v, column⟩⟩).toList

theorem report?_address (hm : m = s.reader ∨ m = s.writer) (line : Nat) (operands : List Operand) (column : Nat) :
    ((Operand.address a).report? line m operands column).toList = s.warnings line m a column := by
  rw [warnings, overflow?, Operand.report?, Mnemonic.width?, addressWidth?_eq hm]
  cases s.reader.addressWidth? a.base with
  | none => rfl
  | some w =>
    simp only [Option.bind_some]
    split <;> rfl

/-! ## Bytes and warnings -/

theorem Mirrored.bytes {e f : Encoding} (h : s.Mirrored x a e f) (he : Row s.reader [x, .address a] e)
    (hf : Row s.writer [.address a, x] f) :
    ∃ front, e.bytes = front ++ e.opcode :: s.addressBytes a ∧ f.bytes = front ++ f.opcode :: s.addressBytes a := by
  have plain (m : Mnemonic) (operands : List Operand) : m.operandBytes operands x = [] := by
    rw [Mnemonic.operandBytes, h.plain]
  have reading : e.tail = s.addressBytes a := by
    rw [he.tail_eq]
    simp [plain, operandBytes_address (.inl rfl)]
  have writing : f.tail = s.addressBytes a := by
    rw [hf.tail_eq]
    simp [plain, operandBytes_address (.inr rfl)]
  refine ⟨(e.index.map IndexPair.prefixByte).toList ++ e.page.bytes, ?_, ?_⟩
  · rw [he.bytes_eq, reading]
    exact Cell.bytes_of_page h.notBit _
  · rw [hf.bytes_eq, writing, ← h.index, ← h.page]
    exact Cell.bytes_of_page (show f.page ≠ .bit from h.page ▸ h.notBit) _

theorem report?_of_plain (plain : ∀ m operands, Mnemonic.width? m operands x = none) (line : Nat) (m : Mnemonic)
    (operands : List Operand) (column : Nat) : x.report? line m operands column = none := by
  rw [Operand.report?, plain, Option.bind_none]

/-- The warning about the address is the only one, on whichever side the address stands. -/
theorem overflows_reader {line c : Nat} {n k : Node} {e : Encoding} (hn : Operand.ofNode n = .ok x)
    (hk : Operand.ofNode k = .ok (.address a)) (plain : ∀ m operands, Mnemonic.width? m operands x = none)
    (row : Row s.reader [x, .address a] e) :
    ((Statement.overflows ⟨s.reader, c, [n, k]⟩ e).map fun o => (⟨line, .overflow o⟩ : Diagnostic)) =
      s.warnings line s.reader a k.column := by
  have nodes : Operand.ofNodes [n, k] = .ok [x, .address a] := Operand.ofNodes_eq_ok_iff.2 (.cons hn (.cons hk .nil))
  rw [Statement.overflows_eq_reports nodes row, Statement.reports_pair, report?_of_plain plain,
    report?_address (.inl rfl)]
  rfl

theorem overflows_writer {line c : Nat} {n k : Node} {f : Encoding} (hn : Operand.ofNode n = .ok x)
    (hk : Operand.ofNode k = .ok (.address a)) (plain : ∀ m operands, Mnemonic.width? m operands x = none)
    (row : Row s.writer [.address a, x] f) :
    ((Statement.overflows ⟨s.writer, c, [k, n]⟩ f).map fun o => (⟨line, .overflow o⟩ : Diagnostic)) =
      s.warnings line s.writer a k.column := by
  have nodes : Operand.ofNodes [k, n] = .ok [.address a, x] := Operand.ofNodes_eq_ok_iff.2 (.cons hk (.cons hn .nil))
  rw [Statement.overflows_eq_reports nodes row, Statement.reports_pair, report?_of_plain plain,
    report?_address (.inr rfl)]
  exact List.append_nil _

/-! ## Statements -/

theorem encoding_reader_iff {c : Nat} {n k : Node} {e : Encoding} (hk : Operand.ofNode k = .ok (.address a)) :
    Statement.encoding ⟨s.reader, c, [n, k]⟩ = .ok e ↔
      ∃ x, Operand.ofNode n = .ok x ∧ Row s.reader [x, .address a] e := by
  rw [Statement.encoding_pair_iff]
  constructor
  · rintro ⟨x, y, hx, hy, row⟩
    cases hk.symm.trans hy
    exact ⟨x, hx, row⟩
  · rintro ⟨x, hx, row⟩
    exact ⟨x, .address a, hx, hk, row⟩

theorem encoding_writer_iff {c : Nat} {n k : Node} {f : Encoding} (hk : Operand.ofNode k = .ok (.address a)) :
    Statement.encoding ⟨s.writer, c, [k, n]⟩ = .ok f ↔
      ∃ x, Operand.ofNode n = .ok x ∧ Row s.writer [.address a, x] f := by
  rw [Statement.encoding_pair_iff]
  constructor
  · rintro ⟨y, x, hy, hx, row⟩
    cases hk.symm.trans hy
    exact ⟨x, hx, row⟩
  · rintro ⟨x, hx, row⟩
    exact ⟨.address a, x, hk, hx, row⟩

end AddressSpace

/-! ## The encoder -/

namespace Encoder

/-- Reading from an address and writing to it mirror each other, in `LD` as in `IN` and `OUT`, which are written as code
of their own. An operand that is no number is read from an address exactly if it is written there. The two instructions
have the bytes of the address in common, and what stands before their opcodes; the opcodes are those of `Opcodes`. A value
that does not fit its field is warned about in both, at the column of the address and with the name of the mnemonic. -/
theorem z80_mirror (line : Nat) (out : Output) :
    z80 = running Emitter.dispatch ∧
    ∀ (s : AddressSpace) (c c' : Nat) (n n' k k' : Node) (a : Address),
      Operand.ofNode n' = Operand.ofNode n → (∀ v, Operand.ofNode n ≠ .ok (.immediate v)) →
      Operand.ofNode k = .ok (.address a) → Operand.ofNode k' = .ok (.address a) →
      ((∃ out', z80 line ⟨s.reader, c, [n, k]⟩ out = (.ok (), out')) ↔
        ∃ out', z80 line ⟨s.writer, c', [k', n']⟩ out = (.ok (), out')) ∧
      ∀ read write, z80 line ⟨s.reader, c, [n, k]⟩ out = (.ok (), read) →
        z80 line ⟨s.writer, c', [k', n']⟩ out = (.ok (), write) →
        ∃ x front p q, Operand.ofNode n = .ok x ∧ s.Opcodes x a p q ∧ p ≠ q ∧
          read.bytes = front ++ p :: s.addressBytes a ∧ write.bytes = front ++ q :: s.addressBytes a ∧
          read.reports = out.reports ++ s.warnings line s.reader a k.column ∧
          write.reports = out.reports ++ s.warnings line s.writer a k'.column := by
  refine ⟨running_dispatch.symm, fun s c c' n n' k k' a same number hk hk' => ?_⟩
  refine ⟨⟨?_, ?_⟩, ?_⟩
  · rintro ⟨_, h⟩
    obtain ⟨e, he, -⟩ := encoding_of_z80 h
    obtain ⟨x, hx, row⟩ := (AddressSpace.encoding_reader_iff hk).1 he
    obtain ⟨f, row', -⟩ := AddressSpace.exists_write row
    exact ⟨_, z80_of_encoding ((AddressSpace.encoding_writer_iff hk').2 ⟨x, same.trans hx, row'⟩)⟩
  · rintro ⟨_, h⟩
    obtain ⟨f, hf, -⟩ := encoding_of_z80 h
    obtain ⟨x, hx, row⟩ := (AddressSpace.encoding_writer_iff hk').1 hf
    rw [same] at hx
    obtain ⟨e, row'⟩ := AddressSpace.exists_read row fun v hv => number v (hv ▸ hx)
    exact ⟨_, z80_of_encoding ((AddressSpace.encoding_reader_iff hk).2 ⟨x, hx, row'⟩)⟩
  · intro read write hread hwrite
    obtain ⟨e, he, rfl⟩ := encoding_of_z80 hread
    obtain ⟨f, hf, rfl⟩ := encoding_of_z80 hwrite
    obtain ⟨x, hx, rowE⟩ := (AddressSpace.encoding_reader_iff hk).1 he
    obtain ⟨f', rowF, mirrored⟩ := AddressSpace.exists_write rowE
    -- the one encoding of writing is that of the row across
    cases hf.symm.trans ((AddressSpace.encoding_writer_iff hk').2 ⟨x, same.trans hx, rowF⟩)
    obtain ⟨front, bytesE, bytesF⟩ := mirrored.bytes rowE rowF
    refine ⟨x, front, e.opcode, f.opcode, hx, mirrored.opcodes, mirrored.opcodes.ne, bytesE, bytesF, ?_, ?_⟩
    · exact congrArg (out.reports ++ ·) (AddressSpace.overflows_reader hx hk mirrored.plain rowE)
    · exact congrArg (out.reports ++ ·) (AddressSpace.overflows_writer (same.trans hx) hk' mirrored.plain rowF)

/-- `LD (IX+200),E` mirrors `LD E,(IX+200)`, with the same displacement and the same warning. -/
theorem z80_mirror_indexed : ∃ write,
    z80 1 ⟨.LD, 0, [(Operand.indexed .IX (some 200)).node, (Operand.register .E).node]⟩ .empty = (.ok (), write) ∧
      ∃ front p q, p ≠ q ∧ [0xDD, 0x5E, 0xC8] = front ++ p :: [0xC8] ∧ write.bytes = front ++ q :: [0xC8] ∧
        write.reports = AddressSpace.memory.warnings 1 .LD ⟨.indexPair .IX, some 200⟩ 0 := by
  obtain ⟨both, mirror⟩ := (z80_mirror 1 .empty).2 .memory 0 0 (Operand.register .E).node (Operand.register .E).node
    (Operand.indexed .IX (some 200)).node (Operand.indexed .IX (some 200)).node ⟨.indexPair .IX, some 200⟩
    rfl nofun rfl rfl
  obtain ⟨write, written⟩ := both.1 ⟨_, rfl⟩
  obtain ⟨-, front, p, q, -, -, ne, reading, writing, -, reports⟩ := mirror _ write rfl written
  exact ⟨write, written, front, p, q, ne, reading, writing, reports⟩

/-- The warnings of `IN A,(300)` and `OUT (300),A` differ in more than their columns: they name the mnemonic. -/
theorem z80_mirror_wording : ∃ read write,
    z80 1 ⟨.IN, 0, [(Operand.register .A).node, .address [.leaf (.immediate 300) 6] 5]⟩ .empty = (.ok (), read) ∧
    z80 1 ⟨.OUT, 0, [.address [.leaf (.immediate 300) 5] 4, (Operand.register .A).node]⟩ .empty = (.ok (), write) ∧
    read.reports.map Diagnostic.message = ["300 overflows 8-bit immediate of IN"] ∧
    write.reports.map Diagnostic.message = ["300 overflows 8-bit immediate of OUT"] ∧
    read.reports.map Diagnostic.message ≠ write.reports.map Diagnostic.message := by
  refine ⟨_, _, rfl, rfl, ?_, ?_, ?_⟩
  · decide +kernel
  · decide +kernel
  · decide +kernel

end Encoder

end Z80Asm
