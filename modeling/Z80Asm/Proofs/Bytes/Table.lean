/-
The encoder, read off the instruction table. Its bytes are those of the row for its operands, and operands without a row
are rejected with the fault of the mnemonic.
-/
import Z80Asm.Proofs.Assembler.Statement
import Z80Asm.Proofs.Field.Alike
import Z80Asm.Proofs.Table.Rejection

namespace Z80Asm

/-- The number of a half of an index register in the register field of an opcode. -/
def IndexHalf.number : IndexHalf → UInt8
  | .IXH | .IYH => 4
  | .IXL | .IYL => 5

/-- A half has the field of the register that it stands in for. -/
theorem IndexHalf.number_eq (k : IndexHalf) : k.number = k.field := by cases k <;> rfl

/-- Operands that are read from nodes can be written. -/
theorem Operand.isWritable_of_ofNodes {nodes : List Node} {xs : List Operand} (h : ofNodes nodes = .ok xs) :
    ∀ x ∈ xs, x.isWritable = true := by
  replace h := ofNodes_eq_ok_iff.1 h
  induction h with
  | nil => nofun
  | @cons node x nodes xs hx _ ih =>
    refine List.forall_mem_cons.2 ⟨?_, ih⟩
    cases x with
    | address a =>
      obtain ⟨base, d⟩ := a
      cases base with
      | immediate n => cases displacement_of_ofNode hx; rfl
      | _ => rfl
    | _ => rfl

namespace Encoder

variable {line : Nat} {s : Statement} {out : Output} {xs : List Operand}

theorem exists_bytes_iff {bs : List UInt8} (hxs : Operand.ofNodes s.operands = .ok xs) :
    (∃ out', z80 line s out = (.ok (), out') ∧ out'.bytes = bs) ↔ ∃ e, Row s.mnemonic xs e ∧ e.bytes = bs := by
  constructor
  · rintro ⟨out', h, rfl⟩
    obtain ⟨e, he, rfl⟩ := encoding_of_z80 h
    exact ⟨e, Statement.row_of_encoding hxs he, rfl⟩
  · rintro ⟨e, row, rfl⟩
    exact ⟨_, z80_of_encoding (Statement.encoding_eq_ok_iff.2 ⟨xs, hxs, row⟩), rfl⟩

theorem z80_of_no_row (hxs : Operand.ofNodes s.operands = .ok xs) (none : ∀ e, ¬Row s.mnemonic xs e) :
    z80 line s out = (.error (s.failure (s.mnemonic.rejection xs)), out.clear) :=
  z80_of_error (Statement.encoding_of_fault hxs (Mnemonic.encode_eq_error_iff.2 ⟨none, rfl⟩))

/-- A node that is no operand is reported before the mnemonic is looked at. -/
theorem z80_of_rejected {fault : OperandFault} (h : Operand.ofNodes s.operands = .error fault) :
    z80 line s out = (.error (s.failure fault.fault), out.clear) := by
  have failed : s.encoding = .error (s.failure fault.fault) := by rw [Statement.encoding, h]
  exact z80_of_error failed

/-- Nodes that are no operands are not those of the mnemonic. -/
theorem z80_of_notAnOperand (h : Operand.ofNodes s.operands = .error .notAnOperand) :
    z80 line s out = (.error ⟨s.mnemonic, .illegalOperands, s.column⟩, out.clear) := z80_of_rejected h

/-- A table with the bytes of the rows for the operands of a statement is that of the encoder: it writes what the table
has, and rejects what the table does not have with the fault of the mnemonic. -/
theorem z80_of_table (line : Nat) (out : Output) {table : List UInt8 → Prop}
    (hxs : Operand.ofNodes s.operands = .ok xs)
    (rows : ∀ bs, table bs ↔ ∃ e, Row s.mnemonic xs e ∧ e.bytes = bs) :
    (∀ bs, (∃ out', z80 line s out = (.ok (), out') ∧ out'.bytes = bs) ↔ table bs) ∧
    ∀ {fault : Fault}, s.mnemonic.rejection xs = fault → (∀ bs, ¬table bs) →
      z80 line s out = (.error (s.failure fault), out.clear) := by
  refine ⟨fun bs => (exists_bytes_iff hxs).trans (rows bs).symm, ?_⟩
  rintro _ rfl none
  refine z80_of_no_row hxs fun e row => ?_
  exact none e.bytes ((rows e.bytes).2 ⟨e, row, rfl⟩)

/-- A statement is encoded exactly where the table has bytes for it. -/
theorem exists_z80_iff_table {table : List UInt8 → Prop}
    (h : ∀ bs, (∃ out', z80 line s out = (.ok (), out') ∧ out'.bytes = bs) ↔ table bs) :
    (∃ out', z80 line s out = (.ok (), out')) ↔ ∃ bs, table bs := by
  constructor
  · rintro ⟨out', written⟩
    exact ⟨out'.bytes, (h out'.bytes).1 ⟨out', written, rfl⟩⟩
  · rintro ⟨bs, has⟩
    obtain ⟨out', written, -⟩ := (h bs).2 has
    exact ⟨out', written⟩

end Encoder

end Z80Asm
