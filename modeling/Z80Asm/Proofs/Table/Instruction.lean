/-
The instruction table: all rows of all mnemonics. The main statement, `Mnemonic.encode_eq_ok_iff`, says that
a mnemonic has an encoding for its operands exactly where the table has a row for them; what holds of every
row therefore holds of every encoding.
-/
import Z80Asm.Machine.InstructionSet
import Z80Asm.Proofs.Table.Load
import Z80Asm.Proofs.Table.Arithmetic
import Z80Asm.Proofs.Table.BitPage
import Z80Asm.Proofs.Table.Branch
import Z80Asm.Proofs.Table.Exchange

namespace Z80Asm

/-! ## Families -/

/-- The mnemonic of an operation on the accumulator. -/
def Alu.mnemonic : Alu → Mnemonic
  | .ADD => .ADD
  | .ADC => .ADC
  | .SUB => .SUB
  | .SBC => .SBC
  | .AND => .AND
  | .XOR => .XOR
  | .OR => .OR
  | .CP => .CP

/-- The mnemonic of a step by one. -/
def Step.mnemonic : Step → Mnemonic
  | .INC => .INC
  | .DEC => .DEC

/-- The mnemonic of a rotation or shift. -/
def Rotation.mnemonic : Rotation → Mnemonic
  | .RLC => .RLC
  | .RRC => .RRC
  | .RL => .RL
  | .RR => .RR
  | .SLA => .SLA
  | .SRA => .SRA
  | .SRL => .SRL

/-- The mnemonic of an access to a single bit. -/
def BitAccess.mnemonic : BitAccess → Mnemonic
  | .BIT => .BIT
  | .RES => .RES
  | .SET => .SET

/-! ## The table -/

/-- The rows of the instruction table. -/
inductive Row : Mnemonic → List Operand → Encoding → Prop
  | load {xs : List Operand} {e : Encoding} (row : Load.Row xs e) : Row .LD xs e
  | alu (op : Alu) {xs : List Operand} {e : Encoding} (row : Alu.Row op xs e) : Row op.mnemonic xs e
  | step (s : Step) {xs : List Operand} {e : Encoding} (row : Step.Row s xs e) : Row s.mnemonic xs e
  | rotation (r : Rotation) {xs : List Operand} {e : Encoding} (row : BitPage.Target r.opcode 0 xs e) :
    Row r.mnemonic xs e
  | bit (b : BitAccess) {xs : List Operand} {e : Encoding} (row : BitAccess.Row b xs e) : Row b.mnemonic xs e
  | jump {xs : List Operand} {e : Encoding} (row : Branch.Jump xs e) : Row .JP xs e
  | relative {xs : List Operand} {e : Encoding} (row : Branch.Relative xs e) : Row .JR xs e
  | loop {xs : List Operand} {e : Encoding} (row : Branch.Loop xs e) : Row .DJNZ xs e
  | call {xs : List Operand} {e : Encoding} (row : Branch.Absolute 0xCD 0xC4 xs e) : Row .CALL xs e
  | ret {xs : List Operand} {e : Encoding} (row : Branch.Return xs e) : Row .RET xs e
  | restart {xs : List Operand} {e : Encoding} (row : Branch.Restart xs e) : Row .RST xs e
  | push {xs : List Operand} {e : Encoding} (row : Stack.Transferred 0xC5 xs e) : Row .PUSH xs e
  | pop {xs : List Operand} {e : Encoding} (row : Stack.Transferred 0xC1 xs e) : Row .POP xs e
  | exchange {xs : List Operand} {e : Encoding} (row : Stack.Exchange xs e) : Row .EX xs e
  | input {xs : List Operand} {e : Encoding} (row : Port.Input xs e) : Row .IN xs e
  | output {xs : List Operand} {e : Encoding} (row : Port.Output xs e) : Row .OUT xs e
  | interruptMode {xs : List Operand} {e : Encoding} (row : InterruptMode.Row xs e) : Row .IM xs e
  | implied {m : Mnemonic} {e : Encoding} (opcode : m.implied? = some e) : Row m [] e

namespace Mnemonic

theorem row_of_encode {m : Mnemonic} {xs : List Operand} {e : Encoding} (h : m.encode xs = .ok e) : Row m xs e := by
  unfold encode at h
  split at h
  · exact .load (Load.encode_eq_ok_iff.1 h)
  · exact .push (Stack.encode?_eq_some_iff.1 (Fault.orIllegal_eq_ok.1 h))
  · exact .pop (Stack.encode?_eq_some_iff.1 (Fault.orIllegal_eq_ok.1 h))
  · exact .exchange (Stack.exchange?_eq_some_iff.1 (Fault.orIllegal_eq_ok.1 h))
  · exact .alu .ADD (Alu.encode?_eq_some_iff.1 (Fault.orIllegal_eq_ok.1 h))
  · exact .alu .ADC (Alu.encode?_eq_some_iff.1 (Fault.orIllegal_eq_ok.1 h))
  · exact .alu .SUB (Alu.encode?_eq_some_iff.1 (Fault.orIllegal_eq_ok.1 h))
  · exact .alu .SBC (Alu.encode?_eq_some_iff.1 (Fault.orIllegal_eq_ok.1 h))
  · exact .alu .AND (Alu.encode?_eq_some_iff.1 (Fault.orIllegal_eq_ok.1 h))
  · exact .alu .XOR (Alu.encode?_eq_some_iff.1 (Fault.orIllegal_eq_ok.1 h))
  · exact .alu .OR (Alu.encode?_eq_some_iff.1 (Fault.orIllegal_eq_ok.1 h))
  · exact .alu .CP (Alu.encode?_eq_some_iff.1 (Fault.orIllegal_eq_ok.1 h))
  · exact .step .INC (Step.encode?_eq_some_iff.1 (Fault.orIllegal_eq_ok.1 h))
  · exact .step .DEC (Step.encode?_eq_some_iff.1 (Fault.orIllegal_eq_ok.1 h))
  · exact .rotation .RLC (Rotation.encode?_eq_some_iff.1 (Fault.orIllegal_eq_ok.1 h))
  · exact .rotation .RRC (Rotation.encode?_eq_some_iff.1 (Fault.orIllegal_eq_ok.1 h))
  · exact .rotation .RL (Rotation.encode?_eq_some_iff.1 (Fault.orIllegal_eq_ok.1 h))
  · exact .rotation .RR (Rotation.encode?_eq_some_iff.1 (Fault.orIllegal_eq_ok.1 h))
  · exact .rotation .SLA (Rotation.encode?_eq_some_iff.1 (Fault.orIllegal_eq_ok.1 h))
  · exact .rotation .SRA (Rotation.encode?_eq_some_iff.1 (Fault.orIllegal_eq_ok.1 h))
  · exact .rotation .SRL (Rotation.encode?_eq_some_iff.1 (Fault.orIllegal_eq_ok.1 h))
  · exact .bit .BIT (BitAccess.encode_eq_ok_iff.1 h)
  · exact .bit .RES (BitAccess.encode_eq_ok_iff.1 h)
  · exact .bit .SET (BitAccess.encode_eq_ok_iff.1 h)
  · exact .jump (Branch.jump?_eq_some_iff.1 (Fault.orIllegal_eq_ok.1 h))
  · exact .relative (Branch.relative?_eq_some_iff.1 (Fault.orIllegal_eq_ok.1 h))
  · exact .loop (Branch.loop?_eq_some_iff.1 (Fault.orIllegal_eq_ok.1 h))
  · exact .call (Branch.absolute?_eq_some_iff.1 (Fault.orIllegal_eq_ok.1 h))
  · exact .ret (Branch.return?_eq_some_iff.1 (Fault.orIllegal_eq_ok.1 h))
  · exact .restart (Branch.restart_eq_ok_iff.1 h)
  · exact .input (Port.input?_eq_some_iff.1 (Fault.orIllegal_eq_ok.1 h))
  · exact .output (Port.output?_eq_some_iff.1 (Fault.orIllegal_eq_ok.1 h))
  · exact .interruptMode (InterruptMode.encode_eq_ok_iff.1 h)
  · split at h
    · rename_i opcode
      cases h
      exact .implied opcode
    · cases h

/-- A mnemonic without operands takes none. -/
theorem encode_of_implied {m : Mnemonic} {e : Encoding} (opcode : m.implied? = some e) : m.encode [] = .ok e := by
  cases m <;> cases opcode <;> rfl

theorem encode_of_row {m : Mnemonic} {xs : List Operand} {e : Encoding} (h : Row m xs e) : m.encode xs = .ok e := by
  cases h with
  | load row => exact Load.encode_eq_ok_iff.2 row
  | alu op row =>
    have := Fault.orIllegal_eq_ok.2 (Alu.encode?_eq_some_iff.2 row)
    cases op <;> exact this
  | step s row =>
    have := Fault.orIllegal_eq_ok.2 (Step.encode?_eq_some_iff.2 row)
    cases s <;> exact this
  | rotation r row =>
    have := Fault.orIllegal_eq_ok.2 (Rotation.encode?_eq_some_iff.2 row)
    cases r <;> exact this
  | bit b row =>
    have := BitAccess.encode_eq_ok_iff.2 row
    cases b <;> exact this
  | jump row => exact Fault.orIllegal_eq_ok.2 (Branch.jump?_eq_some_iff.2 row)
  | relative row => exact Fault.orIllegal_eq_ok.2 (Branch.relative?_eq_some_iff.2 row)
  | loop row => exact Fault.orIllegal_eq_ok.2 (Branch.loop?_eq_some_iff.2 row)
  | call row => exact Fault.orIllegal_eq_ok.2 (Branch.absolute?_eq_some_iff.2 row)
  | ret row => exact Fault.orIllegal_eq_ok.2 (Branch.return?_eq_some_iff.2 row)
  | restart row => exact Branch.restart_eq_ok_iff.2 row
  | push row => exact Fault.orIllegal_eq_ok.2 (Stack.encode?_eq_some_iff.2 row)
  | pop row => exact Fault.orIllegal_eq_ok.2 (Stack.encode?_eq_some_iff.2 row)
  | exchange row => exact Fault.orIllegal_eq_ok.2 (Stack.exchange?_eq_some_iff.2 row)
  | input row => exact Fault.orIllegal_eq_ok.2 (Port.input?_eq_some_iff.2 row)
  | output row => exact Fault.orIllegal_eq_ok.2 (Port.output?_eq_some_iff.2 row)
  | interruptMode row => exact InterruptMode.encode_eq_ok_iff.2 row
  | implied opcode => exact encode_of_implied opcode

/-- A mnemonic has an encoding for its operands exactly where the table has a row for them. -/
theorem encode_eq_ok_iff {m : Mnemonic} {xs : List Operand} {e : Encoding} :
    m.encode xs = .ok e ↔ Row m xs e := ⟨row_of_encode, encode_of_row⟩

end Mnemonic

/-- A row is the only one of its mnemonic and operands. -/
theorem Row.unique {m : Mnemonic} {xs : List Operand} {e f : Encoding} (he : Row m xs e) (hf : Row m xs f) : e = f := by
  have := (Mnemonic.encode_of_row he).symm.trans (Mnemonic.encode_of_row hf)
  cases this; rfl

/-- A row of `LD` is one of the rows of loads. -/
theorem Row.of_LD {xs : List Operand} {e : Encoding} (h : Row .LD xs e) : Load.Row xs e :=
  Load.encode_eq_ok_iff.1 (Mnemonic.encode_of_row h)

/-! ## The rows of a mnemonic -/

namespace Row

variable {xs : List Operand} {e : Encoding}

theorem alu_iff {op : Alu} : Row op.mnemonic xs e ↔ Alu.Row op xs e := by
  have family : op.mnemonic.encode xs = Fault.orIllegal (op.encode? xs) := by cases op <;> rfl
  rw [← Mnemonic.encode_eq_ok_iff, family, Fault.orIllegal_eq_ok, Alu.encode?_eq_some_iff]

theorem step_iff {s : Step} : Row s.mnemonic xs e ↔ Step.Row s xs e := by
  have family : s.mnemonic.encode xs = Fault.orIllegal (s.encode? xs) := by cases s <;> rfl
  rw [← Mnemonic.encode_eq_ok_iff, family, Fault.orIllegal_eq_ok, Step.encode?_eq_some_iff]

theorem rotation_iff {r : Rotation} : Row r.mnemonic xs e ↔ BitPage.Target r.opcode 0 xs e := by
  have family : r.mnemonic.encode xs = Fault.orIllegal (r.encode? xs) := by cases r <;> rfl
  rw [← Mnemonic.encode_eq_ok_iff, family, Fault.orIllegal_eq_ok, Rotation.encode?_eq_some_iff]

theorem bitAccess_iff {b : BitAccess} : Row b.mnemonic xs e ↔ BitAccess.Row b xs e := by
  have family : b.mnemonic.encode xs = b.encode xs := by cases b <;> rfl
  rw [← Mnemonic.encode_eq_ok_iff, family, BitAccess.encode_eq_ok_iff]

theorem jump_iff : Row .JP xs e ↔ Branch.Jump xs e :=
  Mnemonic.encode_eq_ok_iff.symm.trans (Fault.orIllegal_eq_ok.trans Branch.jump?_eq_some_iff)

theorem relative_iff : Row .JR xs e ↔ Branch.Relative xs e :=
  Mnemonic.encode_eq_ok_iff.symm.trans (Fault.orIllegal_eq_ok.trans Branch.relative?_eq_some_iff)

theorem loop_iff : Row .DJNZ xs e ↔ Branch.Loop xs e :=
  Mnemonic.encode_eq_ok_iff.symm.trans (Fault.orIllegal_eq_ok.trans Branch.loop?_eq_some_iff)

theorem call_iff : Row .CALL xs e ↔ Branch.Absolute 0xCD 0xC4 xs e :=
  Mnemonic.encode_eq_ok_iff.symm.trans (Fault.orIllegal_eq_ok.trans Branch.absolute?_eq_some_iff)

theorem return_iff : Row .RET xs e ↔ Branch.Return xs e :=
  Mnemonic.encode_eq_ok_iff.symm.trans (Fault.orIllegal_eq_ok.trans Branch.return?_eq_some_iff)

theorem restart_iff : Row .RST xs e ↔ Branch.Restart xs e :=
  Mnemonic.encode_eq_ok_iff.symm.trans Branch.restart_eq_ok_iff

theorem push_iff : Row .PUSH xs e ↔ Stack.Transferred 0xC5 xs e :=
  Mnemonic.encode_eq_ok_iff.symm.trans (Fault.orIllegal_eq_ok.trans Stack.encode?_eq_some_iff)

theorem pop_iff : Row .POP xs e ↔ Stack.Transferred 0xC1 xs e :=
  Mnemonic.encode_eq_ok_iff.symm.trans (Fault.orIllegal_eq_ok.trans Stack.encode?_eq_some_iff)

theorem exchange_iff : Row .EX xs e ↔ Stack.Exchange xs e :=
  Mnemonic.encode_eq_ok_iff.symm.trans (Fault.orIllegal_eq_ok.trans Stack.exchange?_eq_some_iff)

theorem input_iff : Row .IN xs e ↔ Port.Input xs e :=
  Mnemonic.encode_eq_ok_iff.symm.trans (Fault.orIllegal_eq_ok.trans Port.input?_eq_some_iff)

theorem output_iff : Row .OUT xs e ↔ Port.Output xs e :=
  Mnemonic.encode_eq_ok_iff.symm.trans (Fault.orIllegal_eq_ok.trans Port.output?_eq_some_iff)

theorem interruptMode_iff : Row .IM xs e ↔ InterruptMode.Row xs e :=
  Mnemonic.encode_eq_ok_iff.symm.trans InterruptMode.encode_eq_ok_iff

/-- A mnemonic without operands has one row. -/
theorem implied_iff {m : Mnemonic} {f : Encoding} (opcode : m.implied? = some f) : Row m xs e ↔ xs = [] ∧ e = f := by
  constructor
  · intro h
    cases xs with
    | nil => exact ⟨rfl, h.unique (.implied opcode)⟩
    | cons x xs =>
      have rejected : m.encode (x :: xs) = .error .illegalOperands := by cases m <;> cases opcode <;> rfl
      rw [Mnemonic.encode_of_row h] at rejected
      cases rejected
  · rintro ⟨rfl, rfl⟩
    exact .implied opcode

end Row

end Z80Asm
