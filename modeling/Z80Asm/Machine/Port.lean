/-
Input, output and the interrupt mode. A port is a number, for the accumulator alone, or the one that
register `C` holds.
-/
import Z80Asm.Machine.Load

namespace Z80Asm

/-- How an instruction names a port. -/
inductive Port
  | immediate (n : Int32)
  | registerC
  deriving DecidableEq, Repr

namespace Port

/-- The port that an address names. Ports take no displacement, and no register but `C` holds one. -/
def ofAddress? (a : Address) : Option Port :=
  if a.displacement.isSome then none
  else
    match a.base with
    | .immediate n => some (.immediate n)
    | .register r => if r = .C then some .registerC else none
    | _ => none

/-- The opcode for the port in `C` and register `B`. -/
def opcode : Transfer → UInt8
  | .load => 0x40
  | .store => 0x41

/-- A register and a port, either way. -/
def transfer? (t : Transfer) (r : Register) (a : Address) : Option Encoding :=
  match ofAddress? a with
  | some (.immediate n) =>
    if r = .A then some ((Encoding.main (0xD3 + t.bit)).withData .u8 n t.addressOperand) else none
  | some .registerC => some (.extended (opcode t + 8 * Vocabulary.code r))
  | none => none

/-- `IN`. Without a register only the flags are set. -/
def input? : List Operand → Option Encoding
  | [.address a] => if ofAddress? a = some .registerC then some (.extended 0x70) else none
  | [.register r, .address a] => transfer? .load r a
  | _ => none

/-- `OUT`. The number zero, and no other, can be written to the port in `C`. -/
def output? : List Operand → Option Encoding
  | [.address a, .register r] => transfer? .store r a
  | [.address a, .immediate n] =>
    if n = 0 ∧ ofAddress? a = some .registerC then some (.extended 0x71) else none
  | _ => none

end Port

namespace InterruptMode

/-- `IM`. -/
def encode : List Operand → Except Fault Encoding
  | [.immediate n] =>
    if n = 0 then .ok (.extended 0x46)
    else if n = 1 then .ok (.extended 0x56)
    else if n = 2 then .ok (.extended 0x5E)
    else .error (.badInterruptMode n)
  | _ => .error .illegalOperands

end InterruptMode

end Z80Asm
