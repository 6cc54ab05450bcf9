/-
The bit page: rotations, shifts and accesses to single bits. All of them take the same targets: a
register, a byte in memory, or an indexed byte in memory with a register that receives a copy of the
result.
-/
import Z80Asm.Machine.Place
import Z80Asm.Machine.Fault

namespace Z80Asm

namespace BitPage

/-- The instruction on a target, where `opcode` is that for `B`. The target's operands begin at the
position `first`. -/
def onTarget? (opcode : UInt8) (first : Nat) : List Operand → Option Encoding
  | [.register r] => some (.bit (opcode + Vocabulary.code r))
  | [.address a] => a.memory?.map fun m => (Encoding.bit (opcode + 6)).onMemory m first
  | [.address a, .register r] =>
    match a.memory? with
    | some (.indexed p d) => some ((Encoding.bit (opcode + Vocabulary.code r)).onMemory (.indexed p d) first)
    | _ => none
  | _ => none

end BitPage

/-- The rotations and shifts. -/
inductive Rotation
  | RLC | RRC | RL | RR | SLA | SRA | SRL
  deriving DecidableEq, Repr

namespace Rotation

/-- The opcode for `B`. The row between `SRA` and `SRL` is empty. -/
def opcode : Rotation → UInt8
  | .RLC => 0x00
  | .RRC => 0x08
  | .RL => 0x10
  | .RR => 0x18
  | .SLA => 0x20
  | .SRA => 0x28
  | .SRL => 0x38

/-- A rotation or shift. -/
def encode? (r : Rotation) (operands : List Operand) : Option Encoding := BitPage.onTarget? r.opcode 0 operands

end Rotation

/-- The accesses to single bits. -/
inductive BitAccess
  | BIT | RES | SET
  deriving DecidableEq, Repr

namespace BitAccess

/-- The opcode for bit 0 of `B`. -/
def opcode : BitAccess → UInt8
  | .BIT => 0x40
  | .RES => 0x80
  | .SET => 0xC0

/-- An access to a bit of a target. The index of the bit is checked before the target is looked at. -/
def encode (b : BitAccess) : List Operand → Except Fault Encoding
  | .immediate n :: target =>
    if 0 ≤ n.toInt ∧ n.toInt ≤ 7 then
      Fault.orIllegal (BitPage.onTarget? (b.opcode + 8 * UInt8.ofNat n.toInt.toNat) 1 target)
    else .error (.badBitIndex n)
  | _ => .error .illegalOperands

end BitAccess

end Z80Asm
