/-
The arithmetic and logic instructions. Eight operations on the accumulator share one layout; `ADD`, `ADC`
and `SBC` also work on pairs, and `INC` and `DEC` on any byte or pair.
-/
import Z80Asm.Machine.Place

namespace Z80Asm

/-- The operations on the accumulator, in the order of their opcode rows. -/
inductive Alu
  | ADD | ADC | SUB | SBC | AND | XOR | OR | CP
  deriving DecidableEq, Repr

namespace Alu

/-- The row of an operation. -/
def row : Alu → UInt8
  | .ADD => 0
  | .ADC => 1
  | .SUB => 2
  | .SBC => 3
  | .AND => 4
  | .XOR => 5
  | .OR => 6
  | .CP => 7

/-- Whether the target has to be written. The operations that work on the accumulator alone may leave it
out. -/
def namesTarget : Alu → Bool
  | .ADD | .ADC | .SBC => true
  | _ => false

/-- An operation on the accumulator and an operand. -/
def onByte? (op : Alu) (x : Operand) (operand : Nat) : Option Encoding :=
  match x with
  | .immediate n => some ((Encoding.main (0xC6 + 8 * op.row)).withData .u8 n operand)
  | _ => (Place.ofOperand? x).map fun p => p.apply operand (.main (0x80 + 8 * op.row + p.code))

/-- An operation on two pairs. The operations with carry know `HL` alone as target. -/
def onPairs? (op : Alu) (target source : PairPlace) : Option Encoding :=
  match op with
  | .ADD =>
    if target.isHL && target.compatible source then
      some ((Encoding.main (0x09 + source.field)).indexedBy target.index)
    else none
  | .ADC => if target == ⟨.HL, none⟩ && source.index.isNone then some (.extended (0x4A + source.field)) else none
  | .SBC => if target == ⟨.HL, none⟩ && source.index.isNone then some (.extended (0x42 + source.field)) else none
  | _ => none

/-- An arithmetic or logic instruction. -/
def encode? (op : Alu) : List Operand → Option Encoding
  | [x] => if op.namesTarget then none else op.onByte? x 0
  | [.register .A, x] => op.onByte? x 1
  | [target, source] =>
    (PairPlace.ofOperand? target).bind fun p => (PairPlace.ofOperand? source).bind (op.onPairs? p)
  | _ => none

end Alu

/-- The steps by one. -/
inductive Step
  | INC | DEC
  deriving DecidableEq, Repr

namespace Step

/-- The number that tells the two steps apart in their opcodes. -/
def code : Step → UInt8
  | .INC => 0
  | .DEC => 1

/-- `INC` and `DEC`. -/
def encode? (s : Step) : List Operand → Option Encoding
  | [x] =>
    match Place.ofOperand? x with
    | some p => some (p.apply 0 (.main (0x04 + s.code + 8 * p.code)))
    | none =>
      (PairPlace.ofOperand? x).map fun p => (Encoding.main (0x03 + 8 * s.code + p.field)).indexedBy p.index
  | _ => none

end Step

end Z80Asm
