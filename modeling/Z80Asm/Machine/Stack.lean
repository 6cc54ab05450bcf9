/-
The stack and the exchanges.
-/
import Z80Asm.Machine.Place

namespace Z80Asm.Stack

/-- `PUSH` and `POP`, where `opcode` is that for `BC`. The field of the stack pointer is the accumulator
with the flags. -/
def encode? (opcode : UInt8) : List Operand → Option Encoding
  | [.specialPair .AF] => some (.main (opcode + 0x30))
  | [x] =>
    match PairPlace.ofOperand? x with
    | some p => if p.pair = .SP then none else some ((Encoding.main (opcode + p.field)).indexedBy p.index)
    | none => none
  | _ => none

/-- `PUSH`. -/
def push? (operands : List Operand) : Option Encoding := encode? 0xC5 operands

/-- `POP`. -/
def pop? (operands : List Operand) : Option Encoding := encode? 0xC1 operands

/-- The exchange of the top of the stack with `HL` or an index register. -/
def exchangeTop? (p : PairPlace) : Option Encoding :=
  if p.isHL then some ((Encoding.main 0xE3).indexedBy p.index) else none

/-- `EX`. -/
def exchange? : List Operand → Option Encoding
  | [.specialPair .AF, .specialPair .AFShadow] => some (.main 0x08)
  | [.normalPair .DE, .normalPair .HL] => some (.main 0xEB)
  | [.address a, x] => if a.isPair .SP then (PairPlace.ofOperand? x).bind exchangeTop? else none
  | _ => none

end Z80Asm.Stack
