/-
Why operands have no encoding. A fault names no columns; it names the operand that shows it.
-/
import Z80Asm.Machine.Encoding

namespace Z80Asm

/-- Why a mnemonic has no encoding for its operands. -/
inductive Fault
  | illegalOperands
  | outOfRange (value : Int32)
  | badBitIndex (value : Int32)
  | badRestart (value : Int32)
  | badInterruptMode (value : Int32)
  | malformedAddress
  deriving DecidableEq, Repr

namespace Fault

/-- The operand that shows a fault; none, where the operands as a whole do. The number of a load is its
second operand, and the other checked numbers are first operands. -/
def operand? : Fault → Option Nat
  | .illegalOperands | .malformedAddress => none
  | .outOfRange _ => some 1
  | .badBitIndex _ | .badRestart _ | .badInterruptMode _ => some 0

/-- The encoding if there is one, and otherwise the plain fault. -/
def orIllegal : Option Encoding → Except Fault Encoding
  | some e => .ok e
  | none => .error .illegalOperands

end Fault

end Z80Asm
