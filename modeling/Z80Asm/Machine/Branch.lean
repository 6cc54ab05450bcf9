/-
Jumps, calls and returns. Offsets of relative jumps are encoded as they are written.
-/
import Z80Asm.Machine.Place
import Z80Asm.Machine.Fault

namespace Z80Asm.Branch

/-- The condition field at its position in the opcode. -/
def field (c : Condition) : UInt8 := 8 * Vocabulary.code c

/-- A jump or call to a number: always, by one opcode, or on a condition, by another. -/
def absolute? (always onCondition : UInt8) : List Operand → Option Encoding
  | [.immediate nn] => some ((Encoding.main always).withData .w16 nn 0)
  | [x, .immediate nn] =>
    x.condition?.map fun c => (Encoding.main (onCondition + field c)).withData .w16 nn 1
  | _ => none

/-- A jump to where `HL` or an index register points. The parentheses hold nothing else. -/
def indirect? (a : Address) : Option Encoding :=
  match a with
  | ⟨.normalPair .HL, none⟩ => some (.main 0xE9)
  | ⟨.indexPair p, none⟩ => some ((Encoding.main 0xE9).indexedBy (some p))
  | _ => none

/-- `JP`. -/
def jump? : List Operand → Option Encoding
  | [.address a] => indirect? a
  | operands => absolute? 0xC3 0xC2 operands

/-- `CALL`. -/
def call? (operands : List Operand) : Option Encoding := absolute? 0xCD 0xC4 operands

/-- The conditions that a relative jump can test: those of the zero and the carry flag. -/
def isRelative : Condition → Bool
  | .NZ | .Z | .NC | .C => true
  | _ => false

/-- `JR`. -/
def relative? : List Operand → Option Encoding
  | [.immediate d] => some ((Encoding.main 0x18).withData .s8 d 0)
  | [x, .immediate d] =>
    (x.condition?.filter isRelative).map fun c => (Encoding.main (0x20 + field c)).withData .s8 d 1
  | _ => none

/-- `DJNZ`. -/
def loop? : List Operand → Option Encoding
  | [.immediate d] => some ((Encoding.main 0x10).withData .s8 d 0)
  | _ => none

/-- `RET`. -/
def return? : List Operand → Option Encoding
  | [] => some (.main 0xC9)
  | [x] => x.condition?.map fun c => .main (0xC0 + field c)
  | _ => none

/-- Whether a number is one of the eight restart vectors. -/
def isRestart (n : Int32) : Bool := 0 ≤ n.toInt && n.toInt ≤ 0x38 && n.toInt % 8 == 0

/-- `RST`. -/
def restart : List Operand → Except Fault Encoding
  | [.immediate n] =>
    if isRestart n then .ok (.main (0xC7 + UInt8.ofNat n.toInt.toNat)) else .error (.badRestart n)
  | _ => .error .illegalOperands

end Z80Asm.Branch
