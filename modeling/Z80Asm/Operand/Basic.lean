/-
The operands as the instruction tables see them: words, numbers and folded addresses, without columns.
-/
import Z80Asm.Operand.Address

namespace Z80Asm

/-- An operand of an instruction. -/
inductive Operand
  | register (r : Register)
  | specialRegister (r : SpecialRegister)
  | indexHalf (h : IndexHalf)
  | normalPair (p : NormalPair)
  | specialPair (p : SpecialPair)
  | indexPair (p : IndexPair)
  | condition (c : Condition)
  | immediate (n : Int32)
  | address (a : Address)
  deriving DecidableEq, Repr

/-- Why a node is no operand. -/
inductive OperandFault
  | notAnOperand
  | malformedAddress
  deriving DecidableEq, Repr

namespace Operand

/-- The operand that a classified word is. -/
def ofWord : Word → Operand
  | .register r => .register r
  | .specialRegister r => .specialRegister r
  | .indexHalf h => .indexHalf h
  | .normalPair p => .normalPair p
  | .specialPair p => .specialPair p
  | .indexPair p => .indexPair p
  | .condition c => .condition c

/-- The operand that a node is. Mnemonics and symbols are none. -/
def ofNode : Node → Except OperandFault Operand
  | .leaf (.word w) _ => .ok (ofWord w)
  | .leaf (.immediate n) _ => .ok (.immediate n)
  | .leaf (.mnemonic _) _ => .error .notAnOperand
  | .leaf (.operator _) _ => .error .notAnOperand
  | .address children _ =>
    match Address.ofNodes? children with
    | some a => .ok (.address a)
    | none => .error .malformedAddress

/-- The operands that nodes are; the first node that is none decides the fault. -/
def ofNodes : List Node → Except OperandFault (List Operand)
  | [] => .ok []
  | n :: more =>
    match ofNode n with
    | .error fault => .error fault
    | .ok x =>
      match ofNodes more with
      | .error fault => .error fault
      | .ok xs => .ok (x :: xs)

/-- The condition that an operand tests. In the place of a condition, `C` is read as the register of
that name and means the carry flag. -/
def condition? : Operand → Option Condition
  | .condition c => some c
  | .register .C => some .C
  | _ => none

/-- The memory operand of the 8-bit instructions that an operand is. -/
def memory? : Operand → Option Memory
  | .address a => a.memory?
  | _ => none

end Operand

end Z80Asm
