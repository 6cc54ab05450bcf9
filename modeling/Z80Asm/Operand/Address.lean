/-
Parenthesised operands: a base, and possibly a displacement from it. The nodes of an address fold to one
exactly if they are a number, a base, or a base, a sign and a number.
-/
import Z80Asm.Statement.Basic

namespace Z80Asm

/-- What an address is based on. -/
inductive Base
  | immediate (n : Int32)
  | register (r : Register)
  | normalPair (p : NormalPair)
  | indexPair (p : IndexPair)
  deriving DecidableEq, Repr

/-- A base with the signed displacement that is written after it, if there is one. -/
structure Address where
  base : Base
  displacement : Option Int32
  deriving DecidableEq, Repr

/-- The memory operands of the 8-bit instructions: `(HL)`, or an index register plus a displacement. -/
inductive Memory
  | hl
  | indexed (p : IndexPair) (displacement : Int32)
  deriving DecidableEq, Repr

/-- The base that a leaf can be. -/
def Base.ofLeaf? : Leaf → Option Base
  | .immediate n => some (.immediate n)
  | .word (.register r) => some (.register r)
  | .word (.normalPair p) => some (.normalPair p)
  | .word (.indexPair p) => some (.indexPair p)
  | _ => none

namespace Address

/-- The address that nodes stand for. Nothing can be added to a number. -/
def ofNodes? : List Node → Option Address
  | [.leaf b _] => (Base.ofLeaf? b).map fun base => ⟨base, none⟩
  | [.leaf b _, .leaf (.operator o) _, .leaf (.immediate n) _] =>
    match Base.ofLeaf? b, o.signed? n with
    | some (.immediate _), _ => none
    | some base, some d => some ⟨base, some d⟩
    | _, _ => none
  | _ => none

/-- The displacement from the base, zero where none is written. -/
def offset (a : Address) : Int32 := a.displacement.getD 0

/-- The address as a memory operand of the 8-bit instructions. A bare index register counts as
displaced by zero, while `HL` takes no displacement at all. -/
def memory? (a : Address) : Option Memory :=
  match a.base, a.displacement with
  | .normalPair .HL, none => some .hl
  | .indexPair p, _ => some (.indexed p a.offset)
  | _, _ => none

/-- Whether the address is exactly a pair in parentheses. -/
def isPair (a : Address) (p : NormalPair) : Bool := a.base == .normalPair p && a.displacement.isNone

/-- The number in the parentheses. -/
def immediate? (a : Address) : Option Int32 :=
  match a.base with
  | .immediate n => some n
  | _ => none

end Address

end Z80Asm
