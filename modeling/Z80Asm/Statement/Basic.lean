/-
One statement as a tree: a mnemonic and its operand nodes, each at the byte column of the token it came
from. Reading a line only ever nests addresses one deep; the type allows any nesting, so that functions
on it are defined for every tree.
-/
import Z80Asm.Word
import Z80Asm.Token.Operator

namespace Z80Asm

/-- What a node without children holds. -/
inductive Leaf
  | mnemonic (m : Mnemonic)
  | word (w : Word)
  | immediate (n : Int32)
  | operator (o : Operator)
  deriving DecidableEq, Repr

/-- A node of a statement: a leaf, or a parenthesised address with what stands in the parentheses. -/
inductive Node
  | leaf (l : Leaf) (column : Nat)
  | address (children : List Node) (column : Nat)

namespace Node

/-- The byte column of a node. -/
def column : Node → Nat
  | .leaf _ column => column
  | .address _ column => column

/-- The nodes in the parentheses of an address. -/
def children : Node → List Node
  | .leaf _ _ => []
  | .address children _ => children

end Node

/-- A mnemonic at a column, with its operands in source order. -/
structure Statement where
  mnemonic : Mnemonic
  column : Nat
  operands : List Node

namespace Statement

/-- The mnemonic as a node. -/
def root (s : Statement) : Node := .leaf (.mnemonic s.mnemonic) s.column

/-- The mnemonic node, then the operands. -/
def nodes (s : Statement) : List Node := s.root :: s.operands

/-- The column of an operand; that of the mnemonic where there is no such operand. -/
def columnOf (s : Statement) (operand : Nat) : Nat :=
  match s.operands[operand]? with
  | some node => node.column
  | none => s.column

end Statement

end Z80Asm
