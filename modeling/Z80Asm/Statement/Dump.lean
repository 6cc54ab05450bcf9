/-
The indented text of a statement: one node a line, four blanks a level, an address as a block in braces.
-/
import Z80Asm.Statement.Basic

namespace Z80Asm

/-- The label of a leaf's line. -/
def Leaf.label : Leaf → String
  | .mnemonic _ => "MNEMONIC"
  | .word (.register _) => "REGISTER"
  | .word (.specialRegister _) => "SPECREG"
  | .word (.indexHalf _) => "IREG"
  | .word (.normalPair _) => "NORMPAIR"
  | .word (.specialPair _) => "SPECPAIR"
  | .word (.indexPair _) => "IPAIR"
  | .word (.condition _) => "CONDITION"
  | .immediate _ => "IMM"
  | .operator _ => "OPERATOR"

/-- What a leaf's line shows in braces. -/
def Leaf.text : Leaf → String
  | .mnemonic m => Vocabulary.name m
  | .word w => w.name
  | .immediate n => toString n
  | .operator o => toString o

namespace Statement

/-- A line of the dump at a level of nesting. -/
def indented (depth : Nat) (text : String) : String :=
  String.ofList (List.replicate (4 * depth) ' ') ++ text

end Statement

mutual

/-- The lines of a node at a level of nesting. -/
def Node.dump (depth : Nat) : Node → List String
  | .leaf l _ => [Statement.indented depth ("(" ++ l.label ++ ") \x7b " ++ l.text ++ " \x7d")]
  | .address children _ =>
    Statement.indented depth "(ADR) \x7b" :: Node.dumpAll (depth + 1) children ++
      [Statement.indented depth "\x7d"]

/-- The lines of nodes that stand side by side. -/
def Node.dumpAll (depth : Nat) : List Node → List String
  | [] => []
  | n :: more => Node.dump depth n ++ Node.dumpAll depth more

end

namespace Statement

/-- The lines of a statement. -/
def dumpLines (s : Statement) : List String :=
  "(INSTRUCTION) \x7b" :: Node.dumpAll 1 s.nodes ++ ["\x7d"]

/-- The indented text of a statement, every line ended by a line feed. -/
def dump (s : Statement) : String := String.join (s.dumpLines.map (· ++ "\n"))

end Statement

end Z80Asm
