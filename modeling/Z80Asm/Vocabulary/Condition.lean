/-
The flag tests of jumps, calls and returns.
-/
import Z80Asm.Vocabulary.Basic

namespace Z80Asm

/-- The conditions, in the order of the three-bit condition field. -/
inductive Condition
  | NZ | Z | NC | C | PO | PE | P | M
  deriving DecidableEq, Repr

instance : Vocabulary Condition where
  all := [.NZ, .Z, .NC, .C, .PO, .PE, .P, .M]
  name
    | .NZ => "NZ" | .Z => "Z" | .NC => "NC" | .C => "C" | .PO => "PO" | .PE => "PE" | .P => "P" | .M => "M"
  code
    | .NZ => 0 | .Z => 1 | .NC => 2 | .C => 3 | .PO => 4 | .PE => 5 | .P => 6 | .M => 7

end Z80Asm
