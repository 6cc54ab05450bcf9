/-
What can fill the register fields of an opcode. The three-bit field takes a register, half of an index
register in the place of `H` or `L`, or the byte at `(HL)` or at an index address; the two-bit field takes
a pair, with an index register in the place of `HL`.
-/
import Z80Asm.Machine.Encoding

namespace Z80Asm

/-! ## Bytes -/

/-- What fills a three-bit register field. -/
inductive Place
  | register (r : Register)
  | half (h : IndexHalf)
  | memory (m : Memory)
  deriving DecidableEq, Repr

namespace Place

/-- The place that an operand is. -/
def ofOperand? : Operand → Option Place
  | .register r => some (.register r)
  | .indexHalf h => some (.half h)
  | .address a => a.memory?.map .memory
  | _ => none

/-- The value of the field. Six, which no register has, is the byte in memory. -/
def code : Place → UInt8
  | .register r => Vocabulary.code r
  | .half h => h.field
  | .memory _ => 6

/-- The instruction with a place as one of its operands. -/
def apply (p : Place) (operand : Nat) (e : Encoding) : Encoding :=
  match p with
  | .register _ => e
  | .half h => e.indexedBy (some h.pair)
  | .memory m => e.onMemory m operand

/-- Whether one instruction can name both places. It has one memory operand at most; under an index
prefix `H` and `L` become the halves of that index register, so that halves go only with each other and
with the other registers. -/
def compatible : Place → Place → Bool
  | .half a, .half b => a.pair == b.pair
  | .half _, .register r | .register r, .half _ => r != .H && r != .L
  | .half _, .memory _ | .memory _, .half _ | .memory _, .memory _ => false
  | .register _, .register _ | .register _, .memory _ | .memory _, .register _ => true

end Place

/-! ## Pairs -/

/-- What fills a two-bit pair field. -/
structure PairPlace where
  pair : NormalPair
  index : Option IndexPair
  deriving DecidableEq, Repr

namespace PairPlace

/-- The pair place that an operand is. An index register takes the place of `HL`. -/
def ofOperand? : Operand → Option PairPlace
  | .normalPair p => some ⟨p, none⟩
  | .indexPair p => some ⟨.HL, some p⟩
  | _ => none

/-- The field at its position in the opcode. -/
def field (p : PairPlace) : UInt8 := 16 * Vocabulary.code p.pair

/-- Whether the place is `HL` or an index register. -/
def isHL (p : PairPlace) : Bool := p.pair == .HL

/-- Whether an instruction whose target is `HL`, or an index register in its place, can name a second
pair. Under an index prefix the field of `HL` is that index register itself. -/
def compatible (target source : PairPlace) : Bool :=
  source.index == target.index || (source.index.isNone && !source.isHL)

end PairPlace

end Z80Asm
