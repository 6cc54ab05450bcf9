/-
`LD`. A load sets a byte or a pair to a number, moves a byte between two places, or goes between a
register and memory. The opcodes for the two ways of going differ in one bit.
-/
import Z80Asm.Machine.Place
import Z80Asm.Machine.Fault

namespace Z80Asm

/-! ## Between registers and an address -/

/-- The two ways between a register and what an address names. -/
inductive Transfer
  | load | store
  deriving DecidableEq, Repr

namespace Transfer

/-- The opcode bit of a load. -/
def bit : Transfer → UInt8
  | .load => 8
  | .store => 0

/-- The position of the address among the operands: the source of a load, the target of a store. -/
def addressOperand : Transfer → Nat
  | .load => 1
  | .store => 0

/-- The accumulator and the byte at `(BC)`, `(DE)` or a numeric address. -/
def accumulator? (t : Transfer) (a : Address) : Option Encoding :=
  if a.isPair .BC then some (.main (0x02 + t.bit))
  else if a.isPair .DE then some (.main (0x12 + t.bit))
  else a.immediate?.map fun nn => (Encoding.main (0x32 + t.bit)).withData .w16 nn t.addressOperand

/-- A pair and the word at a numeric address. `HL` has a short form, which the index registers share. -/
def pair? (t : Transfer) (p : PairPlace) (a : Address) : Option Encoding :=
  a.immediate?.map fun nn =>
    let opcode := if p.isHL then Encoding.main (0x22 + t.bit) else Encoding.extended (0x43 + p.field + t.bit)
    (opcode.indexedBy p.index).withData .w16 nn t.addressOperand

end Transfer

namespace Load

/-! ## Numbers -/

/-- A byte set to a number. -/
def setByte (p : Place) (n : Int32) : Encoding :=
  (p.apply 0 (.main (0x06 + 8 * p.code))).withData .u8 n 1

/-- A pair set to a number. -/
def setPair (p : PairPlace) (nn : Int32) : Encoding :=
  ((Encoding.main (0x01 + p.field)).indexedBy p.index).withData .w16 nn 1

/-- A byte or a pair set to a number. -/
def set? (target : Operand) (n : Int32) : Option Encoding :=
  match Place.ofOperand? target with
  | some p => some (setByte p n)
  | none => (PairPlace.ofOperand? target).map (setPair · n)

/-! ## Moves -/

/-- A byte moved from one place to another. -/
def moveByte? (target source : Place) : Option Encoding :=
  if target.compatible source then
    some (source.apply 1 (target.apply 0 (.main (0x40 + 8 * target.code + source.code))))
  else none

/-- The stack pointer set to `HL` or an index register. -/
def setStackPointer? (source : PairPlace) : Option Encoding :=
  if source.isHL then some ((Encoding.main 0xF9).indexedBy source.index) else none

/-- A special register set from the accumulator, which is the only register it can be set from. -/
def setSpecial? (target : SpecialRegister) (source : Operand) : Option Encoding :=
  if source = .register .A then some (.extended (0x47 + 8 * Vocabulary.code target)) else none

/-- The accumulator, and no other target, set from a special register. -/
def fromSpecial? (target : Operand) (source : SpecialRegister) : Option Encoding :=
  if target = .register .A then some (.extended (0x57 + 8 * Vocabulary.code source)) else none

/-- A register and what an address names, either way. -/
def transfer? (t : Transfer) (x : Operand) (a : Address) : Option Encoding :=
  match x with
  | .register r =>
    match a.memory?, t with
    | some m, .load => moveByte? (.register r) (.memory m)
    | some m, .store => moveByte? (.memory m) (.register r)
    | none, _ => if r = .A then t.accumulator? a else none
  | _ => (PairPlace.ofOperand? x).bind (t.pair? · a)

/-- A move to a target that is no address. -/
def moveTo? (target source : Operand) : Option Encoding :=
  match target with
  | .normalPair p => if p = .SP then (PairPlace.ofOperand? source).bind setStackPointer? else none
  | .specialRegister r => setSpecial? r source
  | _ => (Place.ofOperand? target).bind fun p => (Place.ofOperand? source).bind (moveByte? p)

/-! ## The instruction -/

/-- The load of a target from a source, where no number is checked. -/
def load? (target source : Operand) : Option Encoding :=
  match source with
  | .immediate n => set? target n
  | .address a => transfer? .load target a
  | .specialRegister r => fromSpecial? target r
  | _ =>
    match target with
    | .address a => transfer? .store source a
    | _ => moveTo? target source

/-- `LD`. The number for a register is the one number that has to fit its field. -/
def encode : List Operand → Except Fault Encoding
  | [.register r, .immediate n] =>
    if Width.u8.fits n then .ok (setByte (.register r) n) else .error (.outOfRange n)
  | [target, source] => Fault.orIllegal (load? target source)
  | _ => .error .illegalOperands

end Load

end Z80Asm
