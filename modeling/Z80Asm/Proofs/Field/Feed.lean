/-
Which operands feed a field. A number goes to a field of its mnemonic, or is checked and becomes part of the
opcode; an address gives its number or its displacement. The main statement, `Row.fields_eq`, says that the
fields of an encoding are those that its operands feed, each with the operand's own value and position.
-/
import Z80Asm.Proofs.Table.Instruction

namespace Z80Asm

/-! ## Values of operands -/

namespace Operand

/-- The value in an operand: a number, the number of an address, or the displacement from a base. -/
def value : Operand → Int32
  | .immediate n => n
  | .address ⟨.immediate n, _⟩ => n
  | .address a => a.offset
  | _ => 0

/-- The operand with another value in the place of its own. -/
def withValue (v : Int32) : Operand → Operand
  | .immediate _ => .immediate v
  | .address ⟨.immediate _, _⟩ => .address ⟨.immediate v, none⟩
  | .address a => .address ⟨a.base, some v⟩
  | x => x

/-- Whether an operand can be written: nothing is added to a number. -/
def isWritable : Operand → Bool
  | .address ⟨.immediate _, d⟩ => d.isNone
  | _ => true

theorem isWritable_withValue (x : Operand) (v : Int32) : (x.withValue v).isWritable = true := by
  cases x with
  | address a =>
    obtain ⟨base, d⟩ := a
    cases base <;> rfl
  | _ => rfl

theorem withValue_withValue (x : Operand) (v v' : Int32) : (x.withValue v).withValue v' = x.withValue v' := by
  cases x with
  | address a =>
    obtain ⟨base, d⟩ := a
    cases base <;> rfl
  | _ => rfl

end Operand

/-! ## Widths -/

namespace Mnemonic

/-- The width of the field for a number among the operands; none, where the number is checked and becomes
part of the opcode. `LD` fills bytes and pairs. -/
def numberWidth? (m : Mnemonic) (operands : List Operand) : Option Width :=
  match m with
  | .LD =>
    match operands with
    | .normalPair _ :: _ | .indexPair _ :: _ => some .w16
    | _ => some .u8
  | .ADD | .ADC | .SUB | .SBC | .AND | .XOR | .OR | .CP => some .u8
  | .JP | .CALL => some .w16
  | .JR | .DJNZ => some .s8
  | _ => none

/-- The width of the field for the number or the displacement in an address: an address of memory is a word,
that of a port a byte, and a displacement an offset. `JP` takes no displacement. -/
def addressWidth? (m : Mnemonic) : Base → Option Width
  | .immediate _ =>
    match m with
    | .LD => some .w16
    | .IN | .OUT => some .u8
    | _ => none
  | .indexPair _ => if m = .JP then none else some .s8
  | _ => none

/-- The width of the field that an operand feeds. -/
def width? (m : Mnemonic) (operands : List Operand) : Operand → Option Width
  | .immediate _ => m.numberWidth? operands
  | .address a => m.addressWidth? a.base
  | _ => none

theorem width?_withValue (m : Mnemonic) (operands : List Operand) (x : Operand) (v : Int32) :
    m.width? operands (x.withValue v) = m.width? operands x := by
  cases x with
  | address a =>
    obtain ⟨base, d⟩ := a
    cases base <;> rfl
  | _ => rfl

/-- The field that an operand feeds from its position. -/
def field? (m : Mnemonic) (operands : List Operand) (x : Operand) (i : Nat) : Option Field :=
  (m.width? operands x).map (⟨·, x.value, i⟩)

/-- The fields that operands feed, in their order. -/
def fields (m : Mnemonic) (operands : List Operand) : List Field :=
  operands.zipIdx.filterMap fun p => m.field? operands p.1 p.2

end Mnemonic

/-! ## The fields of an encoding -/

/-- The fields of an encoding are those that its operands feed. -/
theorem Row.fields_eq {m : Mnemonic} {xs : List Operand} {e : Encoding} (h : Row m xs e) : e.fields = m.fields xs := by
  -- both sides compute as soon as the row is known; a mnemonic of a family has to be known besides
  cases h with
  | load row => cases row <;> rfl
  | alu op row =>
    cases row with
    | short implicit source => cases source <;> cases op <;> rfl
    | long source => cases source <;> cases op <;> rfl
    | _ => rfl
  | step s row => cases row <;> cases s <;> rfl
  | rotation r row => cases row <;> cases r <;> rfl
  | bit b row =>
    obtain ⟨-, row⟩ := row
    cases row <;> cases b <;> rfl
  | jump row =>
    cases row with
    | absolute row =>
      cases row with
      | always nn => rfl
      | conditional slot nn => cases slot <;> rfl
    | _ => rfl
  | relative row =>
    cases row with
    | always d => rfl
    | conditional slot flag d => cases slot <;> rfl
  | call row =>
    cases row with
    | always nn => rfl
    | conditional slot nn => cases slot <;> rfl
  | ret row =>
    cases row with
    | always => rfl
    | conditional slot => cases slot <;> rfl
  | @implied m e opcode => cases m <;> cases opcode <;> rfl
  | _ row => cases row <;> rfl

end Z80Asm
