/-
The opcode map read backwards: the instruction that stands in a cell, with zero for its values. An opcode
falls into octal digits; an index prefix puts its register into the place of `HL`, and a cell whose
instruction has no such place is empty. The main statements are `Row.form?_cell`, that the cell of an
encoding gives back the instruction, and `Cell.row_of_form?`, that nothing else is in the map.
-/
import Z80Asm.Proofs.OpcodeMap.Canonical

namespace Z80Asm

/-- A mnemonic with operands, as they stand for an instruction. -/
abbrev Form : Type := Mnemonic × List Operand

namespace Cell

/-! ## Operands by their digit -/

/-- The register of a digit. The digit 6, which no register has, is taken by the memory operand. -/
def register : Nat → Register
  | 0 => .B
  | 1 => .C
  | 2 => .D
  | 3 => .E
  | 4 => .H
  | 5 => .L
  | _ => .A

/-- The memory operand: `(HL)`, or the index address in its place. -/
def memory : Option IndexPair → Operand
  | none => .hl
  | some i => .indexed i (some 0)

/-- The target of the jump that goes where `HL` or an index register points. -/
def indirect : Option IndexPair → Operand
  | none => .hl
  | some i => .indexed i none

/-- The byte operand of a digit, where the halves of an index register take the places of `H` and `L`. -/
def byte : Option IndexPair → Nat → Operand
  | index, 6 => memory index
  | some .IX, 4 => .indexHalf .IXH
  | some .IX, 5 => .indexHalf .IXL
  | some .IY, 4 => .indexHalf .IYH
  | some .IY, 5 => .indexHalf .IYL
  | _, d => .register (register d)

/-- `HL`, or the index register in its place. -/
def pairHL : Option IndexPair → Operand
  | none => .normalPair .HL
  | some i => .indexPair i

/-- The pair of a digit, whose lowest bit does not count. -/
def pair (index : Option IndexPair) (d : Nat) : Operand :=
  match d / 2 with
  | 0 => .normalPair .BC
  | 1 => .normalPair .DE
  | 2 => pairHL index
  | _ => .normalPair .SP

/-- The pair of a digit on the stack, where the flags take the place of `SP`. -/
def savedPair (index : Option IndexPair) (d : Nat) : Operand :=
  match d / 2 with
  | 3 => .specialPair .AF
  | _ => pair index d

/-- The condition of a digit. -/
def condition : Nat → Condition
  | 0 => .NZ
  | 1 => .Z
  | 2 => .NC
  | 3 => .C
  | 4 => .PO
  | 5 => .PE
  | 6 => .P
  | _ => .M

/-! ## Instructions by their digits -/

/-- The operation on the accumulator of a digit. -/
def accumulate (x : Operand) : Nat → Form
  | 0 => (.ADD, [.register .A, x])
  | 1 => (.ADC, [.register .A, x])
  | 2 => (.SUB, [x])
  | 3 => (.SBC, [.register .A, x])
  | 4 => (.AND, [x])
  | 5 => (.XOR, [x])
  | 6 => (.OR, [x])
  | _ => (.CP, [x])

/-- The loads between bytes. Beside the memory operand `H` and `L` are themselves. -/
def move (index : Option IndexPair) : Nat → Nat → Form
  | 6, 6 => (.HALT, [])
  | 6, z => (.LD, [memory index, .register (register z)])
  | y, 6 => (.LD, [.register (register y), memory index])
  | y, z => (.LD, [byte index y, byte index z])

/-- The first quarter of the main page. -/
def quarter0? (index : Option IndexPair) (y : Nat) : Nat → Option Form
  | 0 =>
    match y with
    | 0 => some (.NOP, [])
    | 1 => some (.EX, [.specialPair .AF, .specialPair .AFShadow])
    | 2 => some (.DJNZ, [.immediate 0])
    | 3 => some (.JR, [.immediate 0])
    | y => some (.JR, [.condition (condition (y - 4)), .immediate 0])
  | 1 => if y % 2 = 0 then some (.LD, [pair index y, .immediate 0]) else some (.ADD, [pairHL index, pair index y])
  | 2 =>
    match y with
    | 0 => some (.LD, [.pointer .BC, .register .A])
    | 1 => some (.LD, [.register .A, .pointer .BC])
    | 2 => some (.LD, [.pointer .DE, .register .A])
    | 3 => some (.LD, [.register .A, .pointer .DE])
    | 4 => some (.LD, [.numeric 0 none, pairHL index])
    | 5 => some (.LD, [pairHL index, .numeric 0 none])
    | 6 => some (.LD, [.numeric 0 none, .register .A])
    | _ => some (.LD, [.register .A, .numeric 0 none])
  | 3 => if y % 2 = 0 then some (.INC, [pair index y]) else some (.DEC, [pair index y])
  | 4 => some (.INC, [byte index y])
  | 5 => some (.DEC, [byte index y])
  | 6 => some (.LD, [byte index y, .immediate 0])
  | _ =>
    match y with
    | 0 => some (.RLCA, [])
    | 1 => some (.RRCA, [])
    | 2 => some (.RLA, [])
    | 3 => some (.RRA, [])
    | 4 => some (.DAA, [])
    | 5 => some (.CPL, [])
    | 6 => some (.SCF, [])
    | _ => some (.CCF, [])

/-- The last quarter of the main page. The prefix bytes stand there as well, and are no instructions. -/
def quarter3? (index : Option IndexPair) (y : Nat) : Nat → Option Form
  | 0 => some (.RET, [.condition (condition y)])
  | 1 =>
    match y with
    | 1 => some (.RET, [])
    | 3 => some (.EXX, [])
    | 5 => some (.JP, [indirect index])
    | 7 => some (.LD, [.normalPair .SP, pairHL index])
    | y => some (.POP, [savedPair index y])
  | 2 => some (.JP, [.condition (condition y), .immediate 0])
  | 3 =>
    match y with
    | 0 => some (.JP, [.immediate 0])
    | 1 => none
    | 2 => some (.OUT, [.numeric 0 none, .register .A])
    | 3 => some (.IN, [.register .A, .numeric 0 none])
    | 4 => some (.EX, [.pointer .SP, pairHL index])
    | 5 => some (.EX, [.normalPair .DE, .normalPair .HL])
    | 6 => some (.DI, [])
    | _ => some (.EI, [])
  | 4 => some (.CALL, [.condition (condition y), .immediate 0])
  | 5 =>
    if y % 2 = 0 then some (.PUSH, [savedPair index y])
    else if y = 1 then some (.CALL, [.immediate 0]) else none
  | 6 => some (accumulate (.immediate 0) y)
  | _ => some (.RST, [.immediate (Int32.ofNat (8 * y))])

/-- The instructions of the main page. -/
def mainForm? (index : Option IndexPair) (x y z : Nat) : Option Form :=
  match x with
  | 0 => quarter0? index y z
  | 1 => some (move index y z)
  | 2 => some (accumulate (byte index z) y)
  | _ => quarter3? index y z

/-- The operands of the bit page after the index of a bit. Under an index prefix all of them are in memory,
and a register receives a copy. -/
def targets (index : Option IndexPair) (z : Nat) : List Operand :=
  match index, z with
  | _, 6 => [memory index]
  | none, z => [.register (register z)]
  | some _, z => [memory index, .register (register z)]

/-- The instructions of the bit page. -/
def bitForm? (index : Option IndexPair) (x y z : Nat) : Option Form :=
  match x with
  | 0 =>
    match y with
    | 0 => some (.RLC, targets index z)
    | 1 => some (.RRC, targets index z)
    | 2 => some (.RL, targets index z)
    | 3 => some (.RR, targets index z)
    | 4 => some (.SLA, targets index z)
    | 5 => some (.SRA, targets index z)
    | 6 => none
    | _ => some (.SRL, targets index z)
  | 1 => some (.BIT, .immediate (Int32.ofNat y) :: targets index z)
  | 2 => some (.RES, .immediate (Int32.ofNat y) :: targets index z)
  | _ => some (.SET, .immediate (Int32.ofNat y) :: targets index z)

/-- The second quarter of the extended page. -/
def extended1? (y : Nat) : Nat → Option Form
  | 0 => if y = 6 then some (.IN, [.portC]) else some (.IN, [.register (register y), .portC])
  | 1 => if y = 6 then some (.OUT, [.portC, .immediate 0]) else some (.OUT, [.portC, .register (register y)])
  | 2 =>
    if y % 2 = 0 then some (.SBC, [.normalPair .HL, pair none y]) else some (.ADC, [.normalPair .HL, pair none y])
  | 3 =>
    if y / 2 = 2 then none
    else if y % 2 = 0 then some (.LD, [.numeric 0 none, pair none y]) else some (.LD, [pair none y, .numeric 0 none])
  | 4 => if y = 0 then some (.NEG, []) else none
  | 5 =>
    match y with
    | 0 => some (.RETN, [])
    | 1 => some (.RETI, [])
    | _ => none
  | 6 =>
    match y with
    | 0 => some (.IM, [.immediate 0])
    | 2 => some (.IM, [.immediate 1])
    | 3 => some (.IM, [.immediate 2])
    | _ => none
  | _ =>
    match y with
    | 0 => some (.LD, [.specialRegister .I, .register .A])
    | 1 => some (.LD, [.specialRegister .R, .register .A])
    | 2 => some (.LD, [.register .A, .specialRegister .I])
    | 3 => some (.LD, [.register .A, .specialRegister .R])
    | 4 => some (.RRD, [])
    | 5 => some (.RLD, [])
    | _ => none

/-- The block instructions of the extended page. -/
def block? : Nat → Nat → Option Form
  | 4, 0 => some (.LDI, [])
  | 4, 1 => some (.CPI, [])
  | 4, 2 => some (.INI, [])
  | 4, 3 => some (.OUTI, [])
  | 5, 0 => some (.LDD, [])
  | 5, 1 => some (.CPD, [])
  | 5, 2 => some (.IND, [])
  | 5, 3 => some (.OUTD, [])
  | 6, 0 => some (.LDIR, [])
  | 6, 1 => some (.CPIR, [])
  | 6, 2 => some (.INIR, [])
  | 6, 3 => some (.OUTIR, [])
  | 7, 0 => some (.LDDR, [])
  | 7, 1 => some (.CPDR, [])
  | 7, 2 => some (.INDR, [])
  | 7, 3 => some (.OUTDR, [])
  | _, _ => none

/-- The instructions of the extended page. -/
def extendedForm? (x y z : Nat) : Option Form :=
  match x with
  | 1 => extended1? y z
  | 2 => block? y z
  | _ => none

/-- Whether an operand stands in the place of `HL` under an index prefix. -/
def isIndexed : Operand → Bool
  | .indexHalf _ | .indexPair _ | .address ⟨.indexPair _, _⟩ => true
  | _ => false

/-- The instruction in a cell. An index prefix before an instruction without a place for the index register
is none. -/
def form? (c : Cell) : Option Form :=
  let x := c.opcode.toNat / 64
  let y := c.opcode.toNat / 8 % 8
  let z := c.opcode.toNat % 8
  let form := match c.page with
    | .main => mainForm? c.index x y z
    | .bit => bitForm? c.index x y z
    | .extended => extendedForm? x y z
  form.filter fun (_, xs) => c.index.isNone || xs.any isIndexed

end Cell

open Encoding

/-! ## The cells of the table -/

theorem Load.Row.form?_cell {xs : List Operand} {e : Encoding} (h : Row xs e) :
    e.cell.form? = some (.LD, Mnemonic.LD.blank xs) := by
  -- with the values out of the way, both sides are closed terms once the registers are known
  cases h <;> simp only [cell_main, cell_extended, cell_withData, cell_indexedBy, cell_onMemory]
  case register r s => cases r <;> cases s <;> rfl
  case number r n fits => cases r <;> rfl
  case fromHL r => cases r <;> rfl
  case toHL r => cases r <;> rfl
  case fromIndexed r i d => cases r <;> cases i <;> rfl
  case toIndexed i d r => cases r <;> cases i <;> rfl
  case numberToHL n => rfl
  case numberToHalf k n => cases k <;> rfl
  case fromHalf r k plain =>
    cases r with
    | H => exact absurd rfl plain.1
    | L => exact absurd rfl plain.2
    | _ => cases k <;> rfl
  case toHalf k r plain =>
    cases r with
    | H => exact absurd rfl plain.1
    | L => exact absurd rfl plain.2
    | _ => cases k <;> rfl
  case half k l same => cases k <;> cases l <;> cases same <;> rfl
  case fromPointer p wide => rcases wide with rfl | rfl <;> rfl
  case toPointer p wide => rcases wide with rfl | rfl <;> rfl
  case fromNumeric nn d => rfl
  case toNumeric nn d => rfl
  case fromSpecial r => cases r <;> rfl
  case toSpecial r => cases r <;> rfl
  case pairNumber p nn => cases p <;> rfl
  case hlFromNumeric nn d => rfl
  case hlToNumeric nn d => rfl
  case pairFromNumeric p nn d long =>
    cases p with
    | HL => exact absurd rfl long
    | _ => rfl
  case pairToNumeric p nn d long =>
    cases p with
    | HL => exact absurd rfl long
    | _ => rfl
  case stackPointer => rfl
  case numberToIndexed i d n => cases i <;> rfl
  case indexNumber i nn => cases i <;> rfl
  case indexFromNumeric i nn d => cases i <;> rfl
  case indexToNumeric i nn d => cases i <;> rfl
  case stackPointerIndex i => cases i <;> rfl

theorem Alu.Source.form?_cell {op : Alu} {i : Nat} {x : Operand} {e : Encoding} (h : Source op i x e) :
    e.cell.form? = some (op.mnemonic, op.mnemonic.blank [.register .A, x]) := by
  cases h <;> simp only [cell_main, cell_withData, cell_indexedBy, cell_onMemory]
  case register r => cases op <;> cases r <;> rfl
  case half k => cases op <;> cases k <;> rfl
  case hl => cases op <;> rfl
  case indexed i d => cases op <;> cases i <;> rfl
  case number n => cases op <;> rfl

theorem Alu.Row.form?_cell {op : Alu} {xs : List Operand} {e : Encoding} (h : Row op xs e) :
    e.cell.form? = some (op.mnemonic, op.mnemonic.blank xs) := by
  cases h with
  | short implicit source =>
    -- an operation that may leave out its target has one form for both spellings
    rw [source.form?_cell, Mnemonic.blank, Mnemonic.blank, Mnemonic.reduce_singleton (by cases op <;> rfl)]
    cases op <;> cases implicit <;> rfl
  | long source => exact source.form?_cell
  | addPair p => cases p <;> rfl
  | addToIndex i p other =>
    cases p with
    | HL => exact absurd rfl other
    | _ => cases i <;> rfl
  | addSelf i => cases i <;> rfl
  | adcPair p => cases p <;> rfl
  | sbcPair p => cases p <;> rfl

theorem Step.Row.form?_cell {s : Step} {xs : List Operand} {e : Encoding} (h : Row s xs e) :
    e.cell.form? = some (s.mnemonic, s.mnemonic.blank xs) := by
  cases h <;> simp only [cell_main, cell_indexedBy, cell_onMemory]
  case register r => cases s <;> cases r <;> rfl
  case half k => cases s <;> cases k <;> rfl
  case hl => cases s <;> rfl
  case indexed i d => cases s <;> cases i <;> rfl
  case pair p => cases s <;> cases p <;> rfl
  case index i => cases s <;> cases i <;> rfl

theorem Rotation.form?_cell {r : Rotation} {xs : List Operand} {e : Encoding} (h : BitPage.Target r.opcode 0 xs e) :
    e.cell.form? = some (r.mnemonic, r.mnemonic.blank xs) := by
  cases h <;> simp only [cell_bit, cell_onMemory]
  case register s => cases r <;> cases s <;> rfl
  case hl => cases r <;> rfl
  case indexed i d => cases r <;> cases i <;> rfl
  case copy i d s => cases r <;> cases i <;> cases s <;> rfl

theorem BitAccess.Row.form?_cell {b : BitAccess} {xs : List Operand} {e : Encoding} (h : Row b xs e) :
    e.cell.form? = some (b.mnemonic, b.mnemonic.blank xs) := by
  obtain ⟨index, row⟩ := h
  simp only [indices, List.mem_cons, List.not_mem_nil, or_false] at index
  rcases index with rfl | rfl | rfl | rfl | rfl | rfl | rfl | rfl <;> cases b <;> cases row with
  | register r => cases r <;> rfl
  | hl => rfl
  | indexed i d => rw [cell_onMemory, cell_bit]; cases i <;> rfl
  | copy i d r => rw [cell_onMemory, cell_bit]; cases i <;> cases r <;> rfl

theorem Branch.Jump.form?_cell {xs : List Operand} {e : Encoding} (h : Jump xs e) :
    e.cell.form? = some (.JP, Mnemonic.JP.blank xs) := by
  cases h with
  | absolute row =>
    cases row with
    | always nn => rw [cell_withData, cell_main]; rfl
    | @conditional x c slot nn =>
      simp only [cell_main, cell_withData]
      cases slot with
      | condition => cases c <;> rfl
      | carry => rfl
  | hl => rfl
  | index i => cases i <;> rfl

theorem Branch.Absolute.form?_cell_call {xs : List Operand} {e : Encoding} (h : Absolute 0xCD 0xC4 xs e) :
    e.cell.form? = some (.CALL, Mnemonic.CALL.blank xs) := by
  cases h with
  | always nn => rw [cell_withData, cell_main]; rfl
  | @conditional x c slot nn =>
    simp only [cell_main, cell_withData]
    cases slot with
    | condition => cases c <;> rfl
    | carry => rfl

theorem Branch.Relative.form?_cell {xs : List Operand} {e : Encoding} (h : Relative xs e) :
    e.cell.form? = some (.JR, Mnemonic.JR.blank xs) := by
  cases h with
  | always d => rw [cell_withData, cell_main]; rfl
  | @conditional x c slot flag d =>
    simp only [cell_main, cell_withData]
    cases slot with
    | condition => cases c <;> cases flag <;> rfl
    | carry => rfl

theorem Branch.Return.form?_cell {xs : List Operand} {e : Encoding} (h : Return xs e) :
    e.cell.form? = some (.RET, Mnemonic.RET.blank xs) := by
  cases h with
  | always => rfl
  | @conditional x c slot =>
    cases slot with
    | condition => cases c <;> rfl
    | carry => rfl

theorem Branch.Restart.form?_cell {xs : List Operand} {e : Encoding} (h : Restart xs e) :
    e.cell.form? = some (.RST, Mnemonic.RST.blank xs) := by
  obtain ⟨vector⟩ := h
  simp only [vectors, List.mem_cons, List.not_mem_nil, or_false] at vector
  rcases vector with rfl | rfl | rfl | rfl | rfl | rfl | rfl | rfl <;> rfl

/-- The cell of an encoding gives back its mnemonic and its operands, all but their values. -/
theorem Row.form?_cell {m : Mnemonic} {xs : List Operand} {e : Encoding} (h : Row m xs e) :
    e.cell.form? = some (m, m.blank xs) := by
  cases h with
  | load row => exact row.form?_cell
  | alu op row => exact row.form?_cell
  | step s row => exact row.form?_cell
  | rotation r row => exact Rotation.form?_cell row
  | bit b row => exact row.form?_cell
  | jump row => exact row.form?_cell
  | relative row => exact row.form?_cell
  | loop row =>
    obtain ⟨d⟩ := row
    rw [cell_withData, cell_main]; rfl
  | call row => exact row.form?_cell_call
  | ret row => exact row.form?_cell
  | restart row => exact row.form?_cell
  | push row =>
    cases row with
    | pair p saved =>
      cases p with
      | SP => exact absurd rfl saved
      | _ => rfl
    | flags => rfl
    | index i => cases i <;> rfl
  | pop row =>
    cases row with
    | pair p saved =>
      cases p with
      | SP => exact absurd rfl saved
      | _ => rfl
    | flags => rfl
    | index i => cases i <;> rfl
  | exchange row =>
    cases row with
    | topIndex i => cases i <;> rfl
    | _ => rfl
  | input row =>
    cases row with
    | register r => cases r <;> rfl
    | numeric n => rw [cell_withData, cell_main]; rfl
    | _ => rfl
  | output row =>
    cases row with
    | register r => cases r <;> rfl
    | numeric n => rw [cell_withData, cell_main]; rfl
    | _ => rfl
  | interruptMode row => cases row <;> rfl
  | @implied m e opcode => cases m <;> cases opcode <;> rfl

/-! ## Nothing else is in the map -/

namespace Cell

/-- Whether the instruction in a cell has that cell, and can be written. -/
def isSound (c : Cell) : Bool :=
  match c.form? with
  | none => true
  | some (m, xs) =>
    xs.all Operand.isWritable && match m.encode xs with
      | .ok e => e.cell == c
      | .error _ => false

/-- A property of the cells, checked opcode by opcode. -/
theorem forall_of_opcodes {P : Cell → Prop} (main : ∀ index, ∀ n < 256, P ⟨index, .main, .ofNat n⟩)
    (bit : ∀ index, ∀ n < 256, P ⟨index, .bit, .ofNat n⟩) (extended : ∀ index, ∀ n < 256, P ⟨index, .extended, .ofNat n⟩)
    (c : Cell) : P c := by
  obtain ⟨index, page, opcode⟩ := c
  have hlt : opcode.toNat < 256 := opcode.toNat_lt
  rw [← UInt8.ofNat_toNat (x := opcode)]
  cases page with
  | main => exact main index _ hlt
  | bit => exact bit index _ hlt
  | extended => exact extended index _ hlt

theorem isSound_eq_true : ∀ c : Cell, c.isSound = true := by
  refine forall_of_opcodes ?_ ?_ ?_ <;> rintro (_ | _ | _) <;> decide +kernel

theorem row_of_form? {c : Cell} {m : Mnemonic} {xs : List Operand} (h : c.form? = some (m, xs)) :
    (∃ e, Row m xs e ∧ e.cell = c) ∧ ∀ x ∈ xs, x.isWritable = true := by
  have hs := c.isSound_eq_true
  rw [isSound, h] at hs
  obtain ⟨writable, encoded⟩ := Bool.and_eq_true_iff.1 hs
  refine ⟨?_, List.all_eq_true.1 writable⟩
  split at encoded
  · rename_i e he
    exact ⟨e, Mnemonic.encode_eq_ok_iff.1 he, by simpa using encoded⟩
  · cases encoded

end Cell

end Z80Asm
