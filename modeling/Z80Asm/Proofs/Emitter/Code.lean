/-
The instructions written piece by piece. The code of a mnemonic matches its operands, writes bytes to the
buffer and notes values that do not fit as it comes to them, and can stop at any point; what it has written by
then stays in the buffer. Opcodes are put together by shifting their fields into place.
-/
import Z80Asm.Assembler.Encoder

namespace Z80Asm

/-- What the code of a mnemonic changes: the buffer, and the overflows that are not yet reported. -/
structure Draft where
  buffer : List UInt8
  pending : List Overflow

/-- Code that writes an instruction for a statement. A failure leaves the draft as it is at that point. -/
abbrev Emitter (α : Type) : Type := ReaderT Statement (ExceptT EvalError (StateM Draft)) α

namespace Emitter

open Vocabulary

/-! ## Pieces -/

/-- A three-bit field in the middle of an opcode. -/
def middle (field : UInt8) : UInt8 := field <<< 3

/-- A two-bit pair field in an opcode. -/
def pair (field : UInt8) : UInt8 := field <<< 4

def byte (b : UInt8) : Emitter Unit := modify fun d => { d with buffer := d.buffer ++ [b] }

def bytes (bs : List UInt8) : Emitter Unit := modify fun d => { d with buffer := d.buffer ++ bs }

/-- A value in a field, taken from the operand at a position. -/
def imm (value : Int32) (width : Width) (operand : Nat) : Emitter Unit := do
  let s ← read
  unless width.fits value do
    modify fun d => { d with pending := d.pending ++ [⟨s.mnemonic, width, value, s.columnOf operand⟩] }
  bytes (width.bytes value)

def disp (d : Int32) (operand : Nat) : Emitter Unit := imm d .s8 operand

def word (nn : Int32) (operand : Nat) : Emitter Unit := imm nn .w16 operand

/-- The end of the code at the column of the mnemonic. -/
def illegal {α : Type} : Emitter α := do
  let s ← read
  throw ⟨s.mnemonic, .illegalOperands, s.column⟩

/-- The end of the code at the column of an operand. -/
def reject {α : Type} (fault : Fault) (operand : Nat) : Emitter α := do
  let s ← read
  throw ⟨s.mnemonic, fault, s.columnOf operand⟩

/-- The value that is there, or the end of the code. -/
def require {α : Type} : Option α → Emitter α
  | some x => pure x
  | none => illegal

/-- An opcode without operands. -/
def fixed (operands : List Operand) (opcode : List UInt8) : Emitter Unit :=
  if operands.isEmpty then bytes opcode else illegal

/-- An opcode on a memory operand. -/
def mem (m : Memory) (op : UInt8) (operand : Nat) : Emitter Unit :=
  match m with
  | .hl => byte op
  | .indexed p d => do
    bytes [p.prefixByte, op]
    disp d operand

/-- An opcode of the bit page on an index address, whose displacement stands before it. -/
def bitIndexed (p : IndexPair) (d : Int32) (op : UInt8) (operand : Nat) : Emitter Unit := do
  bytes [p.prefixByte, 0xCB]
  disp d operand
  byte op

/-- An opcode of the bit page on a memory operand. -/
def bitMem (m : Memory) (op : UInt8) (operand : Nat) : Emitter Unit :=
  match m with
  | .hl => bytes [0xCB, op]
  | .indexed p d => bitIndexed p d op operand

/-! ## Loads -/

def loadRegister (target : Register) (a : Address) : Emitter Unit :=
  match a.memory? with
  | some m => mem m (0x46 ||| middle (code target)) 1
  | none => do
    if target ≠ .A then illegal
    if a.isPair .BC then byte 0x0A
    else if a.isPair .DE then byte 0x1A
    else
      let nn ← require a.immediate?
      byte 0x3A
      word nn 1

def storeRegister (a : Address) (source : Register) : Emitter Unit :=
  match a.memory? with
  | some m => mem m (0x70 ||| code source) 0
  | none => do
    if source ≠ .A then illegal
    if a.isPair .BC then byte 0x02
    else if a.isPair .DE then byte 0x12
    else
      let nn ← require a.immediate?
      byte 0x32
      word nn 0

/-- Whether a register is one that the halves of the index registers stand in for. -/
def isHalved (r : Register) : Bool := r == .H || r == .L

def load : List Operand → Emitter Unit
  | [.register r, .register s] => byte (0x40 ||| middle (code r) ||| code s)
  | [.register r, .immediate n] => do
    if !Width.u8.fits n then reject (.outOfRange n) 1
    byte (0x06 ||| middle (code r))
    imm n .u8 1
  | [.register r, .address a] => loadRegister r a
  | [.register r, .indexHalf k] =>
    if isHalved r then illegal else bytes [k.pair.prefixByte, 0x40 ||| middle (code r) ||| k.field]
  | [.register .A, .specialRegister x] => bytes [0xED, if x = .I then 0x57 else 0x5F]
  | [.specialRegister x, .register .A] => bytes [0xED, if x = .I then 0x47 else 0x4F]
  | [.indexHalf k, .immediate n] => do
    bytes [k.pair.prefixByte, 0x06 ||| middle k.field]
    imm n .u8 1
  | [.indexHalf k, .register s] =>
    if isHalved s then illegal else bytes [k.pair.prefixByte, 0x40 ||| middle k.field ||| code s]
  | [.indexHalf k, .indexHalf l] =>
    if k.pair = l.pair then bytes [k.pair.prefixByte, 0x40 ||| middle k.field ||| l.field] else illegal
  | [.address a, .register s] => storeRegister a s
  | [.address a, .immediate n] => do
    match ← require a.memory? with
    | .hl =>
      byte 0x36
      imm n .u8 1
    | .indexed p d =>
      bytes [p.prefixByte, 0x36]
      disp d 0
      imm n .u8 1
  | [.address a, .normalPair p] => do
    let nn ← require a.immediate?
    if p = .HL then byte 0x22 else bytes [0xED, 0x43 ||| pair (code p)]
    word nn 0
  | [.address a, .indexPair p] => do
    let nn ← require a.immediate?
    bytes [p.prefixByte, 0x22]
    word nn 0
  | [.normalPair p, .immediate nn] => do
    byte (0x01 ||| pair (code p))
    word nn 1
  | [.normalPair p, .address a] => do
    let nn ← require a.immediate?
    if p = .HL then byte 0x2A else bytes [0xED, 0x4B ||| pair (code p)]
    word nn 1
  | [.normalPair .SP, .normalPair .HL] => byte 0xF9
  | [.normalPair .SP, .indexPair p] => bytes [p.prefixByte, 0xF9]
  | [.indexPair p, .immediate nn] => do
    bytes [p.prefixByte, 0x21]
    word nn 1
  | [.indexPair p, .address a] => do
    let nn ← require a.immediate?
    bytes [p.prefixByte, 0x2A]
    word nn 1
  | _ => illegal

/-! ## The stack and the exchanges -/

/-- `PUSH` and `POP`, by the opcode for `BC`. -/
def transfer (base : UInt8) : List Operand → Emitter Unit
  | [.normalPair p] => if p = .SP then illegal else byte (base ||| pair (code p))
  | [.specialPair .AF] => byte (base ||| 0x30)
  | [.indexPair p] => bytes [p.prefixByte, base ||| 0x20]
  | _ => illegal

def exchange : List Operand → Emitter Unit
  | [.specialPair .AF, .specialPair .AFShadow] => byte 0x08
  | [.normalPair .DE, .normalPair .HL] => byte 0xEB
  | [.address a, .normalPair .HL] => if a.isPair .SP then byte 0xE3 else illegal
  | [.address a, .indexPair p] => if a.isPair .SP then bytes [p.prefixByte, 0xE3] else illegal
  | _ => illegal

/-! ## Arithmetic and logic -/

/-- An operation on the accumulator, by the opcode for `B`. -/
def accumulate (base : UInt8) (operand : Nat) : Operand → Emitter Unit
  | .register r => byte (base ||| code r)
  | .indexHalf k => bytes [k.pair.prefixByte, base ||| k.field]
  | .address a => do
    let m ← require a.memory?
    mem m (base ||| 0x06) operand
  | .immediate n => do
    byte (base ||| 0x46)
    imm n .u8 operand
  | _ => illegal

def add : List Operand → Emitter Unit
  | [.register .A, x] => accumulate 0x80 1 x
  | [.normalPair .HL, .normalPair p] => byte (0x09 ||| pair (code p))
  | [.indexPair i, .normalPair p] =>
    if p = .HL then illegal else bytes [i.prefixByte, 0x09 ||| pair (code p)]
  | [.indexPair i, .indexPair j] => if i = j then bytes [i.prefixByte, 0x29] else illegal
  | _ => illegal

def withCarry (base pairBase : UInt8) : List Operand → Emitter Unit
  | [.register .A, x] => accumulate base 1 x
  | [.normalPair .HL, .normalPair p] => bytes [0xED, pairBase ||| pair (code p)]
  | _ => illegal

def logic (base : UInt8) : List Operand → Emitter Unit
  | [x] => accumulate base 0 x
  | [.register .A, x] => accumulate base 1 x
  | _ => illegal

def step (base pairBase : UInt8) : List Operand → Emitter Unit
  | [.register r] => byte (base ||| middle (code r))
  | [.normalPair p] => byte (pairBase ||| pair (code p))
  | [.indexPair p] => bytes [p.prefixByte, pairBase ||| 0x20]
  | [.indexHalf k] => bytes [k.pair.prefixByte, base ||| middle k.field]
  | [.address a] => do
    let m ← require a.memory?
    mem m (base ||| 0x30) 0
  | _ => illegal

/-! ## The bit page -/

def target (op : UInt8) (first : Nat) : List Operand → Emitter Unit
  | [.register r] => bytes [0xCB, op ||| code r]
  | [.address a] => do
    let m ← require a.memory?
    bitMem m (op ||| 0x06) first
  | [.address a, .register r] =>
    match a.memory? with
    | some (.indexed p d) => bitIndexed p d (op ||| code r) first
    | _ => illegal
  | _ => illegal

def bit (base : UInt8) : List Operand → Emitter Unit
  | .immediate b :: rest => do
    if !(0 ≤ b.toInt && b.toInt ≤ 7) then reject (.badBitIndex b) 0
    target (base ||| middle (Width.lowByte b)) 1 rest
  | _ => illegal

/-! ## Jumps, calls and returns -/

def jump : List Operand → Emitter Unit
  | [.immediate nn] => do
    byte 0xC3
    word nn 0
  | [.address a] =>
    if a.displacement.isSome then illegal
    else
      match a.base with
      | .normalPair .HL => byte 0xE9
      | .indexPair p => bytes [p.prefixByte, 0xE9]
      | _ => illegal
  | [x, .immediate nn] => do
    let c ← require x.condition?
    byte (0xC2 ||| middle (code c))
    word nn 1
  | _ => illegal

def relative : List Operand → Emitter Unit
  | [.immediate d] => do
    byte 0x18
    imm d .s8 0
  | [x, .immediate d] => do
    let c ← require x.condition?
    if code c > code Condition.C then illegal
    byte (0x20 ||| middle (code c))
    imm d .s8 1
  | _ => illegal

def loop : List Operand → Emitter Unit
  | [.immediate d] => do
    byte 0x10
    imm d .s8 0
  | _ => illegal

def call : List Operand → Emitter Unit
  | [.immediate nn] => do
    byte 0xCD
    word nn 0
  | [x, .immediate nn] => do
    let c ← require x.condition?
    byte (0xC4 ||| middle (code c))
    word nn 1
  | _ => illegal

def ret : List Operand → Emitter Unit
  | [] => byte 0xC9
  | [x] => do
    let c ← require x.condition?
    byte (0xC0 ||| middle (code c))
  | _ => illegal

def restart : List Operand → Emitter Unit
  | [.immediate n] => do
    if n &&& ~~~0x38 ≠ 0 then reject (.badRestart n) 0
    byte (0xC7 ||| Width.lowByte n)
  | _ => illegal

/-! ## Ports and the interrupt mode -/

def interruptMode : List Operand → Emitter Unit
  | [.immediate n] => do
    let op ← if n = 0 then pure 0x46 else if n = 1 then pure 0x56 else if n = 2 then pure 0x5E
      else reject (.badInterruptMode n) 0
    bytes [0xED, op]
  | _ => illegal

def input : List Operand → Emitter Unit
  | [.address a] => if Port.ofAddress? a = some .registerC then bytes [0xED, 0x70] else illegal
  | [.register r, .address a] =>
    match Port.ofAddress? a with
    | some (.immediate n) =>
      if r = .A then do
        byte 0xDB
        imm n .u8 1
      else illegal
    | some .registerC => bytes [0xED, 0x40 ||| middle (code r)]
    | none => illegal
  | _ => illegal

def output : List Operand → Emitter Unit
  | [.address a, .register r] =>
    match Port.ofAddress? a with
    | some (.immediate n) =>
      if r = .A then do
        byte 0xD3
        imm n .u8 0
      else illegal
    | some .registerC => bytes [0xED, 0x41 ||| middle (code r)]
    | none => illegal
  | [.address a, .immediate n] =>
    if n = 0 ∧ Port.ofAddress? a = some .registerC then bytes [0xED, 0x71] else illegal
  | _ => illegal

/-! ## The instruction set -/

/-- The code of a mnemonic. -/
def dispatch (m : Mnemonic) (operands : List Operand) : Emitter Unit :=
  match m with
  | .NOP => fixed operands [0x00]
  | .HALT => fixed operands [0x76]
  | .DAA => fixed operands [0x27]
  | .CPL => fixed operands [0x2F]
  | .CCF => fixed operands [0x3F]
  | .SCF => fixed operands [0x37]
  | .DI => fixed operands [0xF3]
  | .EI => fixed operands [0xFB]
  | .EXX => fixed operands [0xD9]
  | .RLCA => fixed operands [0x07]
  | .RRCA => fixed operands [0x0F]
  | .RLA => fixed operands [0x17]
  | .RRA => fixed operands [0x1F]
  | .NEG => fixed operands [0xED, 0x44]
  | .RETN => fixed operands [0xED, 0x45]
  | .RETI => fixed operands [0xED, 0x4D]
  | .RRD => fixed operands [0xED, 0x67]
  | .RLD => fixed operands [0xED, 0x6F]
  | .LDI => fixed operands [0xED, 0xA0]
  | .CPI => fixed operands [0xED, 0xA1]
  | .INI => fixed operands [0xED, 0xA2]
  | .OUTI => fixed operands [0xED, 0xA3]
  | .LDD => fixed operands [0xED, 0xA8]
  | .CPD => fixed operands [0xED, 0xA9]
  | .IND => fixed operands [0xED, 0xAA]
  | .OUTD => fixed operands [0xED, 0xAB]
  | .LDIR => fixed operands [0xED, 0xB0]
  | .CPIR => fixed operands [0xED, 0xB1]
  | .INIR => fixed operands [0xED, 0xB2]
  | .OUTIR => fixed operands [0xED, 0xB3]
  | .LDDR => fixed operands [0xED, 0xB8]
  | .CPDR => fixed operands [0xED, 0xB9]
  | .INDR => fixed operands [0xED, 0xBA]
  | .OUTDR => fixed operands [0xED, 0xBB]
  | .LD => load operands
  | .PUSH => transfer 0xC5 operands
  | .POP => transfer 0xC1 operands
  | .EX => exchange operands
  | .ADD => add operands
  | .ADC => withCarry 0x88 0x4A operands
  | .SBC => withCarry 0x98 0x42 operands
  | .SUB => logic 0x90 operands
  | .AND => logic 0xA0 operands
  | .XOR => logic 0xA8 operands
  | .OR => logic 0xB0 operands
  | .CP => logic 0xB8 operands
  | .INC => step 0x04 0x03 operands
  | .DEC => step 0x05 0x0B operands
  | .RLC => target 0x00 0 operands
  | .RRC => target 0x08 0 operands
  | .RL => target 0x10 0 operands
  | .RR => target 0x18 0 operands
  | .SLA => target 0x20 0 operands
  | .SRA => target 0x28 0 operands
  | .SRL => target 0x38 0 operands
  | .BIT => bit 0x40 operands
  | .RES => bit 0x80 operands
  | .SET => bit 0xC0 operands
  | .JP => jump operands
  | .JR => relative operands
  | .DJNZ => loop operands
  | .CALL => call operands
  | .RET => ret operands
  | .RST => restart operands
  | .IM => interruptMode operands
  | .IN => input operands
  | .OUT => output operands

end Emitter

/-! ## Encoders from code -/

/-- The encoder that runs the code of a statement's mnemonic in the buffer that it is given. The buffer is
cleared before the operands are looked at, and again if the code fails; the noted overflows are reported only
after a success. -/
def Encoder.running (code : Mnemonic → List Operand → Emitter Unit) : Encoder := fun line s out =>
  let out := out.clear
  match Operand.ofNodes s.operands with
  | .error fault => (.error (s.failure fault.fault), out)
  | .ok operands =>
    match code s.mnemonic operands s ⟨out.bytes, []⟩ with
    | (.error e, d) => (.error e, ({ out with bytes := d.buffer } : Output).clear)
    | (.ok (), d) => (.ok (), ⟨d.buffer, out.reports ++ d.pending.map fun o => ⟨line, .overflow o⟩⟩)

end Z80Asm
