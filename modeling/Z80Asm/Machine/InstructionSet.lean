/-
The instruction set: which operands each mnemonic takes, and the encoding for them.
-/
import Z80Asm.Machine.Load
import Z80Asm.Machine.Arithmetic
import Z80Asm.Machine.BitPage
import Z80Asm.Machine.Branch
import Z80Asm.Machine.Stack
import Z80Asm.Machine.Port

namespace Z80Asm.Mnemonic

/-- The encoding of a mnemonic that takes no operands. -/
def implied? : Mnemonic → Option Encoding
  | .NOP => some (.main 0x00)
  | .RLCA => some (.main 0x07)
  | .RRCA => some (.main 0x0F)
  | .RLA => some (.main 0x17)
  | .RRA => some (.main 0x1F)
  | .DAA => some (.main 0x27)
  | .CPL => some (.main 0x2F)
  | .SCF => some (.main 0x37)
  | .CCF => some (.main 0x3F)
  | .HALT => some (.main 0x76)
  | .EXX => some (.main 0xD9)
  | .DI => some (.main 0xF3)
  | .EI => some (.main 0xFB)
  | .NEG => some (.extended 0x44)
  | .RETN => some (.extended 0x45)
  | .RETI => some (.extended 0x4D)
  | .RRD => some (.extended 0x67)
  | .RLD => some (.extended 0x6F)
  | .LDI => some (.extended 0xA0)
  | .CPI => some (.extended 0xA1)
  | .INI => some (.extended 0xA2)
  | .OUTI => some (.extended 0xA3)
  | .LDD => some (.extended 0xA8)
  | .CPD => some (.extended 0xA9)
  | .IND => some (.extended 0xAA)
  | .OUTD => some (.extended 0xAB)
  | .LDIR => some (.extended 0xB0)
  | .CPIR => some (.extended 0xB1)
  | .INIR => some (.extended 0xB2)
  | .OUTIR => some (.extended 0xB3)
  | .LDDR => some (.extended 0xB8)
  | .CPDR => some (.extended 0xB9)
  | .INDR => some (.extended 0xBA)
  | .OUTDR => some (.extended 0xBB)
  | _ => none

/-- The encoding of a mnemonic with its operands. -/
def encode (m : Mnemonic) (operands : List Operand) : Except Fault Encoding :=
  match m with
  | .LD => Load.encode operands
  | .PUSH => Fault.orIllegal (Stack.push? operands)
  | .POP => Fault.orIllegal (Stack.pop? operands)
  | .EX => Fault.orIllegal (Stack.exchange? operands)
  | .ADD => Fault.orIllegal (Alu.ADD.encode? operands)
  | .ADC => Fault.orIllegal (Alu.ADC.encode? operands)
  | .SUB => Fault.orIllegal (Alu.SUB.encode? operands)
  | .SBC => Fault.orIllegal (Alu.SBC.encode? operands)
  | .AND => Fault.orIllegal (Alu.AND.encode? operands)
  | .XOR => Fault.orIllegal (Alu.XOR.encode? operands)
  | .OR => Fault.orIllegal (Alu.OR.encode? operands)
  | .CP => Fault.orIllegal (Alu.CP.encode? operands)
  | .INC => Fault.orIllegal (Step.INC.encode? operands)
  | .DEC => Fault.orIllegal (Step.DEC.encode? operands)
  | .RLC => Fault.orIllegal (Rotation.RLC.encode? operands)
  | .RRC => Fault.orIllegal (Rotation.RRC.encode? operands)
  | .RL => Fault.orIllegal (Rotation.RL.encode? operands)
  | .RR => Fault.orIllegal (Rotation.RR.encode? operands)
  | .SLA => Fault.orIllegal (Rotation.SLA.encode? operands)
  | .SRA => Fault.orIllegal (Rotation.SRA.encode? operands)
  | .SRL => Fault.orIllegal (Rotation.SRL.encode? operands)
  | .BIT => BitAccess.BIT.encode operands
  | .RES => BitAccess.RES.encode operands
  | .SET => BitAccess.SET.encode operands
  | .JP => Fault.orIllegal (Branch.jump? operands)
  | .JR => Fault.orIllegal (Branch.relative? operands)
  | .DJNZ => Fault.orIllegal (Branch.loop? operands)
  | .CALL => Fault.orIllegal (Branch.call? operands)
  | .RET => Fault.orIllegal (Branch.return? operands)
  | .RST => Branch.restart operands
  | .IN => Fault.orIllegal (Port.input? operands)
  | .OUT => Fault.orIllegal (Port.output? operands)
  | .IM => InterruptMode.encode operands
  | _ =>
    match m.implied?, operands with
    | some e, [] => .ok e
    | _, _ => .error .illegalOperands

end Z80Asm.Mnemonic
