/-
The instruction names. A mnemonic's code is only its place in the table; the opcodes are in
`Z80Asm.Machine`.
-/
import Z80Asm.Vocabulary.Basic

namespace Z80Asm

/-- The instruction names. -/
inductive Mnemonic
  | LD | PUSH | POP | EX | EXX | LDI | LDIR | LDD | LDDR | CPI | CPIR | CPD | CPDR | ADD | ADC | SUB | SBC | AND
  | OR | XOR | INC | DEC | DAA | CPL | NEG | CCF | SCF | NOP | HALT | DI | EI | IM | RLCA | RLA | RRCA | RRA
  | RLC | RL | RRC | RR | SLA | SRA | SRL | RLD | RRD | BIT | SET | RES | JP | JR | DJNZ | CALL | RET | RETI
  | RETN | RST | IN | INI | INIR | IND | INDR | OUT | OUTI | OUTIR | OUTD | OUTDR | CP
  deriving DecidableEq, Repr

namespace Mnemonic

/-- The table of instruction names. -/
def table : List Mnemonic :=
  [.LD, .PUSH, .POP, .EX, .EXX, .LDI, .LDIR, .LDD, .LDDR, .CPI, .CPIR, .CPD, .CPDR, .ADD, .ADC, .SUB, .SBC,
    .AND, .OR, .XOR, .INC, .DEC, .DAA, .CPL, .NEG, .CCF, .SCF, .NOP, .HALT, .DI, .EI, .IM, .RLCA, .RLA, .RRCA,
    .RRA, .RLC, .RL, .RRC, .RR, .SLA, .SRA, .SRL, .RLD, .RRD, .BIT, .SET, .RES, .JP, .JR, .DJNZ, .CALL, .RET,
    .RETI, .RETN, .RST, .IN, .INI, .INIR, .IND, .INDR, .OUT, .OUTI, .OUTIR, .OUTD, .OUTDR, .CP]

instance : Vocabulary Mnemonic where
  all := table
  name
    | .LD => "LD" | .PUSH => "PUSH" | .POP => "POP" | .EX => "EX" | .EXX => "EXX" | .LDI => "LDI"
    | .LDIR => "LDIR" | .LDD => "LDD" | .LDDR => "LDDR" | .CPI => "CPI" | .CPIR => "CPIR" | .CPD => "CPD"
    | .CPDR => "CPDR" | .ADD => "ADD" | .ADC => "ADC" | .SUB => "SUB" | .SBC => "SBC" | .AND => "AND"
    | .OR => "OR" | .XOR => "XOR" | .INC => "INC" | .DEC => "DEC" | .DAA => "DAA" | .CPL => "CPL"
    | .NEG => "NEG" | .CCF => "CCF" | .SCF => "SCF" | .NOP => "NOP" | .HALT => "HALT" | .DI => "DI"
    | .EI => "EI" | .IM => "IM" | .RLCA => "RLCA" | .RLA => "RLA" | .RRCA => "RRCA" | .RRA => "RRA"
    | .RLC => "RLC" | .RL => "RL" | .RRC => "RRC" | .RR => "RR" | .SLA => "SLA" | .SRA => "SRA" | .SRL => "SRL"
    | .RLD => "RLD" | .RRD => "RRD" | .BIT => "BIT" | .SET => "SET" | .RES => "RES" | .JP => "JP" | .JR => "JR"
    | .DJNZ => "DJNZ" | .CALL => "CALL" | .RET => "RET" | .RETI => "RETI" | .RETN => "RETN" | .RST => "RST"
    | .IN => "IN" | .INI => "INI" | .INIR => "INIR" | .IND => "IND" | .INDR => "INDR" | .OUT => "OUT"
    | .OUTI => "OUTI" | .OUTIR => "OUTIR" | .OUTD => "OUTD" | .OUTDR => "OUTDR" | .CP => "CP"
  code m := UInt8.ofNat (table.idxOf m)

/-- The value of an upper-case word: a name of the table, or one of the two spellings `OTIR` and
`OTDR` that stand beside `OUTIR` and `OUTDR`. -/
def lookup? (word : String) : Option Mnemonic :=
  match Vocabulary.find? word with
  | some m => some m
  | none => if word = "OTIR" then some .OUTIR else if word = "OTDR" then some .OUTDR else none

end Mnemonic

end Z80Asm
