import Z80Asm.Main
import Z80Asm.Proofs.Table.Load
import Z80Asm.Proofs.Table.Arithmetic
import Z80Asm.Proofs.Table.BitPage
import Z80Asm.Proofs.Table.Branch
import Z80Asm.Proofs.Table.Exchange
import Z80Asm.Proofs.Table.Instruction
import Z80Asm.Proofs.Field.Feed
import Z80Asm.Proofs.Field.Residue
import Z80Asm.Proofs.OpcodeMap.Cell
import Z80Asm.Proofs.Field.Alike
import Z80Asm.Proofs.Assembler.Statement
import Z80Asm.Proofs.Assembler.Overflow
import Z80Asm.Proofs.Assembler.Congruence
import Z80Asm.Proofs.OpcodeMap.Canonical
import Z80Asm.Proofs.OpcodeMap.Form
import Z80Asm.Proofs.OpcodeMap.Disassemble
import Z80Asm.Proofs.OpcodeMap.Documented
import Z80Asm.Proofs.Assembler.Atomic
import Z80Asm.Proofs.Assembler.Assertion
import Z80Asm.Proofs.Assembler.Session
import Z80Asm.Proofs.Assembler.Append
import Z80Asm.Proofs.Assembler.Policy
import Z80Asm.Proofs.Cli.Assemble
import Z80Asm.Proofs.Token.Numeral
import Z80Asm.Proofs.Token.Tiling
import Z80Asm.Proofs.Statement.Columns
import Z80Asm.Proofs.Statement.Source
import Z80Asm.Proofs.Assembler.LetterCase
import Z80Asm.Proofs.Index.Swap
import Z80Asm.Proofs.Index.Memory
import Z80Asm.Proofs.Index.Words
import Z80Asm.Proofs.OpcodeMap.Page
import Z80Asm.Proofs.Index.Prefix
import Z80Asm.Proofs.Statement.Sentence
import Z80Asm.Proofs.Bytes.Table
import Z80Asm.Proofs.Bytes.Load
import Z80Asm.Proofs.Bytes.Arithmetic
import Z80Asm.Proofs.Bytes.BitPage
import Z80Asm.Proofs.Bytes.Branch
import Z80Asm.Proofs.Bytes.Exchange
import Z80Asm.Proofs.Bytes.Mirror
import Z80Asm.Proofs.Bytes.Checked
import Z80Asm.Proofs.Assembler.Condition
import Z80Asm.Proofs.Token.Lexeme
import Z80Asm.Proofs.Statement.FailFast
import Z80Asm.Proofs.Token.Split
import Z80Asm.Proofs.Token.Positional
import Z80Asm.Proofs.Assembler.Conversion
import Z80Asm.Proofs.Statement.Dump
import Z80Asm.Proofs.Assembler.Render
import Z80Asm.Proofs.Vocabulary.Precedence
import Z80Asm.Proofs.Assembler.Place
