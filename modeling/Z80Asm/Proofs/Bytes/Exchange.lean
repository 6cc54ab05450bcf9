/-
The bytes of the instructions that exchange data with the stack, with other registers and with ports, of the interrupt
modes, and of the instructions that take no operands (`Exchange.Bytes`). A port is a number or what `C` holds, and takes no
displacement. The encoder goes by this table, and a number that is no interrupt mode is rejected as such
(`Encoder.z80_exchange`).
-/
import Z80Asm.Proofs.Assembler.Atomic
import Z80Asm.Proofs.Bytes.Table

namespace Z80Asm

open Vocabulary Width

/-! ## The table -/

namespace Mnemonic

/-- The 34 mnemonics that take no operands, and their bytes. -/
def standalone : List (Mnemonic × List UInt8) :=
  [(.NOP, [0x00]), (.RLCA, [0x07]), (.RRCA, [0x0F]), (.RLA, [0x17]), (.RRA, [0x1F]), (.DAA, [0x27]), (.CPL, [0x2F]),
    (.SCF, [0x37]), (.CCF, [0x3F]), (.HALT, [0x76]), (.EXX, [0xD9]), (.DI, [0xF3]), (.EI, [0xFB]),
    (.NEG, [0xED, 0x44]), (.RETN, [0xED, 0x45]), (.RETI, [0xED, 0x4D]), (.RRD, [0xED, 0x67]), (.RLD, [0xED, 0x6F]),
    (.LDI, [0xED, 0xA0]), (.CPI, [0xED, 0xA1]), (.INI, [0xED, 0xA2]), (.OUTI, [0xED, 0xA3]),
    (.LDD, [0xED, 0xA8]), (.CPD, [0xED, 0xA9]), (.IND, [0xED, 0xAA]), (.OUTD, [0xED, 0xAB]),
    (.LDIR, [0xED, 0xB0]), (.CPIR, [0xED, 0xB1]), (.INIR, [0xED, 0xB2]), (.OUTIR, [0xED, 0xB3]),
    (.LDDR, [0xED, 0xB8]), (.CPDR, [0xED, 0xB9]), (.INDR, [0xED, 0xBA]), (.OUTDR, [0xED, 0xBB])]

/-- The mnemonics of the stack, the exchanges, the ports and the interrupt modes, and those without operands. -/
def ofExchanges : List Mnemonic := [.PUSH, .POP, .EX, .IN, .OUT, .IM] ++ standalone.map Prod.fst

end Mnemonic

/-- What goes to the stack and comes from it, and its bytes, where `q` is the opcode for `BC`. -/
inductive Stack.Bytes (q : UInt8) : Operand → List UInt8 → Prop
  | pair (p : NormalPair) (saved : p ≠ .SP) : Bytes q (.normalPair p) [q + 16 * code p]
  | flags : Bytes q (.specialPair .AF) [q + 0x30]
  | index (i : IndexPair) : Bytes q (.indexPair i) [i.prefixByte, q + 0x20]

/-- The operands of these instructions and their bytes. -/
inductive Exchange.Bytes : Mnemonic → List Operand → List UInt8 → Prop
  -- the stack
  | push {x : Operand} {bs : List UInt8} (stacked : Stack.Bytes 0xC5 x bs) : Bytes .PUSH [x] bs
  | pop {x : Operand} {bs : List UInt8} (stacked : Stack.Bytes 0xC1 x bs) : Bytes .POP [x] bs
  -- the exchanges
  | flags : Bytes .EX [.specialPair .AF, .specialPair .AFShadow] [0x08]
  | pairs : Bytes .EX [.normalPair .DE, .normalPair .HL] [0xEB]
  | top : Bytes .EX [.pointer .SP, .normalPair .HL] [0xE3]
  | topIndex (i : IndexPair) : Bytes .EX [.pointer .SP, .indexPair i] [i.prefixByte, 0xE3]
  -- the ports
  | inFlags : Bytes .IN [.portC] [0xED, 0x70]
  | inNumeric (n : Int32) : Bytes .IN [.register .A, .numeric n none] [0xDB, lowByte n]
  | inRegister (r : Register) : Bytes .IN [.register r, .portC] [0xED, 0x40 + 8 * code r]
  | outNumeric (n : Int32) : Bytes .OUT [.numeric n none, .register .A] [0xD3, lowByte n]
  | outRegister (r : Register) : Bytes .OUT [.portC, .register r] [0xED, 0x41 + 8 * code r]
  | outZero : Bytes .OUT [.portC, .immediate 0] [0xED, 0x71]
  -- the interrupt modes
  | mode0 : Bytes .IM [.immediate 0] [0xED, 0x46]
  | mode1 : Bytes .IM [.immediate 1] [0xED, 0x56]
  | mode2 : Bytes .IM [.immediate 2] [0xED, 0x5E]
  -- no operands
  | standalone {m : Mnemonic} {bs : List UInt8} (opcode : (m, bs) ∈ Mnemonic.standalone) : Bytes m [] bs

/-! ## The table and the rows -/

namespace Mnemonic

theorem exists_implied {m : Mnemonic} {bs : List UInt8} (h : (m, bs) ∈ standalone) :
    ∃ e, m.implied? = some e ∧ e.bytes = bs := by
  have table : ∀ p ∈ standalone, p.1.implied?.map Encoding.bytes = some p.2 := by decide
  exact Option.map_eq_some_iff.1 (table (m, bs) h)

/-- A mnemonic without operands has no fault but that of its operands. -/
theorem rejection_of_standalone {m : Mnemonic} {bs : List UInt8} (h : (m, bs) ∈ standalone) (xs : List Operand) :
    m.rejection xs = .illegalOperands := by
  obtain ⟨e, opcode, -⟩ := exists_implied h
  cases m with
  | LD | BIT | RES | SET | RST | IM => cases opcode
  | _ => rfl

theorem mem_ofExchanges_iff {m : Mnemonic} :
    m ∈ ofExchanges ↔ m ∈ [.PUSH, .POP, .EX, .IN, .OUT, .IM] ∨ ∃ bs, (m, bs) ∈ standalone := by
  rw [ofExchanges, List.mem_append, List.mem_map]
  simp only [Prod.exists, exists_and_right, exists_eq_right]

end Mnemonic

theorem Stack.bytes_iff {q : UInt8} {x : Operand} {bs : List UInt8} :
    Bytes q x bs ↔ ∃ e, Transferred q [x] e ∧ e.bytes = bs := by
  constructor
  · intro h
    cases h with
    | pair p saved => exact ⟨_, .pair p saved, rfl⟩
    | flags => exact ⟨_, .flags, rfl⟩
    | index i => exact ⟨_, .index i, rfl⟩
  · rintro ⟨e, row, rfl⟩
    cases row with
    | pair p saved => exact .pair p saved
    | flags => exact .flags
    | index i => exact .index i

theorem Stack.Transferred.eq_singleton {q : UInt8} {xs : List Operand} {e : Encoding} (h : Transferred q xs e) :
    ∃ x, xs = [x] := by
  cases h <;> exact ⟨_, rfl⟩

namespace Exchange

theorem Bytes.exists_row {m : Mnemonic} {xs : List Operand} {bs : List UInt8} (h : Bytes m xs bs) :
    ∃ e, Row m xs e ∧ e.bytes = bs := by
  cases h with
  | push stacked =>
    obtain ⟨e, row, rfl⟩ := Stack.bytes_iff.1 stacked
    exact ⟨e, .push row, rfl⟩
  | pop stacked =>
    obtain ⟨e, row, rfl⟩ := Stack.bytes_iff.1 stacked
    exact ⟨e, .pop row, rfl⟩
  | flags => exact ⟨_, .exchange .flags, rfl⟩
  | pairs => exact ⟨_, .exchange .pairs, rfl⟩
  | top => exact ⟨_, .exchange .top, rfl⟩
  | topIndex i => exact ⟨_, .exchange (.topIndex i), rfl⟩
  | inFlags => exact ⟨_, .input .flags, rfl⟩
  | inNumeric n => exact ⟨_, .input (.numeric n), rfl⟩
  | inRegister r => exact ⟨_, .input (.register r), rfl⟩
  | outNumeric n => exact ⟨_, .output (.numeric n), rfl⟩
  | outRegister r => exact ⟨_, .output (.register r), rfl⟩
  | outZero => exact ⟨_, .output .zero, rfl⟩
  | mode0 => exact ⟨_, .interruptMode .zero, rfl⟩
  | mode1 => exact ⟨_, .interruptMode .one, rfl⟩
  | mode2 => exact ⟨_, .interruptMode .two, rfl⟩
  | standalone opcode =>
    obtain ⟨e, implied, rfl⟩ := Mnemonic.exists_implied opcode
    exact ⟨e, .implied implied, rfl⟩

theorem bytes_iff {m : Mnemonic} (hm : m ∈ Mnemonic.ofExchanges) {xs : List Operand} {bs : List UInt8} :
    Bytes m xs bs ↔ ∃ e, Row m xs e ∧ e.bytes = bs := by
  refine ⟨Bytes.exists_row, ?_⟩
  rintro ⟨e, row, rfl⟩
  rcases Mnemonic.mem_ofExchanges_iff.1 hm with hm | ⟨bs, opcode⟩
  · simp only [List.mem_cons, List.not_mem_nil, or_false] at hm
    rcases hm with rfl | rfl | rfl | rfl | rfl | rfl
    · have row := Row.push_iff.1 row
      obtain ⟨x, rfl⟩ := row.eq_singleton
      exact .push (Stack.bytes_iff.2 ⟨e, row, rfl⟩)
    · have row := Row.pop_iff.1 row
      obtain ⟨x, rfl⟩ := row.eq_singleton
      exact .pop (Stack.bytes_iff.2 ⟨e, row, rfl⟩)
    · cases Row.exchange_iff.1 row with
      | flags => exact .flags
      | pairs => exact .pairs
      | top => exact .top
      | topIndex i => exact .topIndex i
    · cases Row.input_iff.1 row with
      | flags => exact .inFlags
      | numeric n => exact .inNumeric n
      | register r => exact .inRegister r
    · cases Row.output_iff.1 row with
      | zero => exact .outZero
      | numeric n => exact .outNumeric n
      | register r => exact .outRegister r
    · cases Row.interruptMode_iff.1 row with
      | zero => exact .mode0
      | one => exact .mode1
      | two => exact .mode2
  · -- the one row of a mnemonic without operands
    obtain ⟨f, implied, rfl⟩ := Mnemonic.exists_implied opcode
    obtain ⟨rfl, rfl⟩ := (Row.implied_iff implied).1 row
    exact .standalone opcode

/-- A mnemonic without operands has bytes by itself only. -/
theorem Bytes.eq_nil_of_standalone {m : Mnemonic} {xs : List Operand} {bs cs : List UInt8} (h : Bytes m xs cs)
    (opcode : (m, bs) ∈ Mnemonic.standalone) : xs = [] := by
  obtain ⟨e, row, -⟩ := h.exists_row
  obtain ⟨f, implied, -⟩ := Mnemonic.exists_implied opcode
  exact ((Row.implied_iff implied).1 row).1

/-- A number alone is what `IM` does not take as such; no other operands have a fault of their own. -/
theorem rejection_eq {m : Mnemonic} (hm : m ∈ Mnemonic.ofExchanges) {xs : List Operand}
    (other : ∀ n, m = .IM → xs ≠ [.immediate n]) : m.rejection xs = .illegalOperands := by
  rcases Mnemonic.mem_ofExchanges_iff.1 hm with hm | ⟨bs, opcode⟩
  · simp only [List.mem_cons, List.not_mem_nil, or_false] at hm
    rcases hm with rfl | rfl | rfl | rfl | rfl | rfl
    · rfl
    · rfl
    · rfl
    · rfl
    · rfl
    · rw [Mnemonic.rejection, InterruptMode.rejection]
      exact fun n => other n rfl
  · exact Mnemonic.rejection_of_standalone opcode xs

end Exchange

/-! ## The encoder -/

/-- The encoder, which joins the bits of an opcode, goes by the table of the stack, the exchanges, the ports and the
interrupt modes, and of the mnemonics without operands. A number that is no interrupt mode is rejected as such, at its own
column, and all other operands without bytes are not those of the mnemonic; any operand at all is none of a mnemonic that
takes none. -/
theorem Encoder.z80_exchange (line : Nat) (out : Output) :
    z80 = running Emitter.dispatch ∧
    ∀ s : Statement, s.mnemonic ∈ Mnemonic.ofExchanges → ∀ xs, Operand.ofNodes s.operands = .ok xs →
      (∀ bs, (∃ out', z80 line s out = (.ok (), out') ∧ out'.bytes = bs) ↔ Exchange.Bytes s.mnemonic xs bs) ∧
      (∀ n, s.mnemonic = .IM → xs = [.immediate n] → n ∉ [0, 1, 2] →
        z80 line s out = (.error ⟨.IM, .badInterruptMode n, s.columnOf 0⟩, out.clear)) ∧
      ((∀ bs, ¬Exchange.Bytes s.mnemonic xs bs) → (∀ n, s.mnemonic = .IM → xs ≠ [.immediate n]) →
        z80 line s out = (.error ⟨s.mnemonic, .illegalOperands, s.column⟩, out.clear)) ∧
      (s.mnemonic ∈ Mnemonic.standalone.map Prod.fst → xs ≠ [] →
        z80 line s out = (.error ⟨s.mnemonic, .illegalOperands, s.column⟩, out.clear)) := by
  refine ⟨running_dispatch.symm, fun s hm xs hxs => ?_⟩
  obtain ⟨written, rejected⟩ := z80_of_table line out hxs fun bs => Exchange.bytes_iff hm
  refine ⟨written, ?_, fun none other => rejected (Exchange.rejection_eq hm other) none, ?_⟩
  · rintro n hs rfl noMode
    have fault : s.mnemonic.rejection [.immediate n] = .badInterruptMode n := by
      rw [hs]
      rfl
    rw [rejected fault, Statement.failure, hs]
    · rfl
    · rw [hs]
      intro bs h
      cases h <;> exact noMode (by decide)
  · intro alone some
    obtain ⟨bs, opcode⟩ : ∃ bs, (s.mnemonic, bs) ∈ Mnemonic.standalone := by simpa using alone
    refine rejected (Mnemonic.rejection_of_standalone opcode xs) fun cs h => ?_
    exact some (h.eq_nil_of_standalone opcode)

/-- `OUT (C),0` has its bytes, `IM 3` a number that is no mode; `EX (SP),DE` and `HALT` with an operand have no bytes. -/
theorem Encoder.z80_exchange_zero :
    (∃ out', z80 1 ⟨.OUT, 0, [Operand.portC.node, (Operand.immediate 0).node]⟩ .empty = (.ok (), out') ∧
      out'.bytes = [0xED, 0x71]) ∧
    z80 1 ⟨.IM, 0, [.leaf (.immediate 3) 3]⟩ .empty = (.error ⟨.IM, .badInterruptMode 3, 3⟩, .empty) ∧
    z80 1 ⟨.EX, 0, [(Operand.pointer .SP).node, (Operand.normalPair .DE).node]⟩ .empty =
      (.error ⟨.EX, .illegalOperands, 0⟩, .empty) ∧
    z80 1 ⟨.HALT, 0, [(Operand.register .A).node]⟩ .empty = (.error ⟨.HALT, .illegalOperands, 0⟩, .empty) := by
  obtain ⟨-, table⟩ := z80_exchange 1 .empty
  refine ⟨?_, ?_, ?_, ?_⟩
  · exact ((table _ (by decide) _ rfl).1 _).2 .outZero
  · exact (table _ (by decide) _ rfl).2.1 3 rfl rfl (by decide)
  · exact (table _ (by decide) _ rfl).2.2.1 nofun nofun
  · exact (table _ (by decide) _ rfl).2.2.2 (by decide) nofun

end Z80Asm
