/-
Which bytes an instruction begins with. An index register among its words puts the prefix of that register in front, the
mnemonic and the kinds of its operands decide the page (`Mnemonic.page`), and no opcode looks like the byte of a prefix or
a page (`Encoder.z80_page`).
-/
import Z80Asm.Proofs.Index.Words
import Z80Asm.Proofs.OpcodeMap.Disassemble

namespace Z80Asm

/-! ## Pages -/

/-- The page of an instruction. The pairs, the special registers and the port in `C` have opcodes on the extended page,
beside those that take the place of `HL` or of the accumulator on the main page. -/
def Mnemonic.page (m : Mnemonic) (xs : List Operand) : Page :=
  match m with
  | .RLC | .RRC | .RL | .RR | .SLA | .SRA | .SRL | .BIT | .RES | .SET => .bit
  | .NEG | .RETN | .RETI | .RRD | .RLD | .IM
  | .LDI | .LDIR | .LDD | .LDDR | .CPI | .CPIR | .CPD | .CPDR
  | .INI | .INIR | .IND | .INDR | .OUTI | .OUTIR | .OUTD | .OUTDR => .extended
  | .ADC | .SBC =>
    match xs with
    | [.normalPair .HL, .normalPair _] => .extended
    | _ => .main
  | .LD =>
    match xs with
    | [.register .A, .specialRegister _] | [.specialRegister _, .register .A] => .extended
    | [.normalPair p, .address ⟨.immediate _, _⟩] | [.address ⟨.immediate _, _⟩, .normalPair p] =>
      if p = .HL then .main else .extended
    | _ => .main
  | .IN | .OUT => if xs.contains .portC then .extended else .main
  | _ => .main

theorem Load.Row.page_eq {xs : List Operand} {e : Encoding} (h : Row xs e) : e.page = Mnemonic.LD.page xs := by
  cases h with
  | pairFromNumeric p nn d long => exact (if_neg long).symm
  | pairToNumeric p nn d long => exact (if_neg long).symm
  | register r | number r | fromHL r | fromIndexed r | fromHalf r => cases r <;> rfl
  | _ => rfl

theorem Alu.Row.page_eq {op : Alu} {xs : List Operand} {e : Encoding} (h : Row op xs e) : e.page = op.mnemonic.page xs := by
  cases h with
  | short implicit source => cases source <;> cases op <;> rfl
  | long source => cases source <;> cases op <;> rfl
  | _ => rfl

theorem Row.page_eq {m : Mnemonic} {xs : List Operand} {e : Encoding} (h : Row m xs e) : e.page = m.page xs := by
  cases h with
  | load row => exact row.page_eq
  | alu op row => exact row.page_eq
  | step s row => cases row <;> cases s <;> rfl
  | rotation r row => cases row <;> cases r <;> rfl
  | bit b row =>
    obtain ⟨-, row⟩ := row
    cases row <;> cases b <;> rfl
  | jump row =>
    cases row with
    | absolute row => cases row <;> rfl
    | _ => rfl
  | @implied m e opcode => cases m <;> cases opcode <;> rfl
  | _ row => cases row <;> rfl

/-- The mnemonics of the bit page. -/
def Mnemonic.ofBits : List Mnemonic := [.RLC, .RRC, .RL, .RR, .SLA, .SRA, .SRL, .BIT, .RES, .SET]

theorem Mnemonic.page_eq_bit_iff {m : Mnemonic} {xs : List Operand} : m.page xs = .bit ↔ m ∈ ofBits := by
  cases m with
  | LD | ADC | SBC | IN | OUT =>
    -- their operands choose between the other two pages
    refine ⟨fun h => ?_, fun h => absurd h (by decide)⟩
    simp only [page] at h
    split at h
    all_goals first | cases h | (split at h <;> cases h)
  | _ => simp [page, ofBits]

/-- There are no index registers on the extended page. -/
theorem Cell.index_of_extended {c : Cell} {form : Form} (h : c.form? = some form) (hp : c.page = .extended) :
    c.index = none := by
  have empty (i : IndexPair) : ∀ n < 256, form? ⟨some i, .extended, .ofNat n⟩ = none := by cases i <;> decide +kernel
  obtain ⟨index, page, opcode⟩ := c
  obtain rfl : page = .extended := hp
  cases index with
  | none => rfl
  | some i =>
    have hlt : opcode.toNat < 256 := opcode.toNat_lt
    rw [← UInt8.ofNat_toNat (x := opcode), empty i _ hlt] at h
    cases h

/-! ## Leading bytes -/

/-- The byte that an encoding begins with: that of its prefix, or else of its page, or else its opcode. -/
theorem Encoding.head?_bytes (e : Encoding) :
    e.bytes.head? = some ((e.index.map IndexPair.prefixByte).getD (e.page.bytes.head?.getD e.opcode)) := by
  obtain ⟨index, page, opcode, displacement, data⟩ := e
  cases index <;> cases page <;> rfl

namespace Row

variable {m : Mnemonic} {xs : List Operand} {e : Encoding}

/-- No opcode of the main page looks like the byte of a prefix or a page. -/
theorem opcode_ne (h : Row m xs e) (hp : e.page = .main) :
    e.opcode ≠ 0xCB ∧ e.opcode ≠ 0xDD ∧ e.opcode ≠ 0xED ∧ e.opcode ≠ 0xFD := Cell.opcode_of_form? h.form?_cell hp

theorem head?_eq_prefixByte_iff (h : Row m xs e) (i : IndexPair) :
    e.bytes.head? = some i.prefixByte ↔ e.index = some i := by
  rw [Encoding.head?_bytes, Option.some.injEq]
  cases hi : e.index with
  | some j => cases i <;> cases j <;> simp [IndexPair.prefixByte]
  | none =>
    cases hp : e.page with
    | main =>
      obtain ⟨-, notDD, -, notFD⟩ := h.opcode_ne hp
      cases i <;> simpa [Page.bytes, IndexPair.prefixByte]
    | _ => cases i <;> simp [Page.bytes, IndexPair.prefixByte]

theorem head?_eq_extended_iff (h : Row m xs e) : e.bytes.head? = some 0xED ↔ e.page = .extended := by
  rw [Encoding.head?_bytes, Option.some.injEq]
  cases hp : e.page with
  | extended =>
    have plain : e.index = none := Cell.index_of_extended h.form?_cell hp
    simp [plain, Page.bytes]
  | bit => rcases e.index with _ | _ | _ <;> simp [Page.bytes, IndexPair.prefixByte]
  | main =>
    obtain ⟨-, -, notED, -⟩ := h.opcode_ne hp
    rcases e.index with _ | _ | _ <;> simp [Page.bytes, IndexPair.prefixByte, notED]

theorem bit_iff (h : Row m xs e) :
    (e.bytes.head? = some 0xCB ∨ [0xDD, 0xCB] <+: e.bytes ∨ [0xFD, 0xCB] <+: e.bytes) ↔ e.page = .bit := by
  cases hp : e.page with
  | main =>
    obtain ⟨notCB, notDD, -, notFD⟩ := h.opcode_ne hp
    rcases hi : e.index with _ | _ | _ <;>
      simp [Encoding.bytes, hp, hi, Page.bytes, IndexPair.prefixByte, notCB, notDD.symm, notFD.symm, notCB.symm]
  | _ => rcases hi : e.index with _ | _ | _ <;> simp [Encoding.bytes, hp, hi, Page.bytes, IndexPair.prefixByte]

end Row

/-! ## The encoder -/

/-- The bytes of an encoded statement begin with the prefix of the index register among its words, of which there is one
at most; with the byte of the extended page exactly if the statement is one of that page; and with the byte of the bit
page, maybe behind a prefix, exactly if its mnemonic is one of that page. -/
theorem Encoder.z80_page {line : Nat} {s : Statement} {out out' : Output} (h : z80 line s out = (.ok (), out')) :
    (out'.bytes.head? = some 0xDD ↔ ∃ w ∈ s.words, w.index? = some .IX) ∧
    (out'.bytes.head? = some 0xFD ↔ ∃ w ∈ s.words, w.index? = some .IY) ∧
    ¬((∃ w ∈ s.words, w.index? = some .IX) ∧ ∃ w ∈ s.words, w.index? = some .IY) ∧
    (∃ xs, Operand.ofNodes s.operands = .ok xs ∧
      (out'.bytes.head? = some 0xED ↔ s.mnemonic.page xs = .extended)) ∧
    ((out'.bytes.head? = some 0xCB ∨ [0xDD, 0xCB] <+: out'.bytes ∨ [0xFD, 0xCB] <+: out'.bytes) ↔
      s.mnemonic ∈ Mnemonic.ofBits) := by
  obtain ⟨e, he, rfl⟩ := encoding_of_z80 h
  obtain ⟨xs, hxs, row⟩ := Statement.encoding_eq_ok_iff.1 he
  rw [Statement.words_eq hxs]
  refine ⟨?_, ?_, ?_, ⟨xs, hxs, ?_⟩, ?_⟩
  · exact (row.head?_eq_prefixByte_iff .IX).trans (row.names.index .IX).symm
  · exact (row.head?_eq_prefixByte_iff .IY).trans (row.names.index .IY).symm
  · rintro ⟨⟨v, hv, first⟩, w, hw, second⟩
    exact row.not_mixed (.both hv hw first second)
  · rw [← row.page_eq]
    exact row.head?_eq_extended_iff
  · rw [row.bit_iff, row.page_eq]
    exact Mnemonic.page_eq_bit_iff

/-- `BIT 7,(IY-1)`. -/
def Statement.testIndexed : Statement := ⟨.BIT, 0, [(Operand.immediate 7).node, (Operand.indexed .IY (some (-1))).node]⟩

/-- The bit page stands behind the prefix of its index register. -/
theorem Encoder.z80_page_indexed : ∃ out', z80 1 .testIndexed .empty = (.ok (), out') ∧
    out'.bytes = [0xFD, 0xCB, 0xFF, 0x7E] ∧ (∃ w ∈ Statement.testIndexed.words, w.index? = some .IY) ∧
    Statement.testIndexed.mnemonic ∈ Mnemonic.ofBits := by
  have h : z80 1 .testIndexed .empty = (.ok (), ⟨[0xFD, 0xCB, 0xFF, 0x7E], []⟩) := rfl
  obtain ⟨-, named, -, -, bit⟩ := z80_page h
  exact ⟨_, h, rfl, named.1 rfl, bit.1 (.inr (.inr ⟨_, rfl⟩))⟩

end Z80Asm
