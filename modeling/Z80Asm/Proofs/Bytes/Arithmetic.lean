/-
The bytes of the arithmetic and logic instructions. The eight operations on the accumulator take the same operands, to
bytes that differ in the number of the operation alone (`Alu.Combined`); pairs and the steps by one have tables of their
own. The encoder goes by these tables (`Encoder.z80_arithmetic`), and an operation that may leave the accumulator out does
the same with it and without it (`Encoder.worded_implicit`).
-/
import Z80Asm.Proofs.Assembler.Atomic
import Z80Asm.Proofs.Assembler.Overflow
import Z80Asm.Proofs.Bytes.Table

namespace Z80Asm

open Vocabulary Width

/-! ## The table -/

namespace Alu

/-- The operations on the accumulator and their numbers. -/
def numbered : List (Mnemonic × UInt8) :=
  [(.ADD, 0), (.ADC, 1), (.SUB, 2), (.SBC, 3), (.AND, 4), (.XOR, 5), (.OR, 6), (.CP, 7)]

/-- The operations that may leave out the accumulator. -/
def implicit : List Mnemonic := [.SUB, .AND, .XOR, .OR, .CP]

/-- What the operation with the number `k` combines the accumulator with, and its bytes. -/
inductive Combined (k : UInt8) : Operand → List UInt8 → Prop
  | register (r : Register) : Combined k (.register r) [0x80 + 8 * k + code r]
  | half (h : IndexHalf) : Combined k (.indexHalf h) [h.pair.prefixByte, 0x80 + 8 * k + h.number]
  | hl : Combined k .hl [0x86 + 8 * k]
  | indexed (i : IndexPair) (d : Option Int32) :
    Combined k (.indexed i d) [i.prefixByte, 0x86 + 8 * k, lowByte (d.getD 0)]
  | number (n : Int32) : Combined k (.immediate n) [0xC6 + 8 * k, lowByte n]

end Alu

/-- What a step by one changes, and its bytes; `byte` is the opcode for `B`, and `pair` that for `BC`. -/
inductive Step.Stepped (byte pair : UInt8) : Operand → List UInt8 → Prop
  | register (r : Register) : Stepped byte pair (.register r) [byte + 8 * Vocabulary.code r]
  | half (h : IndexHalf) : Stepped byte pair (.indexHalf h) [h.pair.prefixByte, byte + 8 * h.number]
  | hl : Stepped byte pair .hl [byte + 0x30]
  | indexed (i : IndexPair) (d : Option Int32) :
    Stepped byte pair (.indexed i d) [i.prefixByte, byte + 0x30, lowByte (d.getD 0)]
  | pair (p : NormalPair) : Stepped byte pair (.normalPair p) [pair + 16 * Vocabulary.code p]
  | index (i : IndexPair) : Stepped byte pair (.indexPair i) [i.prefixByte, pair + 0x20]

/-- The mnemonics of the arithmetic and logic instructions. -/
def Mnemonic.ofArithmetic : List Mnemonic := [.ADD, .ADC, .SUB, .SBC, .AND, .XOR, .OR, .CP, .INC, .DEC]

/-- The operands of the arithmetic and logic instructions and their bytes. -/
inductive Arithmetic.Bytes : Mnemonic → List Operand → List UInt8 → Prop
  -- operations on the accumulator
  | long {m : Mnemonic} {k : UInt8} (number : (m, k) ∈ Alu.numbered) {x : Operand} {bs : List UInt8}
    (combined : Alu.Combined k x bs) : Bytes m [.register .A, x] bs
  | short {m : Mnemonic} {k : UInt8} (number : (m, k) ∈ Alu.numbered) (implicit : m ∈ Alu.implicit) {x : Operand}
    {bs : List UInt8} (combined : Alu.Combined k x bs) : Bytes m [x] bs
  -- operations on pairs
  | addPair (p : NormalPair) : Bytes .ADD [.normalPair .HL, .normalPair p] [0x09 + 16 * code p]
  | addToIndex (i : IndexPair) (p : NormalPair) (other : p ≠ .HL) :
    Bytes .ADD [.indexPair i, .normalPair p] [i.prefixByte, 0x09 + 16 * code p]
  | addSelf (i : IndexPair) : Bytes .ADD [.indexPair i, .indexPair i] [i.prefixByte, 0x29]
  | adcPair (p : NormalPair) : Bytes .ADC [.normalPair .HL, .normalPair p] [0xED, 0x4A + 16 * code p]
  | sbcPair (p : NormalPair) : Bytes .SBC [.normalPair .HL, .normalPair p] [0xED, 0x42 + 16 * code p]
  -- steps by one
  | inc {x : Operand} {bs : List UInt8} (stepped : Step.Stepped 0x04 0x03 x bs) : Bytes .INC [x] bs
  | dec {x : Operand} {bs : List UInt8} (stepped : Step.Stepped 0x05 0x0B x bs) : Bytes .DEC [x] bs

/-! ## Operations on the accumulator -/

namespace Alu

theorem mem_numbered (op : Alu) : (op.mnemonic, op.row) ∈ numbered := by cases op <;> decide

theorem exists_of_mem_numbered {m : Mnemonic} {k : UInt8} (h : (m, k) ∈ numbered) :
    ∃ op : Alu, m = op.mnemonic ∧ k = op.row := by
  simp only [numbered, List.mem_cons, Prod.mk.injEq, List.not_mem_nil, or_false] at h
  rcases h with ⟨rfl, rfl⟩ | ⟨rfl, rfl⟩ | ⟨rfl, rfl⟩ | ⟨rfl, rfl⟩ | ⟨rfl, rfl⟩ | ⟨rfl, rfl⟩ | ⟨rfl, rfl⟩ | ⟨rfl, rfl⟩
  · exact ⟨.ADD, rfl, rfl⟩
  · exact ⟨.ADC, rfl, rfl⟩
  · exact ⟨.SUB, rfl, rfl⟩
  · exact ⟨.SBC, rfl, rfl⟩
  · exact ⟨.AND, rfl, rfl⟩
  · exact ⟨.XOR, rfl, rfl⟩
  · exact ⟨.OR, rfl, rfl⟩
  · exact ⟨.CP, rfl, rfl⟩

theorem mem_ofArithmetic {m : Mnemonic} {k : UInt8} (h : (m, k) ∈ numbered) : m ∈ Mnemonic.ofArithmetic := by
  have subset : numbered.map Prod.fst ⊆ Mnemonic.ofArithmetic := by decide
  exact subset (List.mem_map_of_mem h)

theorem implicit_subset : implicit ⊆ Mnemonic.ofArithmetic := by decide

theorem mem_implicit_iff {op : Alu} : op.mnemonic ∈ implicit ↔ op.namesTarget = false := by cases op <;> decide

/-- Every operation takes the operands of every other. -/
theorem Combined.exists_bytes {k : UInt8} {x : Operand} {bs : List UInt8} (h : Combined k x bs) (j : UInt8) :
    ∃ cs, Combined j x cs := by
  cases h with
  | register r => exact ⟨_, .register r⟩
  | half h => exact ⟨_, .half h⟩
  | hl => exact ⟨_, .hl⟩
  | indexed i d => exact ⟨_, .indexed i d⟩
  | number n => exact ⟨_, .number n⟩

theorem combined_iff {op : Alu} (i : Nat) {x : Operand} {bs : List UInt8} :
    Combined op.row x bs ↔ ∃ e, Source op i x e ∧ e.bytes = bs := by
  constructor
  · intro h
    cases h with
    | register r => exact ⟨_, .register r, rfl⟩
    | half h => exact ⟨_, .half h, by rw [h.number_eq]; rfl⟩
    | hl => exact ⟨_, .hl, rfl⟩
    | indexed i d => exact ⟨_, .indexed i d, rfl⟩
    | number n => exact ⟨_, .number n, rfl⟩
  · rintro ⟨e, source, rfl⟩
    cases source with
    | register r => exact .register r
    | half h => exact h.number_eq ▸ .half h
    | hl => exact .hl
    | indexed i d => exact .indexed i d
    | number n => exact .number n

theorem Row.toBytes {op : Alu} {xs : List Operand} {e : Encoding} (h : Row op xs e) :
    Arithmetic.Bytes op.mnemonic xs e.bytes := by
  cases h with
  | long source => exact .long op.mem_numbered ((combined_iff 1).2 ⟨e, source, rfl⟩)
  | short named source =>
    exact .short op.mem_numbered (mem_implicit_iff.2 named) ((combined_iff 0).2 ⟨e, source, rfl⟩)
  | addPair p => exact .addPair p
  | addToIndex i p other => exact .addToIndex i p other
  | addSelf i => exact .addSelf i
  | adcPair p => exact .adcPair p
  | sbcPair p => exact .sbcPair p

end Alu

/-! ## Steps by one -/

namespace Step

/-- The opcodes of the two steps for `B` and for `BC`. -/
theorem stepped_iff {s : Step} {x : Operand} {bs : List UInt8} :
    Stepped (0x04 + s.code) (0x03 + 8 * s.code) x bs ↔ ∃ e, Row s [x] e ∧ e.bytes = bs := by
  have memory : 0x04 + s.code + 0x30 = 0x34 + s.code := by cases s <;> rfl
  have index : 0x03 + 8 * s.code + 0x20 = 0x23 + 8 * s.code := by cases s <;> rfl
  constructor
  · intro h
    cases h with
    | register r => exact ⟨_, .register r, rfl⟩
    | half h => exact ⟨_, .half h, by rw [h.number_eq]; rfl⟩
    | hl => exact ⟨_, .hl, by rw [memory]; rfl⟩
    | indexed i d => exact ⟨_, .indexed i d, by rw [memory]; rfl⟩
    | pair p => exact ⟨_, .pair p, rfl⟩
    | index i => exact ⟨_, .index i, by rw [index]; rfl⟩
  · rintro ⟨e, row, rfl⟩
    cases row with
    | register r => exact .register r
    | half h => exact h.number_eq ▸ .half h
    | hl => exact memory ▸ .hl
    | indexed i d => exact memory ▸ .indexed i d
    | pair p => exact .pair p
    | index i => exact index ▸ .index i

end Step

theorem Step.Row.toBytes {s : Step} {xs : List Operand} {e : Encoding} (h : Row s xs e) :
    Arithmetic.Bytes s.mnemonic xs e.bytes := by
  obtain ⟨x, rfl⟩ : ∃ x, xs = [x] := by cases h <;> exact ⟨_, rfl⟩
  have stepped := Step.stepped_iff.2 ⟨e, h, rfl⟩
  cases s with
  | INC => exact .inc stepped
  | DEC => exact .dec stepped

/-! ## The table and the rows -/

namespace Arithmetic

theorem exists_of_mem {m : Mnemonic} (h : m ∈ Mnemonic.ofArithmetic) :
    (∃ op : Alu, m = op.mnemonic) ∨ ∃ s : Step, m = s.mnemonic := by
  simp only [Mnemonic.ofArithmetic, List.mem_cons, List.not_mem_nil, or_false] at h
  rcases h with rfl | rfl | rfl | rfl | rfl | rfl | rfl | rfl | rfl | rfl
  · exact .inl ⟨.ADD, rfl⟩
  · exact .inl ⟨.ADC, rfl⟩
  · exact .inl ⟨.SUB, rfl⟩
  · exact .inl ⟨.SBC, rfl⟩
  · exact .inl ⟨.AND, rfl⟩
  · exact .inl ⟨.XOR, rfl⟩
  · exact .inl ⟨.OR, rfl⟩
  · exact .inl ⟨.CP, rfl⟩
  · exact .inr ⟨.INC, rfl⟩
  · exact .inr ⟨.DEC, rfl⟩

theorem rejection_eq {m : Mnemonic} (h : m ∈ Mnemonic.ofArithmetic) (xs : List Operand) :
    m.rejection xs = .illegalOperands := by
  rcases exists_of_mem h with ⟨op, rfl⟩ | ⟨s, rfl⟩
  · cases op <;> rfl
  · cases s <;> rfl

theorem Bytes.exists_row {m : Mnemonic} {xs : List Operand} {bs : List UInt8} (h : Bytes m xs bs) :
    ∃ e, Row m xs e ∧ e.bytes = bs := by
  cases h with
  | long number combined =>
    obtain ⟨op, rfl, rfl⟩ := Alu.exists_of_mem_numbered number
    obtain ⟨e, source, rfl⟩ := (Alu.combined_iff 1).1 combined
    exact ⟨e, .alu op (.long source), rfl⟩
  | short number implicit combined =>
    obtain ⟨op, rfl, rfl⟩ := Alu.exists_of_mem_numbered number
    obtain ⟨e, source, rfl⟩ := (Alu.combined_iff 0).1 combined
    exact ⟨e, .alu op (.short (Alu.mem_implicit_iff.1 implicit) source), rfl⟩
  | addPair p => exact ⟨_, .alu .ADD (.addPair p), rfl⟩
  | addToIndex i p other => exact ⟨_, .alu .ADD (.addToIndex i p other), rfl⟩
  | addSelf i => exact ⟨_, .alu .ADD (.addSelf i), rfl⟩
  | adcPair p => exact ⟨_, .alu .ADC (.adcPair p), rfl⟩
  | sbcPair p => exact ⟨_, .alu .SBC (.sbcPair p), rfl⟩
  | inc stepped =>
    obtain ⟨e, row, rfl⟩ := (Step.stepped_iff (s := .INC)).1 stepped
    exact ⟨e, .step .INC row, rfl⟩
  | dec stepped =>
    obtain ⟨e, row, rfl⟩ := (Step.stepped_iff (s := .DEC)).1 stepped
    exact ⟨e, .step .DEC row, rfl⟩

theorem bytes_iff {m : Mnemonic} (hm : m ∈ Mnemonic.ofArithmetic) {xs : List Operand} {bs : List UInt8} :
    Bytes m xs bs ↔ ∃ e, Row m xs e ∧ e.bytes = bs := by
  constructor
  · exact Bytes.exists_row
  · rintro ⟨e, row, rfl⟩
    rcases exists_of_mem hm with ⟨op, rfl⟩ | ⟨s, rfl⟩
    · exact (Row.alu_iff.1 row).toBytes
    · exact (Row.step_iff.1 row).toBytes

/-- Every operation takes the operands that another one takes beside the accumulator. -/
theorem Bytes.exists_long {m m' : Mnemonic} {k : UInt8} {x : Operand} {bs : List UInt8} (h : Bytes m [.register .A, x] bs)
    (number : (m', k) ∈ Alu.numbered) : ∃ cs, Bytes m' [.register .A, x] cs := by
  cases h with
  | long _ combined =>
    obtain ⟨cs, combined'⟩ := combined.exists_bytes k
    exact ⟨cs, .long number combined'⟩

/-- The bytes of an operation that may leave out the accumulator do not depend on it. -/
theorem bytes_short_iff {m : Mnemonic} (hm : m ∈ Alu.implicit) {x : Operand} {bs : List UInt8} :
    Bytes m [x] bs ↔ Bytes m [.register .A, x] bs := by
  constructor
  · intro h
    cases h with
    | short number _ combined => exact .long number combined
    | inc | dec => simp [Alu.implicit] at hm
  · intro h
    cases h with
    | long number combined => exact .short number hm combined

end Arithmetic

/-! ## With and without the accumulator -/

theorem Alu.numberWidth?_of_implicit {m : Mnemonic} (hm : m ∈ implicit) (xs : List Operand) :
    m.numberWidth? xs = some .u8 := by
  simp only [implicit, List.mem_cons, List.not_mem_nil, or_false] at hm
  rcases hm with rfl | rfl | rfl | rfl | rfl <;> rfl

/-- A report has the same wording at every column and beside every other operand. -/
theorem Operand.map_message_report? {m : Mnemonic} {xs ys : List Operand} {x : Operand} (h : m.width? xs x = m.width? ys x)
    (line c d : Nat) :
    (x.report? line m xs c).map Diagnostic.message = (x.report? line m ys d).map Diagnostic.message := by
  unfold report?
  rw [h]
  cases m.width? ys x with
  | none => rfl
  | some w =>
    simp only [Option.bind_some]
    split <;> rfl

/-- The accumulator is not reported, so that it changes no wording. -/
theorem Statement.map_message_reports_implicit {m : Mnemonic} (hm : m ∈ Alu.implicit) (line c d : Nat) (a x y : Node)
    (v : Operand) :
    (Statement.reports line ⟨m, c, [x]⟩ [v]).map Diagnostic.message =
      (Statement.reports line ⟨m, d, [a, y]⟩ [.register .A, v]).map Diagnostic.message := by
  have short : Statement.reports line ⟨m, c, [x]⟩ [v] = (v.report? line m [v] x.column).toList := by
    simp only [reports, List.zip_cons_cons, List.zip_nil_left, List.filterMap_cons, List.filterMap_nil]
    cases v.report? line m [v] x.column <;> rfl
  have long : Statement.reports line ⟨m, d, [a, y]⟩ [.register .A, v] =
      (v.report? line m [.register .A, v] y.column).toList := by
    have target : (Operand.register .A).report? line m [.register .A, v] a.column = none := rfl
    simp only [reports, List.zip_cons_cons, List.zip_nil_left, List.filterMap_cons, List.filterMap_nil, target]
    cases v.report? line m [.register .A, v] y.column <;> rfl
  have width : m.width? [v] v = m.width? [.register .A, v] v := by
    cases v with
    | immediate n => simp only [Mnemonic.width?, Alu.numberWidth?_of_implicit hm]
    | _ => rfl
  rw [short, long, ← Option.toList_map, ← Option.toList_map, Operand.map_message_report? width]

namespace Encoder

/-- What a statement by itself comes to: its bytes, and the wording of the warnings about it. -/
def worded (encode : Encoder) (line : Nat) (s : Statement) : Option (List UInt8) × List String :=
  let (bytes, reports) := evaluate encode line s []
  (bytes.toOption, reports.map Diagnostic.message)

variable {line : Nat} {s : Statement} {xs : List Operand}

theorem worded_of_row {e : Encoding} (hxs : Operand.ofNodes s.operands = .ok xs) (row : Row s.mnemonic xs e) :
    worded z80 line s = (some e.bytes, (s.reports line xs).map Diagnostic.message) := by
  have encoded : s.encoding = .ok e := Statement.encoding_eq_ok_iff.2 ⟨xs, hxs, row⟩
  rw [worded, evaluate_z80, encoded, ← Statement.overflows_eq_reports hxs row]
  rfl

theorem worded_of_error {fault : EvalError} (h : s.encoding = .error fault) : worded z80 line s = (none, []) := by
  rw [worded, evaluate_z80, h]
  rfl

theorem worded_of_no_row (hxs : Operand.ofNodes s.operands = .ok xs) (none : ∀ e, ¬Row s.mnemonic xs e) :
    worded z80 line s = (.none, []) :=
  worded_of_error (Statement.encoding_of_fault hxs (Mnemonic.encode_eq_error_iff.2 ⟨none, rfl⟩))

/-- An operation that may leave out the accumulator comes to the same with it and without it. -/
theorem worded_implicit {m : Mnemonic} (hm : m ∈ Alu.implicit) (c d : Nat) {a x y : Node}
    (ha : Operand.ofNode a = .ok (.register .A)) (hxy : Operand.ofNode x = Operand.ofNode y) :
    worded z80 line ⟨m, c, [x]⟩ = worded z80 line ⟨m, d, [a, y]⟩ := by
  have arithmetic : m ∈ Mnemonic.ofArithmetic := Alu.implicit_subset hm
  cases hx : Operand.ofNode x with
  | error fault =>
    -- the operand is none, with the accumulator before it or not
    have short : Operand.ofNodes [x] = .error fault := by simp only [Operand.ofNodes, hx]
    have long : Operand.ofNodes [a, y] = .error fault := by simp only [Operand.ofNodes, ha, ← hxy, hx]
    rw [worded_of_error (s := ⟨m, c, [x]⟩) (by rw [Statement.encoding, short]),
      worded_of_error (s := ⟨m, d, [a, y]⟩) (by rw [Statement.encoding, long])]
  | ok v =>
    have short : Operand.ofNodes [x] = .ok [v] := by simp only [Operand.ofNodes, hx]
    have long : Operand.ofNodes [a, y] = .ok [.register .A, v] := by simp only [Operand.ofNodes, ha, ← hxy, hx]
    by_cases has : ∃ bs, Arithmetic.Bytes m [v] bs
    · obtain ⟨bs, hbs⟩ := has
      obtain ⟨e, row, he⟩ := hbs.exists_row
      obtain ⟨f, row', hf⟩ := ((Arithmetic.bytes_short_iff hm).1 hbs).exists_row
      have wording := Statement.map_message_reports_implicit hm line c d a x y v
      rw [worded_of_row (s := ⟨m, c, [x]⟩) short row, worded_of_row (s := ⟨m, d, [a, y]⟩) long row', he, hf, wording]
    · have noShort (e : Encoding) : ¬Row m [v] e := fun row => has ⟨_, (Arithmetic.bytes_iff arithmetic).2 ⟨e, row, rfl⟩⟩
      have noLong (e : Encoding) : ¬Row m [.register .A, v] e := fun row =>
        has ⟨_, (Arithmetic.bytes_short_iff hm).2 ((Arithmetic.bytes_iff arithmetic).2 ⟨e, row, rfl⟩)⟩
      rw [worded_of_no_row (s := ⟨m, c, [x]⟩) short noShort, worded_of_no_row (s := ⟨m, d, [a, y]⟩) long noLong]

/-! ## The encoder -/

/-- The encoder, which joins the bits of an opcode, goes by the table of the arithmetic and logic instructions: it writes
the bytes of their operands, and rejects all others. The eight operations on the accumulator take the same operands, and
those that may leave it out come to the same bytes and wordings with it and without it. -/
theorem z80_arithmetic (line : Nat) (out : Output) :
    z80 = running Emitter.dispatch ∧
    (∀ s : Statement, s.mnemonic ∈ Mnemonic.ofArithmetic → ∀ xs, Operand.ofNodes s.operands = .ok xs →
      (∀ bs, (∃ out', z80 line s out = (.ok (), out') ∧ out'.bytes = bs) ↔ Arithmetic.Bytes s.mnemonic xs bs) ∧
      ((∀ bs, ¬Arithmetic.Bytes s.mnemonic xs bs) →
        z80 line s out = (.error ⟨s.mnemonic, .illegalOperands, s.column⟩, out.clear))) ∧
    (∀ s : Statement, s.mnemonic ∈ Mnemonic.ofArithmetic → Operand.ofNodes s.operands = .error .notAnOperand →
      z80 line s out = (.error ⟨s.mnemonic, .illegalOperands, s.column⟩, out.clear)) ∧
    (∀ s t : Statement, ∀ k j x, (s.mnemonic, k) ∈ Alu.numbered → (t.mnemonic, j) ∈ Alu.numbered →
      Operand.ofNodes s.operands = .ok [.register .A, x] → Operand.ofNodes t.operands = .ok [.register .A, x] →
      ((∃ out', z80 line s out = (.ok (), out')) ↔ ∃ out', z80 line t out = (.ok (), out'))) ∧
    (∀ m ∈ Alu.implicit, ∀ c d a x y, Operand.ofNode a = .ok (.register .A) → Operand.ofNode x = Operand.ofNode y →
      worded z80 line ⟨m, c, [x]⟩ = worded z80 line ⟨m, d, [a, y]⟩) := by
  have table (s : Statement) (hm : s.mnemonic ∈ Mnemonic.ofArithmetic) (xs : List Operand)
      (hxs : Operand.ofNodes s.operands = .ok xs) :=
    z80_of_table line out hxs fun bs => Arithmetic.bytes_iff hm
  have encodes (s : Statement) {k x} (number : (s.mnemonic, k) ∈ Alu.numbered)
      (hxs : Operand.ofNodes s.operands = .ok [.register .A, x]) :=
    exists_z80_iff_table (table s (Alu.mem_ofArithmetic number) _ hxs).1
  refine ⟨running_dispatch.symm, fun s hm xs hxs => ?_, fun s _ hs => z80_of_notAnOperand hs, ?_, ?_⟩
  · obtain ⟨written, rejected⟩ := table s hm xs hxs
    exact ⟨written, rejected (Arithmetic.rejection_eq hm xs)⟩
  · intro s t k j x hs ht hsx htx
    rw [encodes s hs hsx, encodes t ht htx]
    constructor
    · rintro ⟨bs, h⟩
      exact h.exists_long ht
    · rintro ⟨bs, h⟩
      exact h.exists_long hs
  · intro m hm c d a x y ha hxy
    exact worded_implicit hm c d ha hxy

/-- `ADD IX,SP`, `ADC A,IYH` and `DEC IXL` have their bytes; `ADD IX,HL` has none, and neither has `INC` with a sign for its operand. `ADC A,(IY)` is
encoded as `CP A,(IY)` is, and `CP 300` comes to the same as `CP A,300`. -/
theorem z80_arithmetic_index :
    (∃ out', z80 1 ⟨.ADD, 0, [(Operand.indexPair .IX).node, (Operand.normalPair .SP).node]⟩ .empty = (.ok (), out') ∧
      out'.bytes = [0xDD, 0x39]) ∧
    (∃ out', z80 1 ⟨.ADC, 0, [(Operand.register .A).node, (Operand.indexHalf .IYH).node]⟩ .empty = (.ok (), out') ∧
      out'.bytes = [0xFD, 0x8C]) ∧
    (∃ out', z80 1 ⟨.DEC, 0, [(Operand.indexHalf .IXL).node]⟩ .empty = (.ok (), out') ∧ out'.bytes = [0xDD, 0x2D]) ∧
    z80 1 ⟨.ADD, 0, [(Operand.indexPair .IX).node, (Operand.normalPair .HL).node]⟩ .empty =
      (.error ⟨.ADD, .illegalOperands, 0⟩, .empty) ∧
    z80 1 ⟨.INC, 0, [.leaf (.operator .plus) 4]⟩ .empty = (.error ⟨.INC, .illegalOperands, 0⟩, .empty) ∧
    ((∃ out', z80 1 ⟨.ADC, 0, [(Operand.register .A).node, (Operand.indexed .IY none).node]⟩ .empty = (.ok (), out')) ↔
      ∃ out', z80 1 ⟨.CP, 0, [(Operand.register .A).node, (Operand.indexed .IY none).node]⟩ .empty = (.ok (), out')) ∧
    worded z80 1 ⟨.CP, 0, [.leaf (.immediate 300) 3]⟩ =
      worded z80 1 ⟨.CP, 0, [(Operand.register .A).node, .leaf (.immediate 300) 5]⟩ := by
  obtain ⟨-, table, signs, same, implicit⟩ := z80_arithmetic 1 .empty
  refine ⟨?_, ?_, ?_, ?_, ?_, ?_, ?_⟩
  · exact ((table _ (by decide) _ rfl).1 _).2 (.addToIndex .IX .SP (by decide))
  · exact ((table _ (by decide) _ rfl).1 _).2 (.long (k := 1) (by decide) (.half .IYH))
  · exact ((table _ (by decide) _ rfl).1 _).2 (.dec (.half .IXL))
  · refine (table _ (by decide) _ rfl).2 fun bs h => ?_
    cases h with
    | addToIndex _ _ other => exact other rfl
  · exact signs _ (by decide) rfl
  · exact same _ _ 1 7 (.indexed .IY none) (by decide) (by decide) rfl rfl
  · exact implicit .CP (by decide) 0 0 _ _ _ rfl rfl

end Encoder

end Z80Asm
