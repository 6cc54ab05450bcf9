/-
Numbers that are checked. The index of a bit, a restart vector, an interrupt mode, a number loaded to a register and the
zero that is written to a port are rejected outside their range, and never cut off (`Encoder.z80_checked`): no warning is
about them, and two of them that are accepted have bytes of their own.
-/
import Z80Asm.Proofs.Assembler.Overflow
import Z80Asm.Proofs.Bytes.BitPage
import Z80Asm.Proofs.Bytes.Branch

namespace Z80Asm

open Vocabulary Width

/-- The bytes of a target show the opcode for `B`. -/
theorem BitPage.Bytes.opcode_inj {p q : UInt8} {target : List Operand} {bs cs : List UInt8} (hp : Bytes p target bs)
    (hq : Bytes q target cs) (same : bs = cs) : p = q := by
  cases hp <;> cases hq <;> simpa using same

namespace Mnemonic

/-! ## The checks -/

/-- The places of numbers that are checked, between the operands before and behind them. Behind the index of a bit may
stand any operands. -/
inductive Checks : Mnemonic → List Operand → List Operand → Prop
  | bit (b : BitAccess) (target : List Operand) : Checks b.mnemonic [] target
  | restart : Checks .RST [] []
  | interruptMode : Checks .IM [] []
  | load (r : Register) : Checks .LD [.register r] []
  | port : Checks .OUT [.portC] []

/-- The numbers that a mnemonic accepts in the place where it checks them. -/
def Accepts (m : Mnemonic) (v : Int32) : Prop :=
  match m with
  | .BIT | .RES | .SET => 0 ≤ v.toInt ∧ v.toInt ≤ 7
  | .RST => Branch.IsVector v
  | .IM => v = 0 ∨ v = 1 ∨ v = 2
  | .LD => -128 ≤ v.toInt ∧ v.toInt ≤ 255
  | .OUT => v = 0
  | _ => False

/-- Every number that is accepted is a byte, except in a load, where it may be negative. -/
theorem range_of_accepts {m : Mnemonic} {v : Int32} (h : m.Accepts v) (hm : m ≠ .LD) :
    0 ≤ v.toInt ∧ v.toInt ≤ 0x38 := by
  cases m with
  | LD => exact absurd rfl hm
  | BIT | RES | SET => exact ⟨h.1, Int.le_trans h.2 (by decide)⟩
  | RST => exact ⟨h.1, h.2.1⟩
  | IM => rcases h with rfl | rfl | rfl <;> decide
  | OUT =>
    obtain rfl : v = 0 := h
    decide
  | _ => exact h.elim

/-- What is wrong with a number that a mnemonic does not accept. A port is just not written with it. -/
def complaint (m : Mnemonic) (v : Int32) : Fault :=
  match m with
  | .BIT | .RES | .SET => .badBitIndex v
  | .RST => .badRestart v
  | .IM => .badInterruptMode v
  | .LD => .outOfRange v
  | _ => .illegalOperands

namespace Checks

variable {m : Mnemonic} {xs ys : List Operand} {v v' : Int32} {e e' : Encoding}

/-! ## The rows -/

theorem accepts_of_row (h : Checks m xs ys) (row : Row m (xs ++ .immediate v :: ys) e) : m.Accepts v := by
  cases h with
  | bit b =>
    cases Row.bitAccess_iff.1 row with
    | intro index _ =>
      have index := BitAccess.mem_indices_iff.1 index
      cases b <;> exact index
  | restart =>
    cases Row.restart_iff.1 row with
    | intro vector => exact Branch.isVector_iff.2 vector
  | interruptMode =>
    cases Row.interruptMode_iff.1 row with
    | zero => exact .inl rfl
    | one => exact .inr (.inl rfl)
    | two => exact .inr (.inr rfl)
  | load r =>
    cases row.of_LD with
    | number _ _ fits => exact fits_iff.1 fits
  | port =>
    cases Row.output_iff.1 row
    rfl

theorem exists_row (h : Checks m xs ys) (accepts : m.Accepts v) (noTarget : m ∉ [.BIT, .RES, .SET]) :
    ∃ e, Row m (xs ++ .immediate v :: ys) e := by
  cases h with
  | bit b => cases b <;> exact absurd (by decide) noTarget
  | restart => exact ⟨_, .restart (.intro (Branch.isVector_iff.1 accepts))⟩
  | interruptMode =>
    rcases accepts with rfl | rfl | rfl
    · exact ⟨_, .interruptMode .zero⟩
    · exact ⟨_, .interruptMode .one⟩
    · exact ⟨_, .interruptMode .two⟩
  | load r => exact ⟨_, .load (.number r v (fits_iff.2 accepts))⟩
  | port =>
    obtain rfl : v = 0 := accepts
    exact ⟨_, .output .zero⟩

/-- Only the index of a bit has operands behind it. -/
theorem eq_nil (h : Checks m xs ys) (noTarget : m ∉ [.BIT, .RES, .SET]) : ys = [] := by
  cases h with
  | bit b => cases b <;> exact absurd (by decide) noTarget
  | _ => rfl

theorem rejection_eq (h : Checks m xs ys) (rejects : ¬m.Accepts v) :
    m.rejection (xs ++ .immediate v :: ys) = m.complaint v := by
  cases h with
  | bit b => cases b <;> exact if_neg rejects
  | _ => rfl

/-! ## The bytes -/

/-- The bytes of an access to a bit show which bit it is. -/
theorem lowByte_eq_of_bit {b : BitAccess} {target : List Operand} (index : 0 ≤ v.toInt ∧ v.toInt ≤ 7)
    (index' : 0 ≤ v'.toInt ∧ v'.toInt ≤ 7) (row : Row b.mnemonic (.immediate v :: target) e)
    (row' : Row b.mnemonic (.immediate v' :: target) e') (same : e.bytes = e'.bytes) : lowByte v = lowByte v' := by
  have bytes := (BitPage.bytes_iff 1).2 ⟨e, (BitPage.row_access_iff index).1 row, rfl⟩
  have bytes' := (BitPage.bytes_iff 1).2 ⟨e', (BitPage.row_access_iff index').1 row', rfl⟩
  have opcode := congrArg UInt8.toNat (bytes.opcode_inj bytes' same)
  have low := toNat_lowByte v
  have low' := toNat_lowByte v'
  rw [← UInt8.toNat_inj]
  simp only [UInt8.toNat_add, UInt8.toNat_mul, UInt8.reduceToNat] at opcode
  omega

theorem lowByte_eq (h : Checks m xs ys) (row : Row m (xs ++ .immediate v :: ys) e)
    (row' : Row m (xs ++ .immediate v' :: ys) e') (same : e.bytes = e'.bytes) : lowByte v = lowByte v' := by
  have accepts := h.accepts_of_row row
  have accepts' := h.accepts_of_row row'
  cases h with
  | bit b target => cases b <;> exact lowByte_eq_of_bit accepts accepts' row row' same
  | restart =>
    cases Row.restart_iff.1 row
    cases Row.restart_iff.1 row'
    rw [Branch.lowByte_of_isVector accepts, Branch.lowByte_of_isVector accepts']
    exact (UInt8.add_right_inj 0xC7).1 (List.cons.inj same).1
  | interruptMode =>
    cases Row.interruptMode_iff.1 row <;> cases Row.interruptMode_iff.1 row' <;> first | rfl | cases same
  | load r =>
    cases row.of_LD
    cases row'.of_LD
    exact (List.cons.inj (List.cons.inj same).2).1
  | port =>
    cases Row.output_iff.1 row
    cases Row.output_iff.1 row'
    rfl

/-- Two numbers that are accepted and have the same bytes are the same, or congruent in a load. -/
theorem eq_of_bytes_eq (h : Checks m xs ys) (row : Row m (xs ++ .immediate v :: ys) e)
    (row' : Row m (xs ++ .immediate v' :: ys) e') (same : e.bytes = e'.bytes) :
    v.toInt % 256 = v'.toInt % 256 ∧ (m ≠ .LD → v = v') := by
  have congruent := lowByte_eq_iff.1 (h.lowByte_eq row row' same)
  refine ⟨congruent, fun hm => Int32.toInt_inj.1 ?_⟩
  have range := range_of_accepts (h.accepts_of_row row) hm
  have range' := range_of_accepts (h.accepts_of_row row') hm
  omega

/-! ## The warnings -/

/-- What stands before the number feeds no field. -/
theorem report?_before (h : Checks m xs ys) {x : Operand} (hx : x ∈ xs) (line : Nat) (operands : List Operand)
    (column : Nat) : x.report? line m operands column = none := by
  cases h with
  | bit | restart | interruptMode => cases hx
  | load | port =>
    cases List.mem_singleton.1 hx
    rfl

/-- The number feeds no field, except in a load, where it fits. -/
theorem report?_number (h : Checks m xs ys) (accepts : m.Accepts v) (line column : Nat) :
    (Operand.immediate v).report? line m (xs ++ .immediate v :: ys) column = none := by
  cases h with
  | load r =>
    have fits : Width.u8.fits v = true := fits_iff.2 accepts
    exact if_pos fits
  | bit b => exact Operand.report?_checked (by cases b <;> decide) line _ v column
  | _ => exact Operand.report?_checked (by decide) line _ v column

end Checks

end Mnemonic

/-! ## Statements with a number -/

/-- A statement with a number between its other operands. -/
def Statement.around (m : Mnemonic) (c : Nat) (before after : List Node) (v : Int32) (column : Nat) : Statement :=
  ⟨m, c, before ++ .leaf (.immediate v) column :: after⟩

namespace Mnemonic.Checks

variable {m : Mnemonic} {xs ys : List Operand} {before after : List Node} {v : Int32}

theorem ofNodes_around (hxs : Operand.ofNodes before = .ok xs) (hys : Operand.ofNodes after = .ok ys) (c column : Nat) :
    Operand.ofNodes (Statement.around m c before after v column).operands = .ok (xs ++ .immediate v :: ys) :=
  Operand.ofNodes_eq_ok_iff.2 <|
    List.rel_append (Operand.ofNodes_eq_ok_iff.1 hxs) (.cons rfl (Operand.ofNodes_eq_ok_iff.1 hys))

theorem columnOf_around (hxs : Operand.ofNodes before = .ok xs) (after : List Node) (c column : Nat) :
    (Statement.around m c before after v column).columnOf xs.length = column := by
  have place : (Statement.around m c before after v column).operands[xs.length]? = some (.leaf (.immediate v) column) := by
    rw [Statement.around, ← Operand.length_of_ofNodes hxs]
    simp
  exact Statement.columnOf_eq place

/-- A number that is rejected is so at its own column, unless the operands as a whole are. -/
theorem failure_around (h : Checks m xs ys) (hxs : Operand.ofNodes before = .ok xs) (c column : Nat) :
    (Statement.around m c before after v column).failure (m.complaint v) =
      ⟨m, m.complaint v, if m = .OUT then c else column⟩ := by
  have own := columnOf_around (m := m) (v := v) hxs after c column
  cases h with
  | bit b => cases b <;> exact congrArg (EvalError.mk _ _) own
  | restart | interruptMode | load => exact congrArg (EvalError.mk _ _) own
  | port => rfl

/-- Only the operands behind the number are reported. -/
theorem reports_around (h : Checks m xs ys) (accepts : m.Accepts v) (hxs : Operand.ofNodes before = .ok xs)
    (line c column : Nat) :
    (Statement.around m c before after v column).reports line (xs ++ .immediate v :: ys) =
      (after.zip ys).filterMap fun (node, x) => x.report? line m (xs ++ .immediate v :: ys) node.column := by
  have front : ((before.zip xs).filterMap fun (node, x) =>
      x.report? line m (xs ++ .immediate v :: ys) node.column) = [] := by
    refine List.filterMap_eq_nil_iff.2 ?_
    rintro ⟨node, x⟩ hx
    exact h.report?_before (List.of_mem_zip hx).2 line _ node.column
  rw [Statement.reports, Statement.around, List.zip_append (Operand.length_of_ofNodes hxs), List.filterMap_append, front,
    List.nil_append, List.zip_cons_cons]
  exact List.filterMap_cons_none (h.report?_number accepts line column)

end Mnemonic.Checks

/-! ## The encoder -/

namespace Encoder

open Mnemonic (Checks)

/-- Numbers that are checked are never cut off and never warned about. The test of a restart vector by a mask is that of
its range. A number that is not accepted is rejected as such, at its own column and whatever stands behind it; a port that
is written with a number other than zero is rejected as a whole. A number that is accepted is encoded, behind the index of
a bit if there is a target. A failure leaves nothing behind, and a success no warning but those about the operands behind
the number; two numbers with the same bytes are the same, or congruent in a load. -/
theorem z80_checked (line : Nat) (out : Output) :
    z80 = running Emitter.dispatch ∧ (∀ v : Int32, v &&& ~~~0x38 = 0 ↔ Branch.IsVector v) ∧
    ∀ (m : Mnemonic) (xs ys : List Operand), Checks m xs ys →
      ∀ (before after : List Node), Operand.ofNodes before = .ok xs → Operand.ofNodes after = .ok ys →
      ∀ (c column : Nat) (v : Int32),
        (¬m.Accepts v → z80 line (.around m c before after v column) out =
          (.error ⟨m, m.complaint v, if m = .OUT then c else column⟩, out.clear)) ∧
        (m.Accepts v → m ∉ [.BIT, .RES, .SET] →
          ∃ bytes, z80 line (.around m c before after v column) out = (.ok (), ⟨bytes, out.reports⟩)) ∧
        (∀ fault out', z80 line (.around m c before after v column) out = (.error fault, out') → out' = out.clear) ∧
        (∀ out', z80 line (.around m c before after v column) out = (.ok (), out') → m.Accepts v ∧
          out'.reports = out.reports ++ (after.zip ys).filterMap fun (node, x) =>
            x.report? line m (xs ++ .immediate v :: ys) node.column) ∧
        ∀ v' out₁ out₂, z80 line (.around m c before after v column) out = (.ok (), out₁) →
          z80 line (.around m c before after v' column) out = (.ok (), out₂) → out₁.bytes = out₂.bytes →
          v.toInt % 256 = v'.toInt % 256 ∧ (m ≠ .LD → v = v') := by
  refine ⟨running_dispatch.symm, fun v => Emitter.and_mask_eq_zero_iff.trans Branch.isVector_iff.symm, ?_⟩
  intro m xs ys h before after hxs hys c column v
  have nodes (v : Int32) := Checks.ofNodes_around (m := m) (v := v) hxs hys c column
  have rows {v : Int32} {e : Encoding} (he : (Statement.around m c before after v column).encoding = .ok e) :
      Row m (xs ++ .immediate v :: ys) e := Statement.row_of_encoding (nodes v) he
  have reports {e : Encoding} (row : Row m (xs ++ .immediate v :: ys) e) :
      (Statement.overflows _ e).map (fun o => (⟨line, .overflow o⟩ : Diagnostic)) = _ :=
    (Statement.overflows_eq_reports (nodes v) row).trans (h.reports_around (h.accepts_of_row row) hxs line c column)
  refine ⟨fun rejects => ?_, fun accepts noTarget => ?_, fun fault out' failed => ?_, fun out' written => ?_, ?_⟩
  · rw [z80_of_no_row (nodes v) fun e row => rejects (h.accepts_of_row row)]
    show (Except.error (Statement.failure _ (m.rejection _)), out.clear) = _
    rw [h.rejection_eq rejects, h.failure_around hxs]
  · obtain ⟨e, row⟩ := h.exists_row accepts noTarget
    refine ⟨e.bytes, ?_⟩
    rw [z80_of_encoding (Statement.encoding_eq_ok_iff.2 ⟨_, nodes v, row⟩), reports row, h.eq_nil noTarget]
    simp
  · cases he : (Statement.around m c before after v column).encoding with
    | error fault' =>
      rw [z80_of_error he] at failed
      cases failed
      rfl
    | ok e =>
      rw [z80_of_encoding he] at failed
      cases failed
  · obtain ⟨e, he, rfl⟩ := encoding_of_z80 written
    exact ⟨h.accepts_of_row (rows he), congrArg (out.reports ++ ·) (reports (rows he))⟩
  · intro v' out₁ out₂ written written' same
    obtain ⟨e, he, rfl⟩ := encoding_of_z80 written
    obtain ⟨e', he', rfl⟩ := encoding_of_z80 written'
    exact h.eq_of_bytes_eq (rows he) (rows he') same

/-- `BIT 8` has no bit 8 even without a target, `RST -8` no vector, and `OUT (C),1` is not written. `LD A,-128` is the least
load; `LD A,-1` and `LD A,255` have the same bytes. -/
theorem z80_checked_bounds :
    z80 1 (.around .BIT 0 [] [] 8 4) .empty = (.error ⟨.BIT, .badBitIndex 8, 4⟩, .empty) ∧
    z80 1 (.around .RST 0 [] [] (-8) 4) .empty = (.error ⟨.RST, .badRestart (-8), 4⟩, .empty) ∧
    z80 1 (.around .OUT 0 [Operand.portC.node] [] 1 8) .empty = (.error ⟨.OUT, .illegalOperands, 0⟩, .empty) ∧
    (∃ bytes, z80 1 (.around .LD 0 [(Operand.register .A).node] [] (-128) 5) .empty = (.ok (), ⟨bytes, []⟩)) ∧
    (-1 : Int32).toInt % 256 = (255 : Int32).toInt % 256 := by
  obtain ⟨-, -, checked⟩ := z80_checked 1 .empty
  refine ⟨?_, ?_, ?_, ?_, ?_⟩
  · exact (checked _ _ _ (.bit .BIT []) [] [] rfl rfl 0 4 8).1 fun h => absurd h.2 (by decide)
  · exact (checked _ _ _ .restart [] [] rfl rfl 0 4 (-8)).1 fun h => absurd h.1 (by decide)
  · exact (checked _ _ _ .port [Operand.portC.node] [] rfl rfl 0 8 1).1 fun h : (1 : Int32) = 0 => absurd h (by decide)
  · have load := checked _ _ _ (.load .A) [(Operand.register .A).node] [] rfl rfl 0 5
    exact (load (-128)).2.1 ⟨by decide, by decide⟩ (by decide)
  · have load := checked _ _ _ (.load .A) [(Operand.register .A).node] [] rfl rfl 0 5
    exact ((load (-1)).2.2.2.2 255 _ _ rfl rfl rfl).1

end Encoder

end Z80Asm
