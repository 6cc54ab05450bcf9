/-
Overflow reports. A success of the encoder adds one warning for each operand that feeds a field and is outside
its range, in the order of the operands and at the column of that very operand; a failure adds none
(`Encoder.z80_reports`).
-/
import Z80Asm.Proofs.Assembler.Statement
import Z80Asm.Proofs.Field.Feed
import Z80Asm.Proofs.Field.Residue

namespace Z80Asm

/-! ## The reports of operands -/

/-- The report of an operand at a column: its value is outside the range of the field that it feeds. -/
def Operand.report? (line : Nat) (m : Mnemonic) (operands : List Operand) (x : Operand) (column : Nat) :
    Option Diagnostic :=
  (m.width? operands x).bind fun w =>
    if w.fits x.value then none else some ⟨line, .overflow ⟨m, w, x.value, column⟩⟩

/-- The reports of a statement's operands, in their order. -/
def Statement.reports (line : Nat) (s : Statement) (operands : List Operand) : List Diagnostic :=
  (s.operands.zip operands).filterMap fun (node, x) => x.report? line s.mnemonic operands node.column

theorem Operand.report?_eq_some {line : Nat} {m : Mnemonic} {operands : List Operand} {x : Operand} {column : Nat}
    {d : Diagnostic} (h : x.report? line m operands column = some d) :
    ∃ w, m.width? operands x = some w ∧ w.fits x.value = false ∧ d = ⟨line, .overflow ⟨m, w, x.value, column⟩⟩ := by
  obtain ⟨w, hw, h⟩ := Option.bind_eq_some_iff.1 h
  split at h
  · cases h
  · rename_i hf
    cases h
    exact ⟨w, hw, by simpa using hf, rfl⟩

theorem Statement.columnOf_eq {s : Statement} {i : Nat} {node : Node} (h : s.operands[i]? = some node) :
    s.columnOf i = node.column := by
  rw [columnOf, h]

/-- The report of a field. -/
def Statement.report (line : Nat) (s : Statement) (f : Field) : Diagnostic :=
  ⟨line, .overflow ⟨s.mnemonic, f.width, f.value, s.columnOf f.operand⟩⟩

/-- The overflows of the fields that operands feed, by operand. The induction is on the nodes from the
position `k` on. -/
theorem map_report_overflows (line : Nat) (s : Statement) (operands : List Operand) :
    ∀ (nodes : List Node) (xs : List Operand) (k : Nat), s.operands.drop k = nodes → nodes.length = xs.length →
      (((xs.zipIdx k).filterMap fun p => s.mnemonic.field? operands p.1 p.2).filter Field.overflows).map (s.report line) =
        (nodes.zip xs).filterMap fun (node, x) => x.report? line s.mnemonic operands node.column
  | [], xs, k, _, hl => by
    obtain rfl := List.eq_nil_of_length_eq_zero hl.symm
    rfl
  | node :: nodes, [], k, _, hl => by cases hl
  | node :: nodes, x :: xs, k, hd, hl => by
    have hk : s.operands[k]? = some node := by
      rw [← List.head?_drop, hd]; rfl
    have hd' : s.operands.drop (k + 1) = nodes := by
      rw [← List.drop_drop, hd]; rfl
    have ih := map_report_overflows line s operands nodes xs (k + 1) hd' (Nat.succ.inj hl)
    rw [List.zipIdx_cons, List.zip_cons_cons]
    cases hw : s.mnemonic.width? operands x with
    | none =>
      simp only [List.filterMap_cons, Mnemonic.field?, hw, Option.map_none, Operand.report?, Option.bind_none]
      exact ih
    | some w =>
      cases hf : w.fits x.value with
      | true =>
        simp only [List.filterMap_cons, Mnemonic.field?, hw, Option.map_some, Operand.report?, Option.bind_some, hf,
          if_true]
        rw [List.filter_cons_of_neg (by simp [Field.overflows, hf])]
        exact ih
      | false =>
        simp only [List.filterMap_cons, Mnemonic.field?, hw, Option.map_some, Operand.report?, Option.bind_some, hf]
        rw [List.filter_cons_of_pos (by simp [Field.overflows, hf]), List.map_cons, Statement.report,
          Statement.columnOf_eq hk]
        exact congrArg _ ih

/-- The overflows of an encoded statement are the reports of its operands. -/
theorem Statement.overflows_eq_reports {line : Nat} {s : Statement} {operands : List Operand} {e : Encoding}
    (hs : Operand.ofNodes s.operands = .ok operands) (row : Row s.mnemonic operands e) :
    ((s.overflows e).map fun o => (⟨line, .overflow o⟩ : Diagnostic)) = s.reports line operands := by
  have h := map_report_overflows line s operands s.operands operands 0 rfl (Operand.length_of_ofNodes hs)
  rw [overflows, Encoding.overflows, row.fields_eq, List.map_map]
  exact h

/-! ## Operands that are never reported -/

/-- Numbers that become part of an opcode feed no field. -/
theorem Operand.report?_checked {m : Mnemonic} (hm : m ∈ [.BIT, .RES, .SET, .RST, .IM, .OUT]) (line : Nat)
    (operands : List Operand) (n : Int32) (column : Nat) :
    (Operand.immediate n).report? line m operands column = none := by
  simp only [List.mem_cons, List.not_mem_nil, or_false] at hm
  rcases hm with rfl | rfl | rfl | rfl | rfl | rfl <;> rfl

/-- The number in a load of a register has been checked. -/
theorem Statement.reports_load_number {line : Nat} {s : Statement} {r : Register} {n : Int32} {e : Encoding}
    (row : Row s.mnemonic [.register r, .immediate n] e) (hm : s.mnemonic = .LD) :
    s.reports line [.register r, .immediate n] = [] := by
  rw [hm] at row
  have fits : Width.u8.fits n = true := by
    cases row.of_LD
    assumption
  rw [reports, hm]
  apply List.filterMap_eq_nil_iff.2
  rintro ⟨node, x⟩ hx
  -- the register feeds no field, and the number has passed the check
  have hx' := (List.of_mem_zip hx).2
  simp only [List.mem_cons, List.not_mem_nil, or_false] at hx'
  rcases hx' with rfl | rfl
  · rfl
  · simp [Operand.report?, Mnemonic.width?, Mnemonic.numberWidth?, Operand.value, fits]

/-! ## The number of reports -/

/-- Only a load of a number to an index address has both fields. -/
theorem Row.eq_of_two_fields {m : Mnemonic} {xs : List Operand} {e : Encoding} (h : Row m xs e) :
    e.fields.length ≤ 1 ∨ m = .LD ∧ ∃ i d n, xs = [.indexed i d, .immediate n] := by
  cases h with
  | load row =>
    cases row with
    | numberToIndexed i d n => exact .inr ⟨rfl, i, d, n, rfl⟩
    | _ => exact .inl (Nat.le_of_ble_eq_true rfl)
  | alu op row =>
    left
    cases row with
    | short implicit source => cases source <;> exact Nat.le_of_ble_eq_true rfl
    | long source => cases source <;> exact Nat.le_of_ble_eq_true rfl
    | _ => exact Nat.le_of_ble_eq_true rfl
  | bit b row =>
    obtain ⟨-, row⟩ := row
    cases row <;> exact .inl (Nat.le_of_ble_eq_true rfl)
  | jump row =>
    left
    cases row with
    | absolute row => cases row <;> exact Nat.le_of_ble_eq_true rfl
    | _ => exact Nat.le_of_ble_eq_true rfl
  | step s row => cases row <;> exact .inl (Nat.le_of_ble_eq_true rfl)
  | rotation r row => cases row <;> exact .inl (Nat.le_of_ble_eq_true rfl)
  | @implied m e opcode => cases m <;> cases opcode <;> exact .inl (Nat.le_of_ble_eq_true rfl)
  | _ row => cases row <;> exact .inl (Nat.le_of_ble_eq_true rfl)

theorem Statement.length_reports {line : Nat} {s : Statement} {operands : List Operand} {e : Encoding}
    (hs : Operand.ofNodes s.operands = .ok operands) (row : Row s.mnemonic operands e) :
    (s.reports line operands).length ≤ e.fields.length := by
  rw [← overflows_eq_reports hs row, List.length_map, overflows, List.length_map]
  exact List.length_filter_le _ _

theorem Encoding.length_fields_le (e : Encoding) : e.fields.length ≤ 2 := by
  obtain ⟨index, page, opcode, displacement, data⟩ := e
  cases displacement <;> cases data <;> exact Nat.le_of_ble_eq_true rfl

/-! ## The reports of the encoder -/

/-- The range of each field, and its name in reports. -/
theorem Width.limits_iff {w : Width} {least greatest : Int} {field : String} :
    (w, least, greatest, field) ∈ [(.u8, -128, 255, "8-bit immediate"), (.s8, -128, 127, "signed 8-bit offset"),
      (.w16, -32768, 65535, "16-bit immediate")] ↔ least = w.least ∧ greatest = w.greatest ∧ field = w.describe := by
  cases w <;> simp [Width.least, Width.greatest, describe]

/-- The reports are those of the operands whose value is outside the range of the field that they feed. -/
theorem Statement.mem_reports_iff {line : Nat} {s : Statement} {operands : List Operand} {d : Diagnostic} :
    d ∈ s.reports line operands ↔ ∃ node x w, (node, x) ∈ s.operands.zip operands ∧
      s.mnemonic.width? operands x = some w ∧ ¬(w.least ≤ x.value.toInt ∧ x.value.toInt ≤ w.greatest) ∧
      d = ⟨line, .overflow ⟨s.mnemonic, w, x.value, node.column⟩⟩ := by
  constructor
  · intro h
    obtain ⟨⟨node, x⟩, hm, hd⟩ := List.mem_filterMap.1 h
    obtain ⟨w, hw, hf, rfl⟩ := Operand.report?_eq_some hd
    refine ⟨node, x, w, hm, hw, ?_, rfl⟩
    rw [← Width.fits_iff, hf]
    exact Bool.false_ne_true
  · rintro ⟨node, x, w, hm, hw, outside, rfl⟩
    have reported : x.report? line s.mnemonic operands node.column = some ⟨line, .overflow ⟨s.mnemonic, w, x.value, node.column⟩⟩ := by
      rw [Operand.report?, hw, Option.bind_some, if_neg (mt Width.fits_iff.1 outside)]
    exact List.mem_filterMap.2 ⟨(node, x), hm, reported⟩

/-- What a report says, with the range and the name of its field. -/
theorem Statement.mem_reports_iff_limits {line : Nat} {s : Statement} {operands : List Operand} {d : Diagnostic} :
    d ∈ s.reports line operands ↔ ∃ node x w least greatest field,
      (w, least, greatest, field) ∈ [(.u8, -128, 255, "8-bit immediate"), (.s8, -128, 127, "signed 8-bit offset"),
        (.w16, -32768, 65535, "16-bit immediate")] ∧
      (node, x) ∈ s.operands.zip operands ∧ s.mnemonic.width? operands x = some w ∧
      ¬(least ≤ x.value.toInt ∧ x.value.toInt ≤ greatest) ∧
      d = ⟨line, .overflow ⟨s.mnemonic, w, x.value, node.column⟩⟩ ∧
      d.kind = "Overflow" ∧ d.severity = .warning ∧ d.line = line ∧ d.column = node.column ∧
      d.message = s!"{x.value} overflows {field} of {Vocabulary.name s.mnemonic}" := by
  rw [mem_reports_iff]
  constructor
  · rintro ⟨node, x, w, hm, hw, outside, rfl⟩
    exact ⟨node, x, w, w.least, w.greatest, w.describe, Width.limits_iff.2 ⟨rfl, rfl, rfl⟩, hm, hw, outside, rfl, rfl, rfl,
      rfl, rfl, rfl⟩
  · rintro ⟨node, x, w, least, greatest, field, limits, hm, hw, outside, eq, -⟩
    obtain ⟨rfl, rfl, rfl⟩ := Width.limits_iff.1 limits
    exact ⟨node, x, w, hm, hw, outside, eq⟩

/-- A failure of the encoder reports nothing. A success reports, in their order, the operands that feed a
field and are outside its range: each once, as a warning at its column with its value, and no others. -/
theorem Encoder.z80_reports (line : Nat) (s : Statement) (out : Output) :
    (∀ fault out', z80 line s out = (.error fault, out') → out'.reports = out.reports) ∧
    ∀ out', z80 line s out = (.ok (), out') →
      ∃ xs, Operand.ofNodes s.operands = .ok xs ∧ out'.reports = out.reports ++ s.reports line xs ∧
        (∀ d, d ∈ s.reports line xs ↔ ∃ node x w least greatest field,
          (w, least, greatest, field) ∈ [(.u8, -128, 255, "8-bit immediate"), (.s8, -128, 127, "signed 8-bit offset"),
            (.w16, -32768, 65535, "16-bit immediate")] ∧
          (node, x) ∈ s.operands.zip xs ∧ s.mnemonic.width? xs x = some w ∧
          ¬(least ≤ x.value.toInt ∧ x.value.toInt ≤ greatest) ∧
          d = ⟨line, .overflow ⟨s.mnemonic, w, x.value, node.column⟩⟩ ∧
          d.kind = "Overflow" ∧ d.severity = .warning ∧ d.line = line ∧ d.column = node.column ∧
          d.message = s!"{x.value} overflows {field} of {Vocabulary.name s.mnemonic}") ∧
        (s.mnemonic ∈ [.BIT, .RES, .SET, .RST, .IM, .OUT] →
          ∀ n column, (Operand.immediate n).report? line s.mnemonic xs column = none) ∧
        (s.mnemonic = .LD → ∀ r n, xs = [.register r, .immediate n] → s.reports line xs = []) ∧
        (s.reports line xs).length ≤ 2 ∧
        ((s.reports line xs).length = 2 → s.mnemonic = .LD ∧ ∃ i d n, xs = [.indexed i d, .immediate n]) := by
  constructor
  · intro fault out' h
    cases he : s.encoding with
    | error fault' => rw [z80_of_error he] at h; cases h; rfl
    | ok e => rw [z80_of_encoding he] at h; cases h
  · intro out' h
    obtain ⟨e, he, rfl⟩ := encoding_of_z80 h
    obtain ⟨xs, hxs, row⟩ := Statement.encoding_eq_ok_iff.1 he
    have hl : (s.reports line xs).length ≤ e.fields.length := Statement.length_reports hxs row
    refine ⟨xs, hxs, ?_, fun d => Statement.mem_reports_iff_limits, ?_, ?_, ?_, ?_⟩
    · rw [← Statement.overflows_eq_reports hxs row]
    -- what follows from the operands alone
    · intro hm n column
      exact Operand.report?_checked hm line xs n column
    · rintro hm r n rfl
      exact Statement.reports_load_number row hm
    · exact Nat.le_trans hl e.length_fields_le
    · intro h2
      rcases row.eq_of_two_fields with h1 | hr
      · omega
      · exact hr

/-- `LD (IX+200),300`, whose both fields overflow. -/
def Statement.overflowing : Statement :=
  ⟨.LD, 0, [.address [.leaf (.word (.indexPair .IX)) 4, .leaf (.operator .plus) 6, .leaf (.immediate 200) 7] 3,
    .leaf (.immediate 300) 12]⟩

theorem Encoder.z80_reports_overflowing : ∃ out', z80 1 .overflowing .empty = (.ok (), out') ∧
    out'.reports.map (fun d => (d.column, d.message)) =
      [(3, "200 overflows signed 8-bit offset of LD"), (12, "300 overflows 8-bit immediate of LD")] := by
  refine ⟨_, rfl, ?_⟩
  obtain ⟨xs, hxs, hr, -⟩ := (Encoder.z80_reports 1 .overflowing .empty).2 _ rfl
  cases hxs
  rw [hr]
  decide +kernel

end Z80Asm
