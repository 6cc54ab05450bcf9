/-
Values that a field does not tell apart. Another value in the place of an operand's own leaves the bytes as
they are exactly if it is congruent to it, and a congruent value in range takes the report of that operand
away and no other (`Encoder.z80_replace`). Only a load of a number to a register checks that it fits.
-/
import Z80Asm.Proofs.Assembler.Overflow
import Z80Asm.Proofs.Field.Alike

namespace Z80Asm

/-! ## Lists with one entry replaced -/

theorem forall₂_set_set {α β : Type} {R : α → β → Prop} {a : α} {b : β} (hab : R a b) :
    ∀ {as : List α} {bs : List β} (i : Nat), List.Forall₂ R as bs → List.Forall₂ R (as.set i a) (bs.set i b)
  | [], [], _, _ => .nil
  | _ :: _, _ :: _, 0, .cons _ h => .cons hab h
  | _ :: _, _ :: _, i + 1, .cons h0 h => .cons h0 (forall₂_set_set hab i h)

theorem zip_set_set {α β : Type} (a : α) (b : β) :
    ∀ (as : List α) (bs : List β) (i : Nat), (as.set i a).zip (bs.set i b) = (as.zip bs).set i (a, b)
  | [], _, _ => by simp
  | _ :: _, [], _ => by simp
  | _ :: _, _ :: _, 0 => rfl
  | a' :: as, b' :: bs, i + 1 => by
    simp only [List.set_cons_succ, List.zip_cons_cons, zip_set_set a b as bs i]

theorem filterMap_set_of_none {α β : Type} {f : α → Option β} {a : α} (ha : f a = none) :
    ∀ (as : List α) (i : Nat), (as.set i a).filterMap f = (as.eraseIdx i).filterMap f
  | [], _ => rfl
  | _ :: as, 0 => by rw [List.set_cons_zero, List.filterMap_cons_none ha, List.eraseIdx_cons_zero]
  | a' :: as, i + 1 => by
    rw [List.set_cons_succ, List.eraseIdx_cons_succ, List.filterMap_cons, List.filterMap_cons,
      filterMap_set_of_none ha as i]

theorem filterMap_set {α β : Type} {f : α → Option β} {as : List α} {i : Nat} (h : i < as.length) (a : α) :
    (as.set i a).filterMap f = (as.take i).filterMap f ++ ((f a).toList ++ (as.drop (i + 1)).filterMap f) := by
  rw [List.set_eq_take_append_cons_drop, if_pos h, List.filterMap_append, List.filterMap_cons]
  cases f a <;> rfl

theorem flatMap_set_iff {α β : Type} {f : α → List β} {a b : α} :
    ∀ {as : List α} {i : Nat}, as[i]? = some a → ((as.set i b).flatMap f = as.flatMap f ↔ f b = f a)
  | _ :: as, 0, h => by
    cases h
    rw [List.set_cons_zero, List.flatMap_cons, List.flatMap_cons, List.append_left_inj]
  | a' :: as, i + 1, h => by
    rw [List.set_cons_succ, List.flatMap_cons, List.flatMap_cons, List.append_right_inj]
    exact flatMap_set_iff (show as[i]? = some a from h)

/-! ## Operands with one replaced -/

theorem Operand.ofNodes_set {nodes : List Node} {xs : List Operand} {node : Node} {y : Operand}
    (hxs : ofNodes nodes = .ok xs) (hy : ofNode node = .ok y) (i : Nat) :
    ofNodes (nodes.set i node) = .ok (xs.set i y) :=
  ofNodes_eq_ok_iff.2 (forall₂_set_set (R := fun node x => ofNode node = .ok x) hy i (ofNodes_eq_ok_iff.1 hxs))

/-- The operands of a load of a number to a register. -/
def Mnemonic.LoadsNumber (m : Mnemonic) (xs : List Operand) : Prop :=
  m = .LD ∧ ∃ r n, xs = [.register r, .immediate n]

/-- The operand of a field that was replaced in a load of a number to a register is that number. -/
theorem Mnemonic.eq_of_set_eq {m : Mnemonic} {xs : List Operand} {i : Nat} {x y : Operand} {w : Width}
    {r : Register} {n : Int32} (hx : xs[i]? = some x) (hw : m.width? xs x = some w) (hxy : Operand.Alike (some w) x y)
    (h : xs.set i y = [.register r, .immediate n]) :
    i = 1 ∧ y = .immediate n ∧ ∃ n', xs = [.register r, .immediate n'] := by
  have hl : xs.length = 2 := by rw [← List.length_set (i := i) (a := y), h]; rfl
  obtain ⟨a, b, rfl⟩ := List.length_eq_two.1 hl
  match i with
  | 0 =>
    cases hx; cases h
    cases hxy
    cases hw
  | 1 =>
    cases hx; cases h
    cases hxy with
    | same => exact ⟨rfl, rfl, n, rfl⟩
    | immediate _ n' => exact ⟨rfl, rfl, n', rfl⟩
  | i + 2 => cases hx

theorem Mnemonic.Alike.set {m : Mnemonic} {xs : List Operand} {i : Nat} {x y : Operand} {w : Width}
    (hx : xs[i]? = some x) (hw : m.width? xs x = some w) (hxy : Operand.Alike (some w) x y) :
    m.Alike xs (xs.set i y) := by
  obtain ⟨hi, rfl⟩ := List.getElem?_eq_some_iff.1 hx
  rw [← hw] at hxy
  have h := forall₂_set_set (R := fun x y => Operand.Alike (m.width? xs x) x y) hxy i (Mnemonic.Alike.refl m xs)
  rwa [List.set_getElem_self] at h

theorem Mnemonic.loadable_set {m : Mnemonic} {xs : List Operand} {i : Nat} {x y : Operand} {w : Width}
    (hx : xs[i]? = some x) (hw : m.width? xs x = some w) (hxy : Operand.Alike (some w) x y)
    (fits : m.LoadsNumber xs → Width.u8.fits y.value = true) : m.Loadable (xs.set i y) := by
  intro r n hm h
  obtain ⟨-, rfl, n', rfl⟩ := Mnemonic.eq_of_set_eq hx hw hxy h
  exact fits ⟨hm, r, n', rfl⟩

/-- The bytes with one value replaced are the same exactly if the values are congruent. -/
theorem Row.set {m : Mnemonic} {xs : List Operand} {e : Encoding} {i : Nat} {x y : Operand} {w : Width}
    (h : Row m xs e) (hx : xs[i]? = some x) (hw : m.width? xs x = some w) (hxy : Operand.Alike (some w) x y)
    (fits : m.LoadsNumber xs → Width.u8.fits y.value = true) :
    ∃ f, Row m (xs.set i y) f ∧ (f.bytes = e.bytes ↔ w.Congruent x.value y.value) := by
  have alike := Mnemonic.Alike.set hx hw hxy
  obtain ⟨f, row, cell⟩ := h.sameCell alike (Mnemonic.loadable_set hx hw hxy fits)
  have hy : m.width? xs y = some w := (Operand.Alike.width?_eq (hw ▸ hxy)).trans hw
  refine ⟨f, row, ?_⟩
  -- in the same cell, the bytes differ where those of the replaced operand do
  rw [row.bytes_eq, h.bytes_eq, cell, Cell.bytes_inj, row.tail_eq, h.tail_eq, alike.operandBytes_eq,
    flatMap_set_iff hx, Mnemonic.operandBytes, Mnemonic.operandBytes, hw, hy]
  exact eq_comm.trans Width.bytes_eq_iff

/-! ## Statements with a node replaced -/

/-- A node that writes an operand with a value in the place of its own. -/
def Operand.WrittenAs (x : Operand) (v : Int32) (node : Node) : Prop :=
  ∃ y, ofNode node = .ok y ∧ y.shape = x.shape ∧ y.value = v

/-- The statement with another node in the place of an operand. -/
def Statement.replace (s : Statement) (i : Nat) (node : Node) : Statement := { s with operands := s.operands.set i node }

theorem Operand.exists_writtenAs {m : Mnemonic} {xs : List Operand} {x : Operand} {w : Width}
    (hw : m.width? xs x = some w) (v : Int32) : ∃ node, x.WrittenAs v node :=
  ⟨(x.withValue v).node, x.withValue v, ofNode_node (isWritable_withValue x v), shape_withValue x v, value_withValue hw v⟩

/-- A displacement is written with either sign, also the least one, which has no negative. -/
theorem Operand.exists_signed (p : IndexPair) (d : Option Int32) {o : Operator} (ho : o ∈ [.plus, .minus]) (v : Int32) :
    ∃ n, o.signed? n = some v ∧ ∀ c c₀ c₁ c₂, (Operand.indexed p d).WrittenAs v
      (.address [.leaf (.word (.indexPair p)) c₀, .leaf (.operator o) c₁, .leaf (.immediate n) c₂] c) := by
  simp only [List.mem_cons, List.not_mem_nil, or_false] at ho
  rcases ho with rfl | rfl
  · exact ⟨v, rfl, fun c c₀ c₁ c₂ => ⟨.indexed p (some v), rfl, rfl, rfl⟩⟩
  · have hv : Operator.minus.signed? (-v) = some v := by rw [Operator.signed?, Int32.neg_neg]
    refine ⟨-v, hv, fun c c₀ c₁ c₂ => ⟨.indexed p (some v), ?_, rfl, rfl⟩⟩
    simp [ofNode, Address.ofNodes?, Base.ofLeaf?, hv]

theorem Statement.encoding_replace {s : Statement} {xs : List Operand} {e : Encoding} {i : Nat} {x y : Operand}
    {w : Width} {node : Node} (hxs : Operand.ofNodes s.operands = .ok xs) (row : Row s.mnemonic xs e)
    (hx : xs[i]? = some x) (hw : s.mnemonic.width? xs x = some w) (hxy : Operand.Alike (some w) x y)
    (hy : Operand.ofNode node = .ok y) (fits : s.mnemonic.LoadsNumber xs → Width.u8.fits y.value = true) :
    ∃ f, (s.replace i node).encoding = .ok f ∧ (f.bytes = e.bytes ↔ w.Congruent x.value y.value) := by
  obtain ⟨f, row', hf⟩ := row.set hx hw hxy fits
  exact ⟨f, encoding_eq_ok_iff.2 ⟨_, Operand.ofNodes_set hxs hy i, row'⟩, hf⟩

/-- A load of a number to a register that does not fit fails at the number. -/
theorem Statement.encoding_replace_outOfRange {s : Statement} {xs : List Operand} {i : Nat} {x y : Operand}
    {w : Width} {node : Node} (hxs : Operand.ofNodes s.operands = .ok xs) (hx : xs[i]? = some x)
    (hw : s.mnemonic.width? xs x = some w) (hxy : Operand.Alike (some w) x y) (hy : Operand.ofNode node = .ok y)
    (load : s.mnemonic.LoadsNumber xs) (fits : Width.u8.fits y.value = false) :
    (s.replace i node).encoding = .error ⟨.LD, .outOfRange y.value, node.column⟩ := by
  obtain ⟨hm, r, n, rfl⟩ := load
  match i with
  | 0 => cases hx; cases hw
  | 1 =>
    cases hx
    obtain ⟨n', rfl⟩ := hxy.number
    have he : s.mnemonic.encode [.register r, .immediate n'] = .error (.outOfRange n') := by
      rw [hm]
      exact Load.encode_number_outOfRange fits
    have hc : (s.replace 1 node).columnOf 1 = node.column := by
      have hl : 1 < s.operands.length := by rw [Operand.length_of_ofNodes hxs]; exact Nat.one_lt_two
      exact columnOf_eq (List.getElem?_set_self hl)
    rw [encoding_of_fault (s := s.replace 1 node) (Operand.ofNodes_set hxs hy 1) he, failure, Fault.operand?,
      Option.map_some, Option.getD_some, hc]
    exact congrArg (fun m => Except.error (⟨m, .outOfRange n', node.column⟩ : EvalError)) hm
  | i + 2 => cases hx

/-- The reports without that of an operand whose value fits. -/
theorem Statement.reports_replace {line : Nat} {s : Statement} {xs : List Operand} {i : Nat} {x y : Operand}
    {w : Width} {node : Node} (hx : xs[i]? = some x) (hw : s.mnemonic.width? xs x = some w)
    (hxy : Operand.Alike (some w) x y) (fits : w.fits y.value = true) :
    (s.replace i node).reports line (xs.set i y) = ((s.operands.zip xs).eraseIdx i).filterMap fun (node, x) =>
      x.report? line s.mnemonic xs node.column := by
  have hy : s.mnemonic.width? xs y = some w := (Operand.Alike.width?_eq (hw ▸ hxy)).trans hw
  have hn : y.report? line s.mnemonic xs node.column = none := by
    rw [Operand.report?, hy, Option.bind_some, if_pos fits]
  rw [reports, replace, zip_set_set]
  simp only [Operand.report?, (Mnemonic.Alike.set hx hw hxy).width?_eq]
  exact filterMap_set_of_none (a := (node, y)) hn _ i

/-! ## The encoder -/

/-- An operand that feeds a field of an encoded statement, written with another value. If the values are
congruent, the bytes are the same, except that a load of a number to a register fails where the number does
not fit; and if the new value is in range, its report is gone and the others are as they were. A value in
range always exists, and each one can be written, a displacement with either sign. If the bytes are the same,
the values are congruent. -/
theorem Encoder.z80_replace {line : Nat} {s : Statement} {out out' : Output} {xs : List Operand} {i : Nat}
    {x : Operand} {w : Width} (h : z80 line s out = (.ok (), out')) (hxs : Operand.ofNodes s.operands = .ok xs)
    (hx : xs[i]? = some x) (hw : s.mnemonic.width? xs x = some w) :
    (∀ v node, x.WrittenAs v node → w.Congruent x.value v →
      (s.mnemonic.LoadsNumber xs → Width.u8.fits v = false →
        z80 line (s.replace i node) out = (.error ⟨.LD, .outOfRange v, node.column⟩, out.clear)) ∧
      ((s.mnemonic.LoadsNumber xs → Width.u8.fits v = true) →
        ∃ out'', z80 line (s.replace i node) out = (.ok (), out'') ∧ out''.bytes = out'.bytes ∧
          (w.fits v = true → out'.reports = out.reports ++ s.reports line xs ∧
            out''.reports = out.reports ++ ((s.operands.zip xs).eraseIdx i).filterMap fun (node, x) =>
              x.report? line s.mnemonic xs node.column))) ∧
    (∃ v, w.Congruent x.value v ∧ w.fits v = true) ∧
    (∀ v, ∃ node, x.WrittenAs v node) ∧
    (∀ p d, x = .indexed p d → ∀ o ∈ [.plus, .minus], ∀ v, ∃ n, Operator.signed? o n = some v ∧
      ∀ c c₀ c₁ c₂, x.WrittenAs v
        (.address [.leaf (.word (.indexPair p)) c₀, .leaf (.operator o) c₁, .leaf (.immediate n) c₂] c)) ∧
    ∀ v node out'', x.WrittenAs v node → z80 line (s.replace i node) out = (.ok (), out'') →
      out''.bytes = out'.bytes → w.Congruent x.value v := by
  obtain ⟨e, he, rfl⟩ := encoding_of_z80 h
  have row := Statement.row_of_encoding hxs he
  refine ⟨?_, ⟨w.wrap x.value, ?_, Width.fits_wrap w x.value⟩, fun v => Operand.exists_writtenAs hw v, ?_, ?_⟩
  · rintro v node ⟨y, hy, shape, rfl⟩ congruent
    have hxy := Operand.Alike.of_shape hw hy shape
    constructor
    · intro load fits
      exact z80_of_error (Statement.encoding_replace_outOfRange hxs hx hw hxy hy load fits)
    · intro fits
      obtain ⟨f, hf, hb⟩ := Statement.encoding_replace hxs row hx hw hxy hy fits
      refine ⟨_, z80_of_encoding hf, hb.2 congruent, fun inRange => ⟨?_, ?_⟩⟩
      · rw [← Statement.overflows_eq_reports hxs row]
      · have row' := Statement.row_of_encoding (Operand.ofNodes_set hxs hy i) hf
        have reports : (s.replace i node).reports line (xs.set i y) = _ := Statement.reports_replace hx hw hxy inRange
        rw [← reports, ← Statement.overflows_eq_reports (Operand.ofNodes_set hxs hy i) row']
  · rw [← Width.bytes_eq_iff, Width.bytes_wrap]
  · rintro p d rfl o ho v
    exact Operand.exists_signed p d ho v
  · rintro v node out'' ⟨y, hy, shape, rfl⟩ h'' same
    have hxy := Operand.Alike.of_shape hw hy shape
    -- a success shows that a number loaded to a register has passed its check
    have fits : s.mnemonic.LoadsNumber xs → Width.u8.fits y.value = true := by
      intro load
      by_contra hf
      rw [z80_of_error (Statement.encoding_replace_outOfRange hxs hx hw hxy hy load (Bool.eq_false_iff.2 hf))] at h''
      cases h''
    obtain ⟨f, hf, hb⟩ := Statement.encoding_replace hxs row hx hw hxy hy fits
    rw [z80_of_encoding hf] at h''
    cases h''
    exact hb.1 same

/-- `LD (IX-56),300` for `LD (IX+200),300`. -/
theorem Encoder.z80_replace_overflowing : ∃ out'',
    z80 1 (Statement.overflowing.replace 0 (Operand.indexed .IX (some (-56))).node) .empty = (.ok (), out'') ∧
      out''.bytes = [0xDD, 0x36, 0xC8, 0x2C] ∧ out''.reports.map Diagnostic.column = [12] := by
  have written : (Operand.indexed .IX (some 200)).WrittenAs (-56) (Operand.indexed .IX (some (-56))).node :=
    ⟨.indexed .IX (some (-56)), rfl, rfl, rfl⟩
  have congruent : Width.s8.Congruent 200 (-56) := by unfold Width.Congruent; decide
  have replaced := @Encoder.z80_replace 1 .overflowing .empty _ [.indexed .IX (some 200), .immediate 300] 0 _ _ rfl rfl rfl rfl
  obtain ⟨out'', h, bytes, reports⟩ := (replaced.1 _ _ written congruent).2 (by rintro ⟨-, r, n, h⟩; cases h)
  refine ⟨out'', h, bytes, ?_⟩
  rw [(reports (by decide)).2]
  rfl

end Z80Asm
