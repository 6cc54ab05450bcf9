/-
Operands that differ in the values of their fields alone. Such operands have the same cell of the opcode map
(`Row.sameCell`): a value goes into the bytes of its field and nowhere else, except that the number in a
load of a register has to fit.
-/
import Z80Asm.Proofs.Field.Feed
import Z80Asm.Proofs.Field.Residue
import Z80Asm.Proofs.OpcodeMap.Cell
import Mathlib.Data.List.Forall2

namespace Z80Asm

namespace Operand

/-- An operand with another value in the place of its own, if it feeds a field. A displacement may also be
written or left out. -/
inductive Alike : Option Width → Operand → Operand → Prop
  | same (w : Option Width) (x : Operand) : Alike w x x
  | immediate (w : Width) (n n' : Int32) : Alike (some w) (.immediate n) (.immediate n')
  | numeric (w : Width) (n : Int32) (d : Option Int32) (n' : Int32) :
    Alike (some w) (.numeric n d) (.numeric n' none)
  | displaced (w : Width) (i : IndexPair) (d d' : Option Int32) : Alike (some w) (.indexed i d) (.indexed i d')

/-- An operand without its value: what it shares with the operands that differ from it in their value alone. -/
def shape (x : Operand) : Operand := x.withValue 0

theorem shape_withValue (x : Operand) (v : Int32) : (x.withValue v).shape = x.shape := by
  cases x with
  | address a =>
    obtain ⟨base, d⟩ := a
    cases base <;> rfl
  | _ => rfl

theorem value_withValue {m : Mnemonic} {xs : List Operand} {x : Operand} {w : Width} (hw : m.width? xs x = some w)
    (v : Int32) : (x.withValue v).value = v := by
  cases x with
  | immediate n => rfl
  | address a =>
    obtain ⟨base, d⟩ := a
    cases base with
    | immediate n => rfl
    | indexPair i => rfl
    | _ => cases hw
  | _ => cases hw

/-- Reading a statement leaves no displacement after a number. -/
theorem displacement_of_ofNode {node : Node} {n : Int32} {d : Option Int32} (h : ofNode node = .ok (.numeric n d)) :
    d = none := by
  unfold ofNode at h
  split at h
  · rename_i w _
    cases w <;> cases h
  · cases h
  · cases h
  · cases h
  · split at h
    · rename_i a ha
      cases h
      unfold Address.ofNodes? at ha
      split at ha
      · obtain ⟨b, -, hb⟩ := Option.map_eq_some_iff.1 ha
        cases hb; rfl
      · split at ha
        · cases ha
        · rename_i hn _ _
          cases ha
          exact (hn n rfl).elim
        · cases ha
      · cases ha
    · cases h

theorem Alike.of_shape {m : Mnemonic} {xs : List Operand} {x y : Operand} {w : Width} {node : Node}
    (hw : m.width? xs x = some w) (hn : ofNode node = .ok y) (h : y.shape = x.shape) : Alike (some w) x y := by
  cases x with
  | immediate n =>
    cases y with
    | immediate n' => exact .immediate w n n'
    | address a =>
      obtain ⟨base, d⟩ := a
      cases base <;> cases h
    | _ => cases h
  | address a =>
    obtain ⟨base, d⟩ := a
    cases y with
    | address a' =>
      obtain ⟨base', d'⟩ := a'
      cases base with
      | immediate n =>
        cases base' with
        | immediate n' =>
          obtain rfl := displacement_of_ofNode hn
          exact .numeric w n d n'
        | _ => cases h
      | indexPair i =>
        cases base' with
        | indexPair i' => cases h; exact .displaced w i d d'
        | _ => cases h
      | _ => cases hw
    | _ => cases base <;> cases h
  | _ => cases hw

theorem Alike.withValue {m : Mnemonic} {xs : List Operand} {x : Operand} {w : Width} (hw : m.width? xs x = some w)
    (v : Int32) : Alike (some w) x (x.withValue v) := by
  cases x with
  | immediate n => exact .immediate w n v
  | address a =>
    obtain ⟨base, d⟩ := a
    cases base with
    | immediate n => exact .numeric w n d v
    | indexPair i => exact .displaced w i d (some v)
    | _ => cases hw
  | _ => cases hw

theorem Alike.register {w : Option Width} {r : Register} {y : Operand} (h : Alike w (.register r) y) :
    y = .register r := by
  cases h; rfl

theorem Alike.number {w : Option Width} {n : Int32} {y : Operand} (h : Alike w (.immediate n) y) :
    ∃ n', y = .immediate n' := by
  cases h with
  | same => exact ⟨n, rfl⟩
  | immediate _ _ n' => exact ⟨n', rfl⟩

theorem Alike.indexed {w : Option Width} {i : IndexPair} {d : Option Int32} {y : Operand}
    (h : Alike w (.indexed i d) y) : ∃ d', y = .indexed i d' := by
  cases h with
  | same => exact ⟨d, rfl⟩
  | displaced _ _ _ d' => exact ⟨d', rfl⟩

end Operand

namespace Mnemonic

/-- Lists of operands that differ in the values of fields alone. -/
def Alike (m : Mnemonic) (xs ys : List Operand) : Prop :=
  List.Forall₂ (fun x y => Operand.Alike (m.width? xs x) x y) xs ys

/-- The operands leave no number for a register that does not fit. -/
def Loadable (m : Mnemonic) (operands : List Operand) : Prop :=
  ∀ r n, m = .LD → operands = [.register r, .immediate n] → Width.u8.fits n = true

theorem loadable_of_fits {m : Mnemonic} {operands : List Operand}
    (h : ∀ x ∈ operands, ∀ w, m.width? operands x = some w → w.fits x.value = true) : m.Loadable operands := by
  rintro r n rfl rfl
  exact h (.immediate n) (List.mem_cons_of_mem _ List.mem_cons_self) .u8 rfl

end Mnemonic

theorem forall₂_singleton {α β : Type} {R : α → β → Prop} {a : α} {l : List β} (h : List.Forall₂ R [a] l) :
    ∃ b, R a b ∧ l = [b] := by
  obtain ⟨b, _, hb, hn, rfl⟩ := List.forall₂_cons_left_iff.1 h
  obtain rfl := List.forall₂_nil_left_iff.1 hn
  exact ⟨b, hb, rfl⟩

theorem forall₂_pair {α β : Type} {R : α → β → Prop} {a b : α} {l : List β} (h : List.Forall₂ R [a, b] l) :
    ∃ c d, R a c ∧ R b d ∧ l = [c, d] := by
  obtain ⟨c, _, hc, hl, rfl⟩ := List.forall₂_cons_left_iff.1 h
  obtain ⟨d, hd, rfl⟩ := forall₂_singleton hl
  exact ⟨c, d, hc, hd, rfl⟩

theorem Mnemonic.Alike.refl (m : Mnemonic) (xs : List Operand) : m.Alike xs xs :=
  List.forall₂_same.2 fun x _ => .same _ x

/-- Widths depend on no values. -/
theorem Mnemonic.Alike.width?_eq {m : Mnemonic} {xs ys : List Operand} (h : m.Alike xs ys) :
    m.width? ys = m.width? xs := by
  have hn : m.numberWidth? ys = m.numberWidth? xs := by
    cases h with
    | nil => rfl
    | @cons x y xs ys hxy _ =>
      generalize m.width? (x :: xs) x = w at hxy
      cases hxy with
      | same => cases x <;> cases m <;> rfl
      | _ => cases m <;> rfl
  funext x
  cases x with
  | immediate n => exact hn
  | _ => rfl

theorem Mnemonic.Alike.operandBytes_eq {m : Mnemonic} {xs ys : List Operand} (h : m.Alike xs ys) :
    m.operandBytes ys = m.operandBytes xs := by
  funext x
  rw [Mnemonic.operandBytes, Mnemonic.operandBytes, h.width?_eq]

theorem Operand.Alike.width?_eq {m : Mnemonic} {xs : List Operand} {x y : Operand} (h : Alike (m.width? xs x) x y) :
    m.width? xs y = m.width? xs x := by
  generalize hw : m.width? xs x = w at h
  cases h <;> exact hw

theorem Operand.Alike.length_operandBytes_eq {m : Mnemonic} {xs : List Operand} {x y : Operand}
    (h : Alike (m.width? xs x) x y) : (m.operandBytes xs y).length = (m.operandBytes xs x).length := by
  rw [Mnemonic.operandBytes, Mnemonic.operandBytes, h.width?_eq]
  cases m.width? xs x with
  | none => rfl
  | some w => exact (Width.length_bytes w y.value).trans (Width.length_bytes w x.value).symm

theorem Mnemonic.Alike.length_eq {m : Mnemonic} {xs ys : List Operand} (h : m.Alike xs ys) :
    (ys.flatMap (m.operandBytes ys)).length = (xs.flatMap (m.operandBytes xs)).length := by
  rw [h.operandBytes_eq]
  -- the widths are those of all operands while the induction goes through them one by one
  suffices ∀ as bs, List.Forall₂ (fun x y => Operand.Alike (m.width? xs x) x y) as bs →
      (bs.flatMap (m.operandBytes xs)).length = (as.flatMap (m.operandBytes xs)).length from this xs ys h
  intro as bs hab
  induction hab with
  | nil => rfl
  | cons hxy _ ih =>
    rw [List.flatMap_cons, List.flatMap_cons, List.length_append, List.length_append, hxy.length_operandBytes_eq, ih]

/-! ## Rows of alike operands -/

/-- Among the rows `P` is one for `y`, in the cell of `e`. -/
def Encoding.SameCell {α : Type} (e : Encoding) (P : α → Encoding → Prop) (y : α) : Prop :=
  ∃ f, P y f ∧ f.cell = e.cell

theorem Encoding.SameCell.of_row {α : Type} {P : α → Encoding → Prop} {y : α} {e f : Encoding}
    (row : P y f) (cell : f.cell = e.cell) : e.SameCell P y := ⟨f, row, cell⟩

theorem Encoding.SameCell.imp {α β : Type} {P : α → Encoding → Prop} {Q : β → Encoding → Prop} {y : α} {z : β}
    {e : Encoding} (h : e.SameCell P y) (hPQ : ∀ f, P y f → Q z f) : e.SameCell Q z := by
  obtain ⟨f, row, cell⟩ := h
  exact ⟨f, hPQ f row, cell⟩

theorem Load.Row.sameCell {xs ys : List Operand} {e : Encoding} (h : Row xs e)
    (hxy : Mnemonic.LD.Alike xs ys) (fits : Mnemonic.LD.Loadable ys) : e.SameCell Row ys := by
  cases h
  -- the one row that checks its number; in all others a new value changes nothing but a field
  case number r n _ =>
    obtain ⟨y, z, hy, hz, rfl⟩ := forall₂_pair hxy
    cases hy
    cases hz with
    | same => exact ⟨_, .number r n (fits r n rfl rfl), rfl⟩
    | immediate _ _ n' => exact ⟨_, .number r n' (fits r n' rfl rfl), rfl⟩
  all_goals
    obtain ⟨y, z, hy, hz, rfl⟩ := forall₂_pair hxy
    cases hy <;> cases hz <;> apply Encoding.SameCell.of_row <;> constructor <;> assumption

theorem Alu.Source.sameCell {op : Alu} {i : Nat} {w : Option Width} {x y : Operand} {e : Encoding}
    (h : Source op i x e) (hxy : Operand.Alike w x y) : e.SameCell (Source op i) y := by
  cases h <;> cases hxy <;> apply Encoding.SameCell.of_row <;> constructor

theorem Alu.Row.sameCell {op : Alu} {xs ys : List Operand} {e : Encoding} (h : Row op xs e)
    (hxy : op.mnemonic.Alike xs ys) : e.SameCell (Row op) ys := by
  cases h with
  | short implicit source =>
    obtain ⟨y, hy, rfl⟩ := forall₂_singleton hxy
    exact (source.sameCell hy).imp fun _ => .short implicit
  | long source =>
    obtain ⟨a, y, ha, hy, rfl⟩ := forall₂_pair hxy
    obtain rfl := ha.register
    exact (source.sameCell hy).imp fun _ => .long
  | _ =>
    obtain ⟨y, z, hy, hz, rfl⟩ := forall₂_pair hxy
    cases hy; cases hz
    apply Encoding.SameCell.of_row <;> constructor <;> assumption

theorem Step.Row.sameCell {s : Step} {xs ys : List Operand} {e : Encoding} (h : Row s xs e)
    (hxy : s.mnemonic.Alike xs ys) : e.SameCell (Row s) ys := by
  cases h
  all_goals
    obtain ⟨y, hy, rfl⟩ := forall₂_singleton hxy
    generalize s.mnemonic.width? _ _ = w at hy
    cases hy <;> apply Encoding.SameCell.of_row <;> constructor

theorem BitPage.Target.sameCell {f : Operand → Option Width} {opcode : UInt8} {first : Nat}
    {xs ys : List Operand} {e : Encoding} (h : Target opcode first xs e)
    (hxy : List.Forall₂ (fun x y => Operand.Alike (f x) x y) xs ys) : e.SameCell (Target opcode first) ys := by
  cases h with
  | copy i d r =>
    obtain ⟨y, z, hy, hz, rfl⟩ := forall₂_pair hxy
    obtain rfl := hz.register
    obtain ⟨d', rfl⟩ := hy.indexed
    exact ⟨_, .copy i d' r, rfl⟩
  | _ =>
    obtain ⟨y, hy, rfl⟩ := forall₂_singleton hxy
    generalize f _ = w at hy
    cases hy <;> apply Encoding.SameCell.of_row <;> constructor

/-- The index of a bit is no field: it stays as it is. -/
theorem BitAccess.Row.sameCell {b : BitAccess} {xs ys : List Operand} {e : Encoding} (h : Row b xs e)
    (hxy : b.mnemonic.Alike xs ys) : e.SameCell (Row b) ys := by
  obtain ⟨index, row⟩ := h
  obtain ⟨y, ys, hy, hys, rfl⟩ := List.forall₂_cons_left_iff.1 hxy
  obtain rfl : y = .immediate _ := by cases b <;> cases hy <;> rfl
  exact (row.sameCell hys).imp fun _ => .intro index

theorem Branch.Slot.alike {x y : Operand} {c : Condition} {w : Option Width} (h : Slot x c)
    (hxy : Operand.Alike w x y) : Slot y c := by
  cases h <;> cases hxy <;> constructor

theorem Branch.Absolute.sameCell {f : Operand → Option Width} {always onCondition : UInt8}
    {xs ys : List Operand} {e : Encoding} (h : Absolute always onCondition xs e)
    (hxy : List.Forall₂ (fun x y => Operand.Alike (f x) x y) xs ys) :
    e.SameCell (Absolute always onCondition) ys := by
  cases h with
  | always nn =>
    obtain ⟨y, hy, rfl⟩ := forall₂_singleton hxy
    obtain ⟨nn', rfl⟩ := hy.number
    exact ⟨_, .always nn', rfl⟩
  | conditional slot nn =>
    obtain ⟨y, z, hy, hz, rfl⟩ := forall₂_pair hxy
    obtain ⟨nn', rfl⟩ := hz.number
    exact ⟨_, .conditional (slot.alike hy) nn', rfl⟩

theorem Branch.Jump.sameCell {xs ys : List Operand} {e : Encoding} (h : Jump xs e)
    (hxy : Mnemonic.JP.Alike xs ys) : e.SameCell Jump ys := by
  cases h with
  | absolute row => exact (row.sameCell hxy).imp fun _ => .absolute
  | hl =>
    obtain ⟨y, hy, rfl⟩ := forall₂_singleton hxy
    cases hy
    exact ⟨_, .hl, rfl⟩
  | index i =>
    obtain ⟨y, hy, rfl⟩ := forall₂_singleton hxy
    cases hy
    exact ⟨_, .index i, rfl⟩

theorem Branch.Relative.sameCell {xs ys : List Operand} {e : Encoding} (h : Relative xs e)
    (hxy : Mnemonic.JR.Alike xs ys) : e.SameCell Relative ys := by
  cases h with
  | always d =>
    obtain ⟨y, hy, rfl⟩ := forall₂_singleton hxy
    obtain ⟨d', rfl⟩ := hy.number
    exact ⟨_, .always d', rfl⟩
  | conditional slot flag d =>
    obtain ⟨y, z, hy, hz, rfl⟩ := forall₂_pair hxy
    obtain ⟨d', rfl⟩ := hz.number
    exact ⟨_, .conditional (slot.alike hy) flag d', rfl⟩

theorem Branch.Loop.sameCell {xs ys : List Operand} {e : Encoding} (h : Loop xs e)
    (hxy : Mnemonic.DJNZ.Alike xs ys) : e.SameCell Loop ys := by
  obtain ⟨d⟩ := h
  obtain ⟨y, hy, rfl⟩ := forall₂_singleton hxy
  obtain ⟨d', rfl⟩ := hy.number
  exact ⟨_, .intro d', rfl⟩

theorem Branch.Return.sameCell {xs ys : List Operand} {e : Encoding} (h : Return xs e)
    (hxy : Mnemonic.RET.Alike xs ys) : e.SameCell Return ys := by
  cases h with
  | always =>
    obtain rfl := List.forall₂_nil_left_iff.1 hxy
    exact ⟨_, .always, rfl⟩
  | conditional slot =>
    obtain ⟨y, hy, rfl⟩ := forall₂_singleton hxy
    exact ⟨_, .conditional (slot.alike hy), rfl⟩

theorem Port.Input.sameCell {xs ys : List Operand} {e : Encoding} (h : Input xs e)
    (hxy : Mnemonic.IN.Alike xs ys) : e.SameCell Input ys := by
  cases h with
  | flags =>
    obtain ⟨y, hy, rfl⟩ := forall₂_singleton hxy
    cases hy
    exact ⟨_, .flags, rfl⟩
  | _ =>
    obtain ⟨y, z, hy, hz, rfl⟩ := forall₂_pair hxy
    cases hy
    cases hz <;> apply Encoding.SameCell.of_row <;> constructor

theorem Port.Output.sameCell {xs ys : List Operand} {e : Encoding} (h : Output xs e)
    (hxy : Mnemonic.OUT.Alike xs ys) : e.SameCell Output ys := by
  cases h
  all_goals
    obtain ⟨y, z, hy, hz, rfl⟩ := forall₂_pair hxy
    cases hy <;> cases hz <;> apply Encoding.SameCell.of_row <;> constructor

/-- Where no operand feeds a field, alike operands are the same. -/
theorem Operand.eq_of_forall₂_alike {f : Operand → Option Width} {xs ys : List Operand}
    (h : List.Forall₂ (fun x y => Alike (f x) x y) xs ys) (hx : ∀ x ∈ xs, f x = none) : ys = xs := by
  induction h with
  | nil => rfl
  | cons hxy _ ih =>
    rw [hx _ List.mem_cons_self] at hxy
    cases hxy
    rw [ih fun x hm => hx x (List.mem_cons_of_mem _ hm)]

theorem Row.sameCell_of_width?_eq_none {m : Mnemonic} {xs ys : List Operand} {e : Encoding} (h : Row m xs e)
    (hxy : m.Alike xs ys) (hx : ∀ x ∈ xs, m.width? xs x = none) : e.SameCell (Row m) ys := by
  obtain rfl := Operand.eq_of_forall₂_alike hxy hx
  exact ⟨e, h, rfl⟩

/-- Operands that differ from those of a row in the values of fields alone have a row in the same cell. -/
theorem Row.sameCell {m : Mnemonic} {xs ys : List Operand} {e : Encoding} (h : Row m xs e)
    (hxy : m.Alike xs ys) (fits : m.Loadable ys) : e.SameCell (Row m) ys := by
  cases h with
  | load row => exact (row.sameCell hxy fits).imp fun _ => .load
  | alu op row => exact (row.sameCell hxy).imp fun _ => .alu op
  | step s row => exact (row.sameCell hxy).imp fun _ => .step s
  | rotation r row => exact (row.sameCell hxy).imp fun _ => .rotation r
  | bit b row => exact (row.sameCell hxy).imp fun _ => .bit b
  | jump row => exact (row.sameCell hxy).imp fun _ => .jump
  | relative row => exact (row.sameCell hxy).imp fun _ => .relative
  | loop row => exact (row.sameCell hxy).imp fun _ => .loop
  | call row => exact (row.sameCell hxy).imp fun _ => .call
  | ret row => exact (row.sameCell hxy).imp fun _ => .ret
  | input row => exact (row.sameCell hxy).imp fun _ => .input
  | output row => exact (row.sameCell hxy).imp fun _ => .output
  | implied opcode => exact (Row.implied opcode).sameCell_of_width?_eq_none hxy nofun
  -- no operand of the rows that are left feeds a field
  | restart row =>
    refine (Row.restart row).sameCell_of_width?_eq_none hxy ?_
    cases row
    simp [Mnemonic.width?, Mnemonic.numberWidth?]
  | push row =>
    refine (Row.push row).sameCell_of_width?_eq_none hxy ?_
    cases row <;> simp [Mnemonic.width?]
  | pop row =>
    refine (Row.pop row).sameCell_of_width?_eq_none hxy ?_
    cases row <;> simp [Mnemonic.width?]
  | exchange row =>
    refine (Row.exchange row).sameCell_of_width?_eq_none hxy ?_
    cases row <;> simp [Mnemonic.width?, Mnemonic.addressWidth?]
  | interruptMode row =>
    refine (Row.interruptMode row).sameCell_of_width?_eq_none hxy ?_
    cases row <;> simp [Mnemonic.width?, Mnemonic.numberWidth?]

end Z80Asm
