/-
Canonical forms of instructions. The operand that an instruction implies is left out, a condition is a
condition and not a register, and every value is the one in range that has its bytes. The canonical form of
an instruction is an instruction with the same bytes (`Row.canonical`).
-/
import Z80Asm.Proofs.Field.Alike

namespace Z80Asm

namespace Mnemonic

/-! ## Operands that are written in two ways -/

/-- Whether the accumulator may be written as the target or left out. -/
def impliesTarget : Mnemonic → Bool
  | .SUB | .AND | .XOR | .OR | .CP => true
  | _ => false

/-- Whether the first operand can be a condition. -/
def testsFlags : Mnemonic → Bool
  | .RET | .JP | .CALL | .JR => true
  | _ => false

/-- The operands without the accumulator that is implied, and with the carry flag for the register of that
name. -/
def reduce (m : Mnemonic) : List Operand → List Operand
  | [.register .A, x] => bif m.impliesTarget then [x] else [.register .A, x]
  | .register .C :: xs => bif m.testsFlags then .condition .C :: xs else .register .C :: xs
  | xs => xs

theorem reduce_singleton {m : Mnemonic} {x : Operand} (h : m.testsFlags = false) : m.reduce [x] = [x] := by
  cases x with
  | register r =>
    cases r with
    | C => rw [reduce, h]; rfl
    | _ => rfl
  | _ => rfl

theorem reduce_eq_self {m : Mnemonic} {xs : List Operand} (target : m.impliesTarget = false)
    (flags : m.testsFlags = false) : m.reduce xs = xs := by
  unfold reduce
  split
  · rw [target]; rfl
  · rw [flags]; rfl
  · rfl

/-! ## Values -/

/-- The operands with other values in those that feed fields. -/
def mapValues (m : Mnemonic) (f : Width → Int32 → Int32) (xs : List Operand) : List Operand :=
  xs.map fun x =>
    match m.width? xs x with
    | some w => x.withValue (f w x.value)
    | none => x

/-- The canonical form of operands. A bare index register in parentheses is displaced by zero, if it feeds a
displacement; in the target of a jump it takes none. -/
def canonical (m : Mnemonic) (xs : List Operand) : List Operand := m.mapValues Width.wrap (m.reduce xs)

/-- The operands with zero for all values that feed fields. -/
def blank (m : Mnemonic) (xs : List Operand) : List Operand := m.mapValues (fun _ _ => 0) (m.reduce xs)

theorem alike_mapValues (m : Mnemonic) (f : Width → Int32 → Int32) (xs : List Operand) :
    m.Alike xs (m.mapValues f xs) := by
  refine List.forall₂_map_right_iff.2 (List.forall₂_same.2 fun x _ => ?_)
  cases hw : m.width? xs x with
  | none => exact .same none x
  | some w => exact .withValue hw _

theorem loadable_mapValues {m : Mnemonic} {f : Width → Int32 → Int32} (fits : ∀ (w : Width) (v : Int32), w.fits (f w v) = true)
    (xs : List Operand) : m.Loadable (m.mapValues f xs) := by
  refine loadable_of_fits fun y hy w hw => ?_
  rw [(alike_mapValues m f xs).width?_eq] at hw
  obtain ⟨x, -, rfl⟩ := List.mem_map.1 hy
  cases hx : m.width? xs x with
  | none =>
    simp only [hx] at hw
    cases hw
  | some w' =>
    simp only [hx, width?_withValue] at hw ⊢
    cases hw
    rw [Operand.value_withValue hx]
    exact fits w x.value

/-- Values that have the bytes of those in their place leave the bytes of all fields. -/
theorem flatMap_operandBytes_mapValues {m : Mnemonic} {f : Width → Int32 → Int32}
    (same : ∀ (w : Width) (v : Int32), w.bytes (f w v) = w.bytes v) (xs : List Operand) :
    (m.mapValues f xs).flatMap (m.operandBytes (m.mapValues f xs)) = xs.flatMap (m.operandBytes xs) := by
  rw [(alike_mapValues m f xs).operandBytes_eq]
  conv_lhs => rw [mapValues, List.flatMap_map]
  congr 1
  funext x
  cases hw : m.width? xs x with
  | none => rfl
  | some w =>
    rw [operandBytes, operandBytes, width?_withValue, hw]
    exact (congrArg w.bytes (Operand.value_withValue hw _)).trans (same w x.value)

end Mnemonic

/-! ## Canonical forms of instructions -/

theorem Alu.Source.exists_at {op : Alu} {i : Nat} {x : Operand} {e : Encoding} (h : Source op i x e) (j : Nat) :
    ∃ f, Source op j x f ∧ f.cell = e.cell ∧ f.tail = e.tail := by
  cases h with
  | register r => exact ⟨_, .register r, rfl, rfl⟩
  | half k => exact ⟨_, .half k, rfl, rfl⟩
  | hl => exact ⟨_, .hl, rfl, rfl⟩
  | indexed i d => exact ⟨_, .indexed i d, rfl, rfl⟩
  | number n => exact ⟨_, .number n, rfl, rfl⟩

/-- An operation on the accumulator with the target left out, where it may be. -/
theorem Alu.Row.reduce {op : Alu} {xs : List Operand} {e : Encoding} (h : Row op xs e) :
    ∃ f, Row op (op.mnemonic.reduce xs) f ∧ f.cell = e.cell ∧ f.tail = e.tail := by
  have flags : op.mnemonic.testsFlags = false := by cases op <;> rfl
  cases hi : op.mnemonic.impliesTarget with
  | false =>
    rw [Mnemonic.reduce_eq_self hi flags]
    exact ⟨e, h, rfl, rfl⟩
  | true =>
    -- without its target, the operand is the first and no longer the second
    cases h with
    | short implicit source =>
      rw [Mnemonic.reduce_singleton flags]
      exact ⟨e, .short implicit source, rfl, rfl⟩
    | long source =>
      obtain ⟨f, source', cell, tail⟩ := source.exists_at 0
      rw [Mnemonic.reduce, hi]
      exact ⟨f, .short (by cases op <;> cases hi <;> rfl) source', cell, tail⟩
    | _ => cases hi

theorem Branch.Slot.reduce {m : Mnemonic} {x : Operand} {c : Condition} (h : Slot x c) (flags : m.testsFlags = true)
    (xs : List Operand) : m.reduce (x :: xs) = .condition c :: xs := by
  cases h with
  | condition => rfl
  | carry => rw [Mnemonic.reduce, flags]; rfl

theorem Branch.Absolute.reduce {m : Mnemonic} {always onCondition : UInt8} {xs : List Operand} {e : Encoding}
    (h : Absolute always onCondition xs e) (flags : m.testsFlags = true) :
    Absolute always onCondition (m.reduce xs) e := by
  cases h with
  | always nn => exact .always nn
  | @conditional x c slot nn =>
    rw [slot.reduce flags]
    exact .conditional (.condition c) nn

theorem Row.reduce_of_plain {m : Mnemonic} {xs : List Operand} {e : Encoding} (h : Row m xs e)
    (target : m.impliesTarget = false) (flags : m.testsFlags = false) :
    ∃ f, Row m (m.reduce xs) f ∧ f.cell = e.cell ∧ f.tail = e.tail := by
  rw [Mnemonic.reduce_eq_self target flags]
  exact ⟨e, h, rfl, rfl⟩

/-- The reduced operands of a row have a row with the same bytes. -/
theorem Row.reduce {m : Mnemonic} {xs : List Operand} {e : Encoding} (h : Row m xs e) :
    ∃ f, Row m (m.reduce xs) f ∧ f.cell = e.cell ∧ f.tail = e.tail := by
  cases h with
  | alu op row =>
    obtain ⟨f, row', same⟩ := row.reduce
    exact ⟨f, .alu op row', same⟩
  | jump row =>
    refine ⟨e, .jump ?_, rfl, rfl⟩
    cases row with
    | absolute row => exact .absolute (row.reduce rfl)
    | hl => exact .hl
    | index i => exact .index i
  | call row => exact ⟨e, .call (row.reduce rfl), rfl, rfl⟩
  | relative row =>
    refine ⟨e, .relative ?_, rfl, rfl⟩
    cases row with
    | always d => exact .always d
    | @conditional x c slot flag d =>
      rw [slot.reduce rfl]
      exact .conditional (.condition c) flag d
  | ret row =>
    refine ⟨e, .ret ?_, rfl, rfl⟩
    cases row with
    | always => exact .always
    | @conditional x c slot =>
      rw [slot.reduce rfl]
      exact .conditional (.condition c)
  -- all others are written in one way
  | load row => exact (Row.load row).reduce_of_plain rfl rfl
  | step s row => exact (Row.step s row).reduce_of_plain (by cases s <;> rfl) (by cases s <;> rfl)
  | rotation r row => exact (Row.rotation r row).reduce_of_plain (by cases r <;> rfl) (by cases r <;> rfl)
  | bit b row => exact (Row.bit b row).reduce_of_plain (by cases b <;> rfl) (by cases b <;> rfl)
  | loop row => exact (Row.loop row).reduce_of_plain rfl rfl
  | restart row => exact (Row.restart row).reduce_of_plain rfl rfl
  | push row => exact (Row.push row).reduce_of_plain rfl rfl
  | pop row => exact (Row.pop row).reduce_of_plain rfl rfl
  | exchange row => exact (Row.exchange row).reduce_of_plain rfl rfl
  | input row => exact (Row.input row).reduce_of_plain rfl rfl
  | output row => exact (Row.output row).reduce_of_plain rfl rfl
  | interruptMode row => exact (Row.interruptMode row).reduce_of_plain rfl rfl
  | implied opcode => exact ⟨e, .implied opcode, rfl, rfl⟩

/-- The canonical form of an instruction is an instruction with the same bytes. -/
theorem Row.canonical {m : Mnemonic} {xs : List Operand} {e : Encoding} (h : Row m xs e) :
    ∃ f, Row m (m.canonical xs) f ∧ f.bytes = e.bytes := by
  obtain ⟨g, row, cell, tail⟩ := h.reduce
  -- the values in range leave the cell of the reduced row, and the bytes of its fields
  obtain ⟨f, row', cell'⟩ := row.sameCell (m.alike_mapValues Width.wrap _)
    (Mnemonic.loadable_mapValues Width.fits_wrap _)
  refine ⟨f, row', ?_⟩
  rw [row'.bytes_eq, h.bytes_eq, cell', cell, Cell.bytes_inj, ← tail, row'.tail_eq, row.tail_eq]
  exact Mnemonic.flatMap_operandBytes_mapValues Width.bytes_wrap _

end Z80Asm
