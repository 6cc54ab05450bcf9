/-
The rows of the jumps, calls and returns. A condition slot is filled by a condition, or by the register
whose name the carry flag shares.
-/
import Z80Asm.Machine.Branch
import Z80Asm.Proofs.Table.Operand

namespace Z80Asm.Branch

open Encoding

/-! ## Condition slots -/

/-- The operands of a condition slot, and what they test. -/
inductive Slot : Operand → Condition → Prop
  | condition (c : Condition) : Slot (.condition c) c
  | carry : Slot (.register .C) .C

theorem condition?_eq_some_iff {x : Operand} {c : Condition} : x.condition? = some c ↔ Slot x c := by
  constructor
  · intro h
    unfold Operand.condition? at h
    split at h
    · cases h; exact .condition c
    · cases h; exact .carry
    · cases h
  · intro h
    cases h <;> rfl

/-! ## Jumps and calls -/

/-- The rows that jumps and calls to a number share. -/
inductive Absolute (always onCondition : UInt8) : List Operand → Encoding → Prop
  | always (nn : Int32) : Absolute always onCondition [.immediate nn] ((main always).withData .w16 nn 0)
  | conditional {x : Operand} {c : Condition} (slot : Slot x c) (nn : Int32) :
    Absolute always onCondition [x, .immediate nn] ((main (onCondition + field c)).withData .w16 nn 1)

theorem absolute?_eq_some_iff {always onCondition : UInt8} {xs : List Operand} {e : Encoding} :
    absolute? always onCondition xs = some e ↔ Absolute always onCondition xs e := by
  constructor
  · intro h
    unfold absolute? at h
    split at h
    · cases h; exact .always _
    · obtain ⟨c, hc, rfl⟩ := Option.map_eq_some_iff.1 h
      exact .conditional (condition?_eq_some_iff.1 hc) _
    · cases h
  · intro h
    cases h with
    | always nn => rfl
    | conditional slot nn => simp [absolute?, condition?_eq_some_iff.2 slot]

/-- The rows of `JP`. -/
inductive Jump : List Operand → Encoding → Prop
  | absolute {xs : List Operand} {e : Encoding} (row : Absolute 0xC3 0xC2 xs e) : Jump xs e
  | hl : Jump [.hl] (main 0xE9)
  | index (i : IndexPair) : Jump [.indexed i none] ((main 0xE9).indexedBy (some i))

theorem jump?_eq_some_iff {xs : List Operand} {e : Encoding} : jump? xs = some e ↔ Jump xs e := by
  constructor
  · intro h
    unfold jump? at h
    split at h
    · unfold indirect? at h
      split at h
      · cases h; exact .hl
      · cases h; exact .index _
      · cases h
    · exact .absolute (absolute?_eq_some_iff.1 h)
  · intro h
    cases h with
    | absolute row => cases row with
      | always nn => rfl
      | conditional slot nn => simp [jump?, absolute?, condition?_eq_some_iff.2 slot]
    | _ => rfl

/-- The rows of `JR`. -/
inductive Relative : List Operand → Encoding → Prop
  | always (d : Int32) : Relative [.immediate d] ((main 0x18).withData .s8 d 0)
  | conditional {x : Operand} {c : Condition} (slot : Slot x c) (flag : isRelative c = true) (d : Int32) :
    Relative [x, .immediate d] ((main (0x20 + field c)).withData .s8 d 1)

theorem relative?_eq_some_iff {xs : List Operand} {e : Encoding} : relative? xs = some e ↔ Relative xs e := by
  constructor
  · intro h
    unfold relative? at h
    split at h
    · cases h; exact .always _
    · obtain ⟨c, hc, rfl⟩ := Option.map_eq_some_iff.1 h
      obtain ⟨hc, flag⟩ := Option.filter_eq_some_iff.1 hc
      exact .conditional (condition?_eq_some_iff.1 hc) flag _
    · cases h
  · intro h
    cases h with
    | always d => rfl
    | conditional slot flag d =>
      have hc := Option.filter_eq_some_iff.2 ⟨condition?_eq_some_iff.2 slot, flag⟩
      simp [relative?, hc]

/-- The row of `DJNZ`. -/
inductive Loop : List Operand → Encoding → Prop
  | intro (d : Int32) : Loop [.immediate d] ((main 0x10).withData .s8 d 0)

theorem loop?_eq_some_iff {xs : List Operand} {e : Encoding} : loop? xs = some e ↔ Loop xs e := by
  constructor
  · intro h
    unfold loop? at h
    split at h
    · cases h; exact .intro _
    · cases h
  · rintro ⟨d⟩; rfl

/-! ## Returns and restarts -/

/-- The rows of `RET`. -/
inductive Return : List Operand → Encoding → Prop
  | always : Return [] (main 0xC9)
  | conditional {x : Operand} {c : Condition} (slot : Slot x c) : Return [x] (main (0xC0 + field c))

theorem return?_eq_some_iff {xs : List Operand} {e : Encoding} : return? xs = some e ↔ Return xs e := by
  constructor
  · intro h
    unfold return? at h
    split at h
    · cases h; exact .always
    · obtain ⟨c, hc, rfl⟩ := Option.map_eq_some_iff.1 h
      exact .conditional (condition?_eq_some_iff.1 hc)
    · cases h
  · intro h
    cases h with
    | always => rfl
    | conditional slot => simp [return?, condition?_eq_some_iff.2 slot]

/-- The restart vectors. -/
def vectors : List Int32 := [0x00, 0x08, 0x10, 0x18, 0x20, 0x28, 0x30, 0x38]

/-- The rows of `RST`. -/
inductive Restart : List Operand → Encoding → Prop
  | intro {n : Int32} (vector : n ∈ vectors) : Restart [.immediate n] (main (0xC7 + UInt8.ofNat n.toInt.toNat))

theorem mem_vectors_iff {n : Int32} : n ∈ vectors ↔ isRestart n = true := by
  constructor
  · intro h
    simp only [vectors, List.mem_cons, List.not_mem_nil, or_false] at h
    rcases h with rfl | rfl | rfl | rfl | rfl | rfl | rfl | rfl <;> decide
  · intro h
    simp only [isRestart, Bool.and_eq_true, decide_eq_true_eq, beq_iff_eq] at h
    -- the condition is about the integer, of which eight values are left
    have hn : n = Int32.ofInt n.toInt := by simp
    obtain h | h | h | h | h | h | h | h : n.toInt = 0x00 ∨ n.toInt = 0x08 ∨ n.toInt = 0x10 ∨ n.toInt = 0x18 ∨
      n.toInt = 0x20 ∨ n.toInt = 0x28 ∨ n.toInt = 0x30 ∨ n.toInt = 0x38 := by omega
    all_goals rw [hn, h]; decide

theorem restart_eq_ok_iff {xs : List Operand} {e : Encoding} : restart xs = .ok e ↔ Restart xs e := by
  constructor
  · intro h
    unfold restart at h
    split at h
    · split at h
      · rename_i hn
        cases h
        exact .intro (mem_vectors_iff.2 hn)
      · cases h
    · cases h
  · rintro ⟨vector⟩
    rw [restart, if_pos (mem_vectors_iff.1 vector)]

end Z80Asm.Branch
