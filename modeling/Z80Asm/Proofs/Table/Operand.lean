/-
Reading operands backwards: which operands are a memory operand, fill a byte place or fill a pair place.
The rows of the instruction table are written with the operands named here.
-/
import Z80Asm.Machine.Fault
import Z80Asm.Machine.Place

namespace Z80Asm

/-! ## Operands by name -/

namespace Operand

/-- The byte that `HL` points to. -/
abbrev hl : Operand := .address ⟨.normalPair .HL, none⟩

/-- What a pair points to. -/
abbrev pointer (p : NormalPair) : Operand := .address ⟨.normalPair p, none⟩

/-- The byte that an index register points to, with the displacement as it is written. -/
abbrev indexed (p : IndexPair) (d : Option Int32) : Operand := .address ⟨.indexPair p, d⟩

/-- A numeric address. Reading a statement leaves no displacement after a number. -/
abbrev numeric (nn : Int32) (d : Option Int32) : Operand := .address ⟨.immediate nn, d⟩

/-- The port whose number is in `C`. -/
abbrev portC : Operand := .address ⟨.register .C, none⟩

end Operand

/-- The instruction on the byte at an index address, whose opcode is that for `(HL)`. -/
abbrev Encoding.atIndex (p : IndexPair) (d : Option Int32) (operand : Nat) (e : Encoding) : Encoding :=
  e.onMemory (.indexed p (d.getD 0)) operand

/-! ## Addresses -/

theorem Address.memory?_eq_some {a : Address} {m : Memory} (h : a.memory? = some m) :
    (a = ⟨.normalPair .HL, none⟩ ∧ m = .hl) ∨
      ∃ p d, a = ⟨.indexPair p, d⟩ ∧ m = .indexed p (d.getD 0) := by
  obtain ⟨base, d⟩ := a
  unfold Address.memory? at h
  split at h
  · rename_i hb hd
    cases h
    exact .inl ⟨by simp_all, rfl⟩
  · rename_i p hb
    cases h
    exact .inr ⟨p, d, by simp_all, rfl⟩
  · cases h

theorem Address.isPair_iff {a : Address} {p : NormalPair} : a.isPair p = true ↔ a = ⟨.normalPair p, none⟩ := by
  obtain ⟨base, d⟩ := a
  simp [Address.isPair]

theorem Address.immediate?_eq_some {a : Address} {n : Int32} (h : a.immediate? = some n) :
    ∃ d, a = ⟨.immediate n, d⟩ := by
  obtain ⟨base, d⟩ := a
  unfold Address.immediate? at h
  split at h
  · rename_i hb
    cases h
    exact ⟨d, by simp_all⟩
  · cases h

/-! ## Places -/

/-- The four operands that fill a byte place. -/
theorem Place.ofOperand?_eq_some {x : Operand} {p : Place} (h : Place.ofOperand? x = some p) :
    (∃ r, x = .register r ∧ p = .register r) ∨ (∃ k, x = .indexHalf k ∧ p = .half k) ∨
      (x = .hl ∧ p = .memory .hl) ∨ ∃ i d, x = .indexed i d ∧ p = .memory (.indexed i (d.getD 0)) := by
  cases x with
  | register r => cases h; exact .inl ⟨r, rfl, rfl⟩
  | indexHalf k => cases h; exact .inr (.inl ⟨k, rfl, rfl⟩)
  | address a =>
    obtain ⟨m, hm, rfl⟩ := Option.map_eq_some_iff.1 h
    rcases Address.memory?_eq_some hm with ⟨rfl, rfl⟩ | ⟨i, d, rfl, rfl⟩
    · exact .inr (.inr (.inl ⟨rfl, rfl⟩))
    · exact .inr (.inr (.inr ⟨i, d, rfl, rfl⟩))
  | _ => cases h

/-- The two operands that fill a pair place. -/
theorem PairPlace.ofOperand?_eq_some {x : Operand} {p : PairPlace} (h : PairPlace.ofOperand? x = some p) :
    (∃ q, x = .normalPair q ∧ p = ⟨q, none⟩) ∨ ∃ i, x = .indexPair i ∧ p = ⟨.HL, some i⟩ := by
  cases x with
  | normalPair q => cases h; exact .inl ⟨q, rfl, rfl⟩
  | indexPair i => cases h; exact .inr ⟨i, rfl, rfl⟩
  | _ => cases h

/-! ## Faults -/

theorem Fault.orIllegal_eq_ok {o : Option Encoding} {e : Encoding} :
    Fault.orIllegal o = .ok e ↔ o = some e := by
  cases o <;> simp [Fault.orIllegal]

end Z80Asm
