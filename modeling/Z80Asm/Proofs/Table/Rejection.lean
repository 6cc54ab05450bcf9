/-
What is wrong with operands that have no row. Most mnemonics only say that they do not take the operands; four kinds of
numbers are named: one that does not fit the register it is loaded to, and one that is no index of a bit, no restart
vector or no interrupt mode (`Mnemonic.encode_eq_error_iff`).
-/
import Z80Asm.Proofs.Table.Instruction

namespace Z80Asm

/-! ## Faults of families -/

/-- What is wrong with operands that `LD` does not take. -/
def Load.rejection : List Operand → Fault
  | [.register _, .immediate n] => .outOfRange n
  | _ => .illegalOperands

/-- What is wrong with operands that an access to a bit does not take. The index of the bit comes before the target. -/
def BitAccess.rejection : List Operand → Fault
  | .immediate n :: _ => if 0 ≤ n.toInt ∧ n.toInt ≤ 7 then .illegalOperands else .badBitIndex n
  | _ => .illegalOperands

/-- What is wrong with operands that `RST` does not take. -/
def Branch.rejection : List Operand → Fault
  | [.immediate n] => .badRestart n
  | _ => .illegalOperands

/-- What is wrong with operands that `IM` does not take. -/
def InterruptMode.rejection : List Operand → Fault
  | [.immediate n] => .badInterruptMode n
  | _ => .illegalOperands

theorem Fault.eq_of_orIllegal {o : Option Encoding} {fault : Fault} (h : orIllegal o = .error fault) :
    fault = .illegalOperands := by
  cases o <;> cases h
  rfl

theorem Load.eq_rejection {xs : List Operand} {fault : Fault} (h : encode xs = .error fault) : fault = rejection xs := by
  unfold encode at h
  split at h
  · split at h
    · cases h
    · cases h
      rfl
  · rename_i other
    rw [rejection]
    · exact Fault.eq_of_orIllegal h
    · rintro r n ⟨⟩
      exact other r n rfl rfl
  · rename_i other
    cases h
    rw [rejection]
    exact fun r n hxs => other _ _ hxs

theorem BitAccess.eq_rejection {b : BitAccess} {xs : List Operand} {fault : Fault} (h : b.encode xs = .error fault) :
    fault = rejection xs := by
  unfold encode at h
  split at h
  · rename_i n target
    rw [rejection]
    split at h
    · rename_i index
      rw [if_pos index]
      exact Fault.eq_of_orIllegal h
    · rename_i index
      cases h
      rw [if_neg index]
  · rename_i other
    cases h
    rw [rejection]
    exact fun n target hxs => other n target hxs

theorem Branch.eq_rejection {xs : List Operand} {fault : Fault} (h : restart xs = .error fault) : fault = rejection xs := by
  unfold restart at h
  split at h
  · split at h
    · cases h
    · cases h
      rfl
  · rename_i other
    cases h
    rw [rejection]
    exact fun n hxs => other n hxs

theorem InterruptMode.eq_rejection {xs : List Operand} {fault : Fault} (h : encode xs = .error fault) :
    fault = rejection xs := by
  unfold encode at h
  split at h
  · repeat' split at h
    all_goals cases h
    rfl
  · rename_i other
    cases h
    rw [rejection]
    exact fun n hxs => other n hxs

/-! ## Faults of mnemonics -/

namespace Mnemonic

/-- What is wrong with operands that a mnemonic does not take. -/
def rejection (m : Mnemonic) (xs : List Operand) : Fault :=
  match m with
  | .LD => Load.rejection xs
  | .BIT | .RES | .SET => BitAccess.rejection xs
  | .RST => Branch.rejection xs
  | .IM => InterruptMode.rejection xs
  | _ => .illegalOperands

theorem eq_rejection_of_encode {m : Mnemonic} {xs : List Operand} {fault : Fault} (h : m.encode xs = .error fault) :
    fault = m.rejection xs := by
  cases m with
  | LD => exact Load.eq_rejection h
  | BIT => exact BitAccess.eq_rejection (b := .BIT) h
  | RES => exact BitAccess.eq_rejection (b := .RES) h
  | SET => exact BitAccess.eq_rejection (b := .SET) h
  | RST => exact Branch.eq_rejection h
  | IM => exact InterruptMode.eq_rejection h
  | _ =>
    -- the other families, and the mnemonics that take no operands
    first
    | exact Fault.eq_of_orIllegal h
    | cases xs <;> cases h; rfl

/-- A mnemonic rejects its operands exactly where the table has no row for them. -/
theorem encode_eq_error_iff {m : Mnemonic} {xs : List Operand} {fault : Fault} :
    m.encode xs = .error fault ↔ (∀ e, ¬Row m xs e) ∧ fault = m.rejection xs := by
  constructor
  · intro h
    refine ⟨fun e row => ?_, eq_rejection_of_encode h⟩
    rw [encode_of_row row] at h
    cases h
  · rintro ⟨none, rfl⟩
    cases h : m.encode xs with
    | ok e => exact absurd (encode_eq_ok_iff.1 h) (none e)
    | error fault => rw [eq_rejection_of_encode h]

end Mnemonic

end Z80Asm
