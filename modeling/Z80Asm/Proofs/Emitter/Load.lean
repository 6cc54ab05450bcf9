/-
The code of `LD` writes what the table has for its operands, and fails as the table does.
-/
import Z80Asm.Proofs.Emitter.Settled
import Z80Asm.Proofs.Table.Load

namespace Z80Asm.Emitter

open Vocabulary Encoding

/-- Operands without a row are illegal, all but a number that does not fit its register. -/
theorem illegal_eq_load {xs : List Operand} (number : ∀ r n, xs ≠ [.register r, .immediate n])
    (row : ∀ e, ¬ Load.Row xs e) : illegal = settled (Load.encode xs) := by
  cases h : Load.encode xs with
  | ok e => exact absurd (Load.encode_eq_ok_iff.1 h) (row e)
  | error fault =>
    unfold Load.encode at h
    split at h
    · exact absurd rfl (number _ _)
    · unfold Fault.orIllegal at h
      split at h
      · cases h
      · cases h; rfl
    · cases h; rfl

theorem isHalved_eq_false {r : Register} (h : isHalved r = false) : r ≠ .H ∧ r ≠ .L := by
  simpa [isHalved] using h

/-! ## Registers and addresses -/

/-- The accumulator goes to and from an address in the same three forms. -/
theorem accumulator_eq (t : Transfer) (a : Address) :
    (if a.isPair .BC then byte (0x02 + t.bit)
      else if a.isPair .DE then byte (0x12 + t.bit)
      else do
        let nn ← require a.immediate?
        byte (0x32 + t.bit)
        word nn t.addressOperand) = settled (Fault.orIllegal (t.accumulator? a)) := by
  unfold Transfer.accumulator?
  split
  · exact byte_eq_settled rfl
  split
  · exact byte_eq_settled rfl
  exact addressed_eq_settled (byte_eq_settled rfl) rfl a t.addressOperand

theorem loadRegister_eq (r : Register) (a : Address) :
    loadRegister r a = settled (Load.encode [.register r, .address a]) := by
  unfold loadRegister
  split
  · rename_i m hm
    have table : Load.encode [.register r, .address a] =
        .ok ((Encoding.main (0x40 + 8 * code r + 6)).onMemory m 1) := by
      simp only [Load.encode, Load.load?, Load.transfer?, hm]
      rfl
    rw [table]
    exact mem_eq_settled m (by cases r <;> rfl) 1
  · rename_i hm
    have table : Load.encode [.register r, .address a] =
        Fault.orIllegal (if r = .A then Transfer.load.accumulator? a else none) := by
      simp only [Load.encode, Load.load?, Load.transfer?, hm]
    rw [table]
    by_cases hr : r = .A
    · subst hr
      exact accumulator_eq .load a
    · rw [if_neg hr, if_pos hr]
      rfl

theorem storeRegister_eq (a : Address) (r : Register) :
    storeRegister a r = settled (Load.encode [.address a, .register r]) := by
  unfold storeRegister
  split
  · rename_i m hm
    have table : Load.encode [.address a, .register r] =
        .ok ((Encoding.main (0x70 + code r)).onMemory m 0) := by
      simp only [Load.encode, Load.load?, Load.transfer?, hm]
      rfl
    rw [table]
    exact mem_eq_settled m (by cases r <;> rfl) 0
  · rename_i hm
    have table : Load.encode [.address a, .register r] =
        Fault.orIllegal (if r = .A then Transfer.store.accumulator? a else none) := by
      simp only [Load.encode, Load.load?, Load.transfer?, hm]
    rw [table]
    by_cases hr : r = .A
    · subst hr
      exact accumulator_eq .store a
    · rw [if_neg hr, if_pos hr]
      rfl

/-! ## The instruction -/

theorem storeNumber_eq (a : Address) (n : Int32) :
    (do
      match ← require a.memory? with
      | .hl =>
        byte 0x36
        imm n .u8 1
      | .indexed p d =>
        bytes [p.prefixByte, 0x36]
        disp d 0
        imm n .u8 1) = settled (Load.encode [.address a, .immediate n]) := by
  have table : Load.encode [.address a, .immediate n] = Fault.orIllegal (a.memory?.map fun m =>
      ((Encoding.main (0x06 + 8 * 6)).onMemory m 0).withData .u8 n 1) := by
    simp only [Load.encode, Load.load?, Load.set?, Place.ofOperand?]
    cases a.memory? <;> rfl
  rw [table]
  refine memory_eq_settled (fun m => ?_) a
  cases m with
  | hl => exact byte_imm_eq_settled rfl n .u8 1
  | indexed p d =>
    rw [← settled_bind_imm rfl, ← mem_eq_settled (.indexed p d) rfl 0]
    rfl

theorem load_eq (xs : List Operand) : load xs = settled (Load.encode xs) := by
  unfold load
  split
  · rename_i r s
    rw [Load.encode_of_row (.register r s)]
    exact byte_eq_settled (by cases r <;> cases s <;> rfl)
  · rename_i r n
    cases fits : Width.u8.fits n with
    | true =>
      rw [Load.encode_of_row (.number r n fits)]
      exact byte_imm_eq_settled (by cases r <;> rfl) n .u8 1
    | false =>
      rw [Load.encode_number_outOfRange fits]
      rfl
  · exact loadRegister_eq _ _
  · rename_i r k
    split
    · rename_i hr
      refine illegal_eq_load (by simp) fun e row => ?_
      cases row with
      | fromHalf _ _ plain => simp [isHalved, plain] at hr
    · rename_i hr
      rw [Load.encode_of_row (.fromHalf r k (isHalved_eq_false (Bool.eq_false_iff.2 hr)))]
      exact indexed_eq_settled (by cases r <;> cases k <;> rfl)
  · rename_i x
    cases x <;> exact extended_eq_settled rfl
  · rename_i x
    cases x <;> exact extended_eq_settled rfl
  · rename_i k n
    exact indexed_imm_eq_settled (by cases k <;> rfl) n .u8 1
  · rename_i k s
    split
    · rename_i hs
      refine illegal_eq_load (by simp) fun e row => ?_
      cases row with
      | toHalf _ _ plain => simp [isHalved, plain] at hs
    · rename_i hs
      rw [Load.encode_of_row (.toHalf k s (isHalved_eq_false (Bool.eq_false_iff.2 hs)))]
      exact indexed_eq_settled (by cases k <;> cases s <;> rfl)
  · rename_i k l
    split
    · rename_i same
      rw [Load.encode_of_row (.half k l same)]
      exact indexed_eq_settled (by cases k <;> cases l <;> rfl)
    · rename_i other
      refine illegal_eq_load (by simp) fun e row => ?_
      cases row with
      | half _ _ same => exact other same
  · exact storeRegister_eq _ _
  · exact storeNumber_eq _ _
  · rename_i a p
    cases p with
    | HL => exact addressed_eq_settled (byte_eq_settled rfl) rfl a 0
    | _ => exact addressed_eq_settled (extended_eq_settled rfl) rfl a 0
  · exact addressed_eq_settled (indexed_eq_settled rfl) rfl _ 0
  · rename_i p nn
    exact byte_imm_eq_settled (by cases p <;> rfl) nn .w16 1
  · rename_i p a
    cases p with
    | HL => exact addressed_eq_settled (byte_eq_settled rfl) rfl a 1
    | _ => exact addressed_eq_settled (extended_eq_settled rfl) rfl a 1
  · exact byte_eq_settled rfl
  · exact indexed_eq_settled rfl
  · rename_i p nn
    exact indexed_imm_eq_settled rfl nn .w16 1
  · exact addressed_eq_settled (indexed_eq_settled rfl) rfl _ 1
  · rename_i number _ _ _ _ _ _ _ _ _ _ _ _ _ _ _ _ _
    refine illegal_eq_load number fun e row => ?_
    cases row <;> solve_by_elim

end Z80Asm.Emitter
