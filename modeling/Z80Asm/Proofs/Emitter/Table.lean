/-
The code of every mnemonic writes what the table has for its operands, and fails as the table does. The main
statement is `Emitter.dispatch_eq`; each family has its own equation.
-/
import Z80Asm.Proofs.Emitter.Load
import Z80Asm.Proofs.Table.Instruction

namespace Z80Asm.Emitter

open Vocabulary Encoding

/-! ## The stack and the exchanges -/

theorem transfer_eq {base : UInt8} (h : base = 0xC5 ∨ base = 0xC1) (xs : List Operand) :
    transfer base xs = settled (Fault.orIllegal (Stack.encode? base xs)) := by
  unfold transfer
  split
  · rename_i p
    split
    · rename_i hp
      refine illegal_eq_settled_of_none fun e he => ?_
      cases Stack.encode?_eq_some_iff.1 he with
      | pair _ saved => exact saved hp
    · rename_i hp
      rw [settled_of_some (Stack.encode?_eq_some_iff.2 (.pair p hp))]
      exact byte_eq_settled (by rcases h with rfl | rfl <;> cases p <;> rfl)
  · rw [settled_of_some (Stack.encode?_eq_some_iff.2 .flags)]
    exact byte_eq_settled (by rcases h with rfl | rfl <;> rfl)
  · rename_i i
    rw [settled_of_some (Stack.encode?_eq_some_iff.2 (.index i))]
    exact indexed_eq_settled (by rcases h with rfl | rfl <;> rfl)
  · refine illegal_eq_settled_of_none fun e he => ?_
    cases Stack.encode?_eq_some_iff.1 he <;> solve_by_elim

theorem exchange_eq (xs : List Operand) : exchange xs = settled (Fault.orIllegal (Stack.exchange? xs)) := by
  unfold exchange
  split
  · exact byte_eq_settled rfl
  · exact byte_eq_settled rfl
  · split
    · rename_i hp
      obtain rfl := Address.isPair_iff.1 hp
      exact byte_eq_settled rfl
    · rename_i hp
      refine illegal_eq_settled_of_none fun e he => ?_
      cases Stack.exchange?_eq_some_iff.1 he with
      | top => exact hp rfl
  · split
    · rename_i hp
      obtain rfl := Address.isPair_iff.1 hp
      exact indexed_eq_settled rfl
    · rename_i hp
      refine illegal_eq_settled_of_none fun e he => ?_
      cases Stack.exchange?_eq_some_iff.1 he with
      | topIndex i => exact hp rfl
  · refine illegal_eq_settled_of_none fun e he => ?_
    cases Stack.exchange?_eq_some_iff.1 he <;> solve_by_elim

/-! ## Arithmetic and logic -/

theorem accumulate_eq (op : Alu) (operand : Nat) (x : Operand) :
    accumulate (0x80 + 8 * op.row) operand x = settled (Fault.orIllegal (op.onByte? x operand)) := by
  unfold accumulate
  split
  · rename_i r
    rw [settled_of_some (Alu.onByte?_eq_some_iff.2 (.register r))]
    exact byte_eq_settled (by cases op <;> cases r <;> rfl)
  · rename_i k
    rw [settled_of_some (Alu.onByte?_eq_some_iff.2 (.half k))]
    exact indexed_eq_settled (by cases op <;> cases k <;> rfl)
  · rename_i a
    have table : op.onByte? (.address a) operand =
        a.memory?.map fun m => (Encoding.main (0x80 + 8 * op.row + 6)).onMemory m operand :=
      Option.map_map ..
    rw [table]
    exact memory_eq_settled (fun m => mem_eq_settled m (by cases op <;> rfl) operand) a
  · rename_i n
    rw [settled_of_some (Alu.onByte?_eq_some_iff.2 (.number n))]
    exact byte_imm_eq_settled (by cases op <;> rfl) n .u8 operand
  · refine illegal_eq_settled_of_none fun e he => ?_
    cases Alu.onByte?_eq_some_iff.1 he <;> solve_by_elim

theorem add_eq (xs : List Operand) : add xs = settled (Fault.orIllegal (Alu.ADD.encode? xs)) := by
  unfold add
  split
  · exact accumulate_eq .ADD 1 _
  · rename_i p
    rw [settled_of_some (Alu.encode?_eq_some_iff.2 (.addPair p))]
    exact byte_eq_settled (by cases p <;> rfl)
  · rename_i i p
    split
    · rename_i hp
      refine illegal_eq_settled_of_none fun e he => ?_
      cases Alu.encode?_eq_some_iff.1 he with
      | addToIndex _ _ other => exact other hp
    · rename_i hp
      rw [settled_of_some (Alu.encode?_eq_some_iff.2 (.addToIndex i p hp))]
      exact indexed_eq_settled (by cases p <;> rfl)
  · rename_i i j
    split
    · rename_i hij
      subst hij
      rw [settled_of_some (Alu.encode?_eq_some_iff.2 (.addSelf i))]
      exact indexed_eq_settled rfl
    · rename_i hij
      refine illegal_eq_settled_of_none fun e he => ?_
      cases Alu.encode?_eq_some_iff.1 he with
      | addSelf => exact hij rfl
  · refine illegal_eq_settled_of_none fun e he => ?_
    cases Alu.encode?_eq_some_iff.1 he with
    | short implicit => cases implicit
    | _ => solve_by_elim

theorem withCarry_eq {op : Alu} {pairBase : UInt8} (h : op = .ADC ∧ pairBase = 0x4A ∨ op = .SBC ∧ pairBase = 0x42)
    (xs : List Operand) :
    withCarry (0x80 + 8 * op.row) pairBase xs = settled (Fault.orIllegal (op.encode? xs)) := by
  unfold withCarry
  split
  · rcases h with ⟨rfl, rfl⟩ | ⟨rfl, rfl⟩ <;> exact accumulate_eq _ 1 _
  · rename_i p
    rcases h with ⟨rfl, rfl⟩ | ⟨rfl, rfl⟩
    · rw [settled_of_some (Alu.encode?_eq_some_iff.2 (.adcPair p))]
      exact extended_eq_settled (by cases p <;> rfl)
    · rw [settled_of_some (Alu.encode?_eq_some_iff.2 (.sbcPair p))]
      exact extended_eq_settled (by cases p <;> rfl)
  · refine illegal_eq_settled_of_none fun e he => ?_
    rcases h with ⟨rfl, rfl⟩ | ⟨rfl, rfl⟩ <;> cases Alu.encode?_eq_some_iff.1 he with
    | short implicit => cases implicit
    | _ => solve_by_elim

theorem logic_eq (op : Alu) (h : op.namesTarget = false) (xs : List Operand) :
    logic (0x80 + 8 * op.row) xs = settled (Fault.orIllegal (op.encode? xs)) := by
  unfold logic
  split
  · rename_i x
    have table : op.encode? [x] = op.onByte? x 0 := by simp [Alu.encode?, h]
    rw [table]
    exact accumulate_eq op 0 x
  · exact accumulate_eq op 1 _
  · refine illegal_eq_settled_of_none fun e he => ?_
    cases Alu.encode?_eq_some_iff.1 he with
    | short | long => solve_by_elim
    | _ => cases h

theorem step_eq (s : Step) (xs : List Operand) :
    step (0x04 + s.code) (0x03 + 8 * s.code) xs = settled (Fault.orIllegal (s.encode? xs)) := by
  unfold step
  split
  · rename_i r
    rw [settled_of_some (Step.encode?_eq_some_iff.2 (.register r))]
    exact byte_eq_settled (by cases s <;> cases r <;> rfl)
  · rename_i p
    rw [settled_of_some (Step.encode?_eq_some_iff.2 (.pair p))]
    exact byte_eq_settled (by cases s <;> cases p <;> rfl)
  · rename_i i
    rw [settled_of_some (Step.encode?_eq_some_iff.2 (.index i))]
    exact indexed_eq_settled (by cases s <;> rfl)
  · rename_i k
    rw [settled_of_some (Step.encode?_eq_some_iff.2 (.half k))]
    exact indexed_eq_settled (by cases s <;> cases k <;> rfl)
  · rename_i a
    have table : s.encode? [.address a] =
        a.memory?.map fun m => (Encoding.main (0x04 + s.code + 8 * 6)).onMemory m 0 := by
      simp only [Step.encode?, Place.ofOperand?]
      cases a.memory? <;> rfl
    rw [table]
    exact memory_eq_settled (fun m => mem_eq_settled m (by cases s <;> rfl) 0) a
  · refine illegal_eq_settled_of_none fun e he => ?_
    cases Step.encode?_eq_some_iff.1 he <;> solve_by_elim

/-! ## The bit page -/

theorem or_eq_add {a b : UInt8} (h : a &&& b = 0) : a ||| b = a + b := by
  refine UInt8.toBitVec_inj.1 ?_
  rw [UInt8.toBitVec_or, UInt8.toBitVec_add]
  exact (BitVec.add_eq_or_of_and_eq_zero _ _ (by rw [← UInt8.toBitVec_and, h]; rfl)).symm

/-- A number below eight goes into the open lowest bits of an opcode. -/
theorem or_low_eq_add {op : UInt8} (h : op &&& 7 = 0) {c : UInt8} (hc : 7 &&& c = c) : op ||| c = op + c := by
  refine or_eq_add ?_
  rw [← hc, ← UInt8.and_assoc, h]
  exact UInt8.zero_and

theorem target_eq {op : UInt8} (h : op &&& 7 = 0) (first : Nat) (xs : List Operand) :
    target op first xs = settled (Fault.orIllegal (BitPage.onTarget? op first xs)) := by
  have register : ∀ r : Register, op ||| code r = op + code r := fun r => or_low_eq_add h (by cases r <;> rfl)
  have memory : op ||| 6 = op + 6 := or_low_eq_add h rfl
  unfold target
  split
  · rename_i r
    exact bit_eq_settled (register r)
  · rename_i a
    exact memory_eq_settled (fun m => bitMem_eq_settled m memory first) a
  · rename_i a r
    split
    · rename_i p d hm
      rcases Address.memory?_eq_some hm with ⟨-, hm⟩ | ⟨i, d, rfl, hm⟩
      · cases hm
      · cases hm
        exact bitIndexed_eq_settled _ _ (register r) first
    · rename_i hm
      refine illegal_eq_settled_of_none fun e he => ?_
      cases BitPage.onTarget?_eq_some_iff.1 he with
      | copy => exact hm _ _ rfl
  · refine illegal_eq_settled_of_none fun e he => ?_
    cases BitPage.onTarget?_eq_some_iff.1 he <;> solve_by_elim

theorem bit_eq (b : BitAccess) (xs : List Operand) : bit b.opcode xs = settled (b.encode xs) := by
  unfold bit
  split
  · rename_i n rest
    unfold BitAccess.encode
    dsimp only
    by_cases hn : 0 ≤ n.toInt ∧ n.toInt ≤ 7
    · -- one of eight numbers, for each of which the opcode is a closed term
      have opcode : b.opcode ||| middle (Width.lowByte n) = b.opcode + 8 * UInt8.ofNat n.toInt.toNat ∧
          (b.opcode + 8 * UInt8.ofNat n.toInt.toNat) &&& 7 = 0 := by
        have index := BitAccess.mem_indices_iff.2 hn
        simp only [BitAccess.indices, List.mem_cons, List.not_mem_nil, or_false] at index
        cases b <;> rcases index with rfl | rfl | rfl | rfl | rfl | rfl | rfl | rfl <;> decide
      rw [if_pos hn, ← target_eq opcode.2, ← opcode.1]
      simp [hn]
    · rw [if_neg hn]
      have range : (decide (0 ≤ n.toInt) && decide (n.toInt ≤ 7)) = false := by simpa using hn
      simp only [range]
      rfl
  · unfold BitAccess.encode
    split
    · solve_by_elim
    · rfl

/-! ## Jumps, calls and returns -/

theorem absolute?_pair (always onCondition : UInt8) (x : Operand) (nn : Int32) :
    Branch.absolute? always onCondition [x, .immediate nn] =
      x.condition?.map fun c => (Encoding.main (onCondition + Branch.field c)).withData .w16 nn 1 := by
  cases x <;> rfl

theorem conditional_eq {base : UInt8} (opcode : ∀ c, base ||| middle (code c) = base + Branch.field c)
    (x : Operand) (nn : Int32) :
    (do
      let c ← require x.condition?
      byte (base ||| middle (code c))
      word nn 1) = settled (Fault.orIllegal (x.condition?.map fun c =>
        (Encoding.main (base + Branch.field c)).withData .w16 nn 1)) := by
  cases x.condition? with
  | none => rfl
  | some c => exact byte_imm_eq_settled (opcode c) nn .w16 1

theorem jump_eq (xs : List Operand) : jump xs = settled (Fault.orIllegal (Branch.jump? xs)) := by
  unfold jump
  split
  · rename_i nn
    exact byte_imm_eq_settled rfl nn .w16 0
  · rename_i a
    obtain ⟨base, d⟩ := a
    cases d with
    | some d => cases base with
      | normalPair p => cases p <;> rfl
      | _ => rfl
    | none => cases base with
      | normalPair p => cases p with
        | HL => exact byte_eq_settled rfl
        | _ => rfl
      | indexPair i => exact indexed_eq_settled rfl
      | _ => rfl
  · rename_i x nn
    have table : Branch.jump? [x, .immediate nn] = Branch.absolute? 0xC3 0xC2 [x, .immediate nn] := by
      cases x <;> rfl
    rw [table, absolute?_pair]
    exact conditional_eq (fun c => by cases c <;> rfl) x nn
  · refine illegal_eq_settled_of_none fun e he => ?_
    cases Branch.jump?_eq_some_iff.1 he with
    | absolute row => cases row <;> solve_by_elim
    | _ => solve_by_elim

theorem relative_eq (xs : List Operand) : relative xs = settled (Fault.orIllegal (Branch.relative? xs)) := by
  unfold relative
  split
  · rename_i d
    exact byte_imm_eq_settled rfl d .s8 0
  · rename_i x d
    have table : Branch.relative? [x, .immediate d] = (x.condition?.filter Branch.isRelative).map fun c =>
        (Encoding.main (0x20 + Branch.field c)).withData .s8 d 1 := by
      cases x <;> rfl
    rw [table]
    cases x.condition? with
    | none => rfl
    | some c =>
      cases c with
      | NZ | Z | NC | C => exact byte_imm_eq_settled rfl d .s8 1
      | _ => rfl
  · refine illegal_eq_settled_of_none fun e he => ?_
    cases Branch.relative?_eq_some_iff.1 he <;> solve_by_elim

theorem loop_eq (xs : List Operand) : loop xs = settled (Fault.orIllegal (Branch.loop? xs)) := by
  unfold loop
  split
  · rename_i d
    exact byte_imm_eq_settled rfl d .s8 0
  · refine illegal_eq_settled_of_none fun e he => ?_
    cases Branch.loop?_eq_some_iff.1 he
    solve_by_elim

theorem call_eq (xs : List Operand) : call xs = settled (Fault.orIllegal (Branch.call? xs)) := by
  unfold call
  split
  · rename_i nn
    exact byte_imm_eq_settled rfl nn .w16 0
  · rename_i x nn
    rw [Branch.call?, absolute?_pair]
    exact conditional_eq (fun c => by cases c <;> rfl) x nn
  · refine illegal_eq_settled_of_none fun e he => ?_
    cases Branch.absolute?_eq_some_iff.1 he <;> solve_by_elim

theorem ret_eq (xs : List Operand) : ret xs = settled (Fault.orIllegal (Branch.return? xs)) := by
  unfold ret
  split
  · exact byte_eq_settled rfl
  · rename_i x
    have table : Branch.return? [x] = x.condition?.map fun c => Encoding.main (0xC0 + Branch.field c) := rfl
    rw [table]
    cases x.condition? with
    | none => rfl
    | some c => exact byte_eq_settled (by cases c <;> rfl)
  · refine illegal_eq_settled_of_none fun e he => ?_
    cases Branch.return?_eq_some_iff.1 he <;> solve_by_elim

/-- The bits of the mask are those that no restart vector has. -/
theorem and_mask_eq_zero_iff {n : Int32} : n &&& ~~~0x38 = 0 ↔ n ∈ Branch.vectors := by
  constructor
  · intro h
    have masked : n.toBitVec &&& ~~~0x38#32 = 0#32 := congrArg Int32.toBitVec h
    have kept : n.toBitVec = n.toBitVec &&& 0x38#32 := by
      refine BitVec.eq_of_getLsbD_eq fun i hi => ?_
      have bit := congrArg (·.getLsbD i) masked
      simp only [BitVec.getLsbD_and, BitVec.getLsbD_not, BitVec.getLsbD_zero, hi, decide_true, Bool.true_and] at bit ⊢
      cases h : n.toBitVec.getLsbD i <;> simp_all
    -- what is left under the mask is at most the mask itself, so that a number below 57 is to be looked at
    have bound : n.toBitVec.toNat < 57 := by
      rw [kept, BitVec.toNat_and]
      exact Nat.lt_succ_of_le Nat.and_le_right
    have small : ∀ k : Fin 57, BitVec.ofNat 32 k &&& ~~~0x38#32 = 0#32 →
        Int32.ofBitVec (BitVec.ofNat 32 k) ∈ Branch.vectors := by decide
    have := small ⟨n.toBitVec.toNat, bound⟩ (by simpa using masked)
    simpa using this
  · intro h
    simp only [Branch.vectors, List.mem_cons, List.not_mem_nil, or_false] at h
    rcases h with rfl | rfl | rfl | rfl | rfl | rfl | rfl | rfl <;> decide

theorem restart_eq (xs : List Operand) : restart xs = settled (Branch.restart xs) := by
  unfold restart
  split
  · rename_i n
    by_cases vector : n ∈ Branch.vectors
    · have opcode : 0xC7 ||| Width.lowByte n = 0xC7 + UInt8.ofNat n.toInt.toNat := by
        simp only [Branch.vectors, List.mem_cons, List.not_mem_nil, or_false] at vector
        rcases vector with rfl | rfl | rfl | rfl | rfl | rfl | rfl | rfl <;> decide
      rw [Branch.restart_eq_ok_iff.2 (.intro vector)]
      simp only [and_mask_eq_zero_iff.2 vector, ne_eq, not_true, if_false]
      exact byte_eq_settled opcode
    · have table : Branch.restart [.immediate n] = .error (.badRestart n) :=
        if_neg fun h => vector (Branch.mem_vectors_iff.2 h)
      have mask : n &&& ~~~0x38 ≠ 0 := fun h => vector (and_mask_eq_zero_iff.1 h)
      rw [table]
      simp only [ne_eq, mask, not_false_eq_true, if_true]
      rfl
  · unfold Branch.restart
    split
    · solve_by_elim
    · rfl

/-! ## Ports and the interrupt mode -/

theorem interruptMode_eq (xs : List Operand) : interruptMode xs = settled (InterruptMode.encode xs) := by
  unfold interruptMode
  split
  · rename_i n
    unfold InterruptMode.encode
    by_cases h0 : n = 0
    · simp [h0]; exact extended_eq_settled rfl
    by_cases h1 : n = 1
    · simp [h1]; exact extended_eq_settled rfl
    by_cases h2 : n = 2
    · simp [h2]; exact extended_eq_settled rfl
    simp [h0, h1, h2]
    rfl
  · unfold InterruptMode.encode
    split
    · solve_by_elim
    · rfl

theorem input_eq (xs : List Operand) : input xs = settled (Fault.orIllegal (Port.input? xs)) := by
  unfold input
  split
  · split
    · rename_i hp
      rcases Port.ofAddress?_eq_some hp with ⟨n, -, hn⟩ | ⟨rfl, -⟩
      · cases hn
      · exact extended_eq_settled rfl
    · rename_i hp
      refine illegal_eq_settled_of_none fun e he => ?_
      cases Port.input?_eq_some_iff.1 he
      exact hp rfl
  · rename_i r a
    cases hp : Port.ofAddress? a with
    | none =>
      refine illegal_eq_settled_of_none fun e he => ?_
      cases Port.input?_eq_some_iff.1 he <;> cases hp
    | some p =>
      rcases Port.ofAddress?_eq_some hp with ⟨n, rfl, rfl⟩ | ⟨rfl, rfl⟩
      · cases r with
        | A => exact byte_imm_eq_settled rfl n .u8 1
        | _ => rfl
      · exact extended_eq_settled (by cases r <;> rfl)
  · refine illegal_eq_settled_of_none fun e he => ?_
    cases Port.input?_eq_some_iff.1 he <;> solve_by_elim

theorem output_eq (xs : List Operand) : output xs = settled (Fault.orIllegal (Port.output? xs)) := by
  unfold output
  split
  · rename_i a r
    cases hp : Port.ofAddress? a with
    | none =>
      refine illegal_eq_settled_of_none fun e he => ?_
      cases Port.output?_eq_some_iff.1 he <;> cases hp
    | some p =>
      rcases Port.ofAddress?_eq_some hp with ⟨n, rfl, rfl⟩ | ⟨rfl, rfl⟩
      · cases r with
        | A => exact byte_imm_eq_settled rfl n .u8 0
        | _ => rfl
      · exact extended_eq_settled (by cases r <;> rfl)
  · split
    · rename_i h
      obtain ⟨rfl, hp⟩ := h
      rcases Port.ofAddress?_eq_some hp with ⟨n, -, hn⟩ | ⟨rfl, -⟩
      · cases hn
      · exact extended_eq_settled rfl
    · rename_i hp
      refine illegal_eq_settled_of_none fun e he => ?_
      cases Port.output?_eq_some_iff.1 he
      exact hp ⟨rfl, rfl⟩
  · refine illegal_eq_settled_of_none fun e he => ?_
    cases Port.output?_eq_some_iff.1 he <;> solve_by_elim

/-! ## The instruction set -/

/-- The code of a mnemonic does what the table says for its operands. -/
theorem dispatch_eq (m : Mnemonic) (xs : List Operand) : dispatch m xs = settled (m.encode xs) := by
  cases m with
  | LD => exact load_eq xs
  | PUSH => exact transfer_eq (.inl rfl) xs
  | POP => exact transfer_eq (.inr rfl) xs
  | EX => exact exchange_eq xs
  | ADD => exact add_eq xs
  | ADC => exact withCarry_eq (.inl ⟨rfl, rfl⟩) xs
  | SBC => exact withCarry_eq (.inr ⟨rfl, rfl⟩) xs
  | SUB => exact logic_eq .SUB rfl xs
  | AND => exact logic_eq .AND rfl xs
  | XOR => exact logic_eq .XOR rfl xs
  | OR => exact logic_eq .OR rfl xs
  | CP => exact logic_eq .CP rfl xs
  | INC => exact step_eq .INC xs
  | DEC => exact step_eq .DEC xs
  | RLC | RRC | RL | RR | SLA | SRA | SRL => exact target_eq rfl 0 xs
  | BIT => exact bit_eq .BIT xs
  | RES => exact bit_eq .RES xs
  | SET => exact bit_eq .SET xs
  | JP => exact jump_eq xs
  | JR => exact relative_eq xs
  | DJNZ => exact loop_eq xs
  | CALL => exact call_eq xs
  | RET => exact ret_eq xs
  | RST => exact restart_eq xs
  | IM => exact interruptMode_eq xs
  | IN => exact input_eq xs
  | OUT => exact output_eq xs
  | _ =>
    -- a mnemonic by itself
    cases xs with
    | nil => exact bytes_eq_settled rfl rfl
    | cons x xs => rfl

end Z80Asm.Emitter
