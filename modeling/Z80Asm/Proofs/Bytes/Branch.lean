/-
The bytes of jumps, calls and returns (`Branch.Bytes`). A condition slot takes a condition, or the register whose name the
carry flag shares; a jump to where an index register points takes no displacement, not even zero. The encoder goes by this
table, and a number that is no restart vector is rejected as such (`Encoder.z80_branch`).
-/
import Z80Asm.Proofs.Assembler.Atomic
import Z80Asm.Proofs.Bytes.Table

namespace Z80Asm

open Vocabulary Width

/-- The mnemonics of jumps, calls and returns. -/
def Mnemonic.ofBranches : List Mnemonic := [.JP, .JR, .DJNZ, .CALL, .RET, .RST]

namespace Branch

/-! ## The table -/

/-- The multiples of eight from `00` to `38`. -/
def IsVector (n : Int32) : Prop := 0 ≤ n.toInt ∧ n.toInt ≤ 0x38 ∧ 8 ∣ n.toInt

/-- The operands of jumps, calls and returns and their bytes. -/
inductive Bytes : Mnemonic → List Operand → List UInt8 → Prop
  -- jumps
  | jump (nn : Int32) : Bytes .JP [.immediate nn] [0xC3, lowByte nn, highByte nn]
  | jumpHL : Bytes .JP [.hl] [0xE9]
  | jumpIndex (i : IndexPair) : Bytes .JP [.indexed i none] [i.prefixByte, 0xE9]
  | jumpOn {x : Operand} {c : Condition} (slot : Slot x c) (nn : Int32) :
    Bytes .JP [x, .immediate nn] [0xC2 + 8 * code c, lowByte nn, highByte nn]
  -- jumps by an offset
  | relative (d : Int32) : Bytes .JR [.immediate d] [0x18, lowByte d]
  | relativeOn {x : Operand} {c : Condition} (slot : Slot x c) (flag : c ∈ [.NZ, .Z, .NC, .C]) (d : Int32) :
    Bytes .JR [x, .immediate d] [0x20 + 8 * code c, lowByte d]
  | loop (d : Int32) : Bytes .DJNZ [.immediate d] [0x10, lowByte d]
  -- calls and returns
  | call (nn : Int32) : Bytes .CALL [.immediate nn] [0xCD, lowByte nn, highByte nn]
  | callOn {x : Operand} {c : Condition} (slot : Slot x c) (nn : Int32) :
    Bytes .CALL [x, .immediate nn] [0xC4 + 8 * code c, lowByte nn, highByte nn]
  | ret : Bytes .RET [] [0xC9]
  | retOn {x : Operand} {c : Condition} (slot : Slot x c) : Bytes .RET [x] [0xC0 + 8 * code c]
  | restart (n : Int32) (vector : IsVector n) : Bytes .RST [.immediate n] [0xC7 + lowByte n]

/-! ## The table and the rows -/

theorem isVector_iff {n : Int32} : IsVector n ↔ n ∈ vectors := by
  rw [mem_vectors_iff, IsVector, Int.dvd_iff_emod_eq_zero]
  simp [isRestart, and_assoc]

theorem isRelative_iff {c : Condition} : isRelative c = true ↔ c ∈ [.NZ, .Z, .NC, .C] := by
  cases c <;> decide

/-- A restart vector is a byte by itself. -/
theorem lowByte_of_isVector {n : Int32} (h : IsVector n) : lowByte n = UInt8.ofNat n.toInt.toNat := by
  obtain ⟨least, greatest, -⟩ := h
  exact lowByte_of_nonneg least (by omega)

theorem Bytes.exists_row {m : Mnemonic} {xs : List Operand} {bs : List UInt8} (h : Bytes m xs bs) :
    ∃ e, Row m xs e ∧ e.bytes = bs := by
  cases h with
  | jump nn => exact ⟨_, .jump (.absolute (.always nn)), rfl⟩
  | jumpHL => exact ⟨_, .jump .hl, rfl⟩
  | jumpIndex i => exact ⟨_, .jump (.index i), rfl⟩
  | jumpOn slot nn => exact ⟨_, .jump (.absolute (.conditional slot nn)), rfl⟩
  | relative d => exact ⟨_, .relative (.always d), rfl⟩
  | relativeOn slot flag d => exact ⟨_, .relative (.conditional slot (isRelative_iff.2 flag) d), rfl⟩
  | loop d => exact ⟨_, .loop (.intro d), rfl⟩
  | call nn => exact ⟨_, .call (.always nn), rfl⟩
  | callOn slot nn => exact ⟨_, .call (.conditional slot nn), rfl⟩
  | ret => exact ⟨_, .ret .always, rfl⟩
  | retOn slot => exact ⟨_, .ret (.conditional slot), rfl⟩
  | restart n vector =>
    rw [lowByte_of_isVector vector]
    exact ⟨_, .restart (.intro (isVector_iff.1 vector)), rfl⟩

theorem bytes_iff {m : Mnemonic} (hm : m ∈ Mnemonic.ofBranches) {xs : List Operand} {bs : List UInt8} :
    Bytes m xs bs ↔ ∃ e, Row m xs e ∧ e.bytes = bs := by
  refine ⟨Bytes.exists_row, ?_⟩
  rintro ⟨e, row, rfl⟩
  simp only [Mnemonic.ofBranches, List.mem_cons, List.not_mem_nil, or_false] at hm
  rcases hm with rfl | rfl | rfl | rfl | rfl | rfl
  · cases Row.jump_iff.1 row with
    | absolute row =>
      cases row with
      | always nn => exact .jump nn
      | conditional slot nn => exact .jumpOn slot nn
    | hl => exact .jumpHL
    | index i => exact .jumpIndex i
  · cases Row.relative_iff.1 row with
    | always d => exact .relative d
    | conditional slot flag d => exact .relativeOn slot (isRelative_iff.1 flag) d
  · cases Row.loop_iff.1 row with
    | intro d => exact .loop d
  · cases Row.call_iff.1 row with
    | always nn => exact .call nn
    | conditional slot nn => exact .callOn slot nn
  · cases Row.return_iff.1 row with
    | always => exact .ret
    | conditional slot => exact .retOn slot
  · cases Row.restart_iff.1 row with
    | @intro n vector =>
      have byte := lowByte_of_isVector (isVector_iff.2 vector)
      exact byte ▸ .restart n (isVector_iff.2 vector)

/-- A number alone is what `RST` does not take as such; no other operands have a fault of their own. -/
theorem rejection_eq {m : Mnemonic} (hm : m ∈ Mnemonic.ofBranches) {xs : List Operand}
    (other : ∀ n, m = .RST → xs ≠ [.immediate n]) : m.rejection xs = .illegalOperands := by
  simp only [Mnemonic.ofBranches, List.mem_cons, List.not_mem_nil, or_false] at hm
  rcases hm with rfl | rfl | rfl | rfl | rfl | rfl
  · rfl
  · rfl
  · rfl
  · rfl
  · rfl
  · rw [Mnemonic.rejection, rejection]
    exact fun n => other n rfl

end Branch

/-! ## The encoder -/

/-- The encoder, which joins the bits of an opcode and tests those of a vector, goes by the table of jumps, calls and
returns. A number that is no restart vector is rejected as such, at its own column, and all other operands without bytes
are not those of the mnemonic. -/
theorem Encoder.z80_branch (line : Nat) (out : Output) :
    z80 = running Emitter.dispatch ∧
    ∀ s : Statement, s.mnemonic ∈ Mnemonic.ofBranches → ∀ xs, Operand.ofNodes s.operands = .ok xs →
      (∀ bs, (∃ out', z80 line s out = (.ok (), out') ∧ out'.bytes = bs) ↔ Branch.Bytes s.mnemonic xs bs) ∧
      (∀ n, s.mnemonic = .RST → xs = [.immediate n] → ¬Branch.IsVector n →
        z80 line s out = (.error ⟨.RST, .badRestart n, s.columnOf 0⟩, out.clear)) ∧
      ((∀ bs, ¬Branch.Bytes s.mnemonic xs bs) → (∀ n, s.mnemonic = .RST → xs ≠ [.immediate n]) →
        z80 line s out = (.error ⟨s.mnemonic, .illegalOperands, s.column⟩, out.clear)) := by
  refine ⟨running_dispatch.symm, fun s hm xs hxs => ?_⟩
  obtain ⟨written, rejected⟩ := z80_of_table line out hxs fun bs => Branch.bytes_iff hm
  refine ⟨written, ?_, fun none other => rejected (Branch.rejection_eq hm other) none⟩
  rintro n hs rfl noVector
  have fault : s.mnemonic.rejection [.immediate n] = .badRestart n := by
    rw [hs]
    rfl
  rw [rejected fault, Statement.failure, hs]
  · rfl
  · rw [hs]
    intro bs h
    cases h with
    | restart _ vector => exact noVector vector

/-- `JP C,4660` has its bytes, `RST 9` has a number that is no vector, and `JP (IX+0)` has no bytes. -/
theorem Encoder.z80_branch_carry :
    (∃ out', z80 1 ⟨.JP, 0, [(Operand.register .C).node, (Operand.immediate 4660).node]⟩ .empty = (.ok (), out') ∧
      out'.bytes = [0xDA, 0x34, 0x12]) ∧
    z80 1 ⟨.RST, 0, [.leaf (.immediate 9) 4]⟩ .empty = (.error ⟨.RST, .badRestart 9, 4⟩, .empty) ∧
    z80 1 ⟨.JP, 0, [(Operand.indexed .IX (some 0)).node]⟩ .empty = (.error ⟨.JP, .illegalOperands, 0⟩, .empty) := by
  obtain ⟨-, table⟩ := z80_branch 1 .empty
  refine ⟨?_, ?_, ?_⟩
  · exact ((table _ (by decide) _ rfl).1 _).2 (.jumpOn .carry 4660)
  · exact (table _ (by decide) _ rfl).2.1 9 rfl rfl (by unfold Branch.IsVector; decide)
  · exact (table _ (by decide) _ rfl).2.2 nofun nofun

end Z80Asm
