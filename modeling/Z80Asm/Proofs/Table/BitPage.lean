/-
The rows of the bit page. Rotations, shifts and accesses to single bits take the same targets, and the
index of a bit is one of eight numbers.
-/
import Z80Asm.Machine.BitPage
import Z80Asm.Proofs.Table.Operand

namespace Z80Asm

open Vocabulary Encoding

/-! ## Targets -/

namespace BitPage

/-- The targets of an instruction of the bit page, whose operands begin at the position `first`. -/
inductive Target (opcode : UInt8) (first : Nat) : List Operand → Encoding → Prop
  | register (r : Register) : Target opcode first [.register r] (bit (opcode + code r))
  | hl : Target opcode first [.hl] (bit (opcode + 6))
  | indexed (i : IndexPair) (d : Option Int32) :
    Target opcode first [.indexed i d] ((bit (opcode + 6)).atIndex i d first)
  | copy (i : IndexPair) (d : Option Int32) (r : Register) :
    Target opcode first [.indexed i d, .register r] ((bit (opcode + code r)).atIndex i d first)

theorem onTarget?_eq_some_iff {opcode : UInt8} {first : Nat} {xs : List Operand} {e : Encoding} :
    onTarget? opcode first xs = some e ↔ Target opcode first xs e := by
  constructor
  · intro h
    unfold onTarget? at h
    split at h
    · cases h; exact .register _
    · obtain ⟨m, hm, rfl⟩ := Option.map_eq_some_iff.1 h
      rcases Address.memory?_eq_some hm with ⟨rfl, rfl⟩ | ⟨i, d, rfl, rfl⟩
      · exact .hl
      · exact .indexed i d
    · split at h
      · rename_i hm
        cases h
        rcases Address.memory?_eq_some hm with ⟨-, hm⟩ | ⟨i, d, rfl, hm⟩
        · cases hm
        · cases hm; exact .copy _ _ _
      · cases h
    · cases h
  · intro h
    cases h <;> rfl

end BitPage

/-! ## Rotations and shifts -/

theorem Rotation.encode?_eq_some_iff {r : Rotation} {xs : List Operand} {e : Encoding} :
    r.encode? xs = some e ↔ BitPage.Target r.opcode 0 xs e := BitPage.onTarget?_eq_some_iff

/-! ## Single bits -/

namespace BitAccess

/-- The numbers of the bits of a byte. -/
def indices : List Int32 := [0, 1, 2, 3, 4, 5, 6, 7]

/-- The rows of the accesses to single bits. -/
inductive Row (b : BitAccess) : List Operand → Encoding → Prop
  | intro {n : Int32} {target : List Operand} {e : Encoding} (index : n ∈ indices)
    (row : BitPage.Target (b.opcode + 8 * UInt8.ofNat n.toInt.toNat) 1 target e) :
    Row b (.immediate n :: target) e

theorem mem_indices_iff {n : Int32} : n ∈ indices ↔ 0 ≤ n.toInt ∧ n.toInt ≤ 7 := by
  constructor
  · intro h
    simp only [indices, List.mem_cons, List.not_mem_nil, or_false] at h
    rcases h with rfl | rfl | rfl | rfl | rfl | rfl | rfl | rfl <;> decide
  · rintro ⟨h0, h7⟩
    have hn : n = Int32.ofInt n.toInt := by simp
    obtain h | h | h | h | h | h | h | h : n.toInt = 0 ∨ n.toInt = 1 ∨ n.toInt = 2 ∨ n.toInt = 3 ∨
      n.toInt = 4 ∨ n.toInt = 5 ∨ n.toInt = 6 ∨ n.toInt = 7 := by omega
    all_goals rw [hn, h]; decide

theorem encode_eq_ok_iff {b : BitAccess} {xs : List Operand} {e : Encoding} :
    b.encode xs = .ok e ↔ Row b xs e := by
  constructor
  · intro h
    unfold encode at h
    split at h
    · split at h
      · rename_i hn
        exact .intro (mem_indices_iff.2 hn) (BitPage.onTarget?_eq_some_iff.1 (Fault.orIllegal_eq_ok.1 h))
      · cases h
    · cases h
  · rintro ⟨index, row⟩
    rw [encode, if_pos (mem_indices_iff.1 index)]
    exact Fault.orIllegal_eq_ok.2 (BitPage.onTarget?_eq_some_iff.2 row)

end BitAccess

end Z80Asm
