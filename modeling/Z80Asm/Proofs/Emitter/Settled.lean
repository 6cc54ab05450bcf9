/-
Code that writes a settled encoding. Pieces written one after the other come to the same as the parts of one
machine instruction written at once, with the overflows of its fields; a code that finds no form leaves the
draft as it was.
-/
import Z80Asm.Proofs.Emitter.Code
import Z80Asm.Proofs.Table.Operand

namespace Z80Asm

open Encoding

/-- The overflows that fields of a statement's machine instruction have. -/
def Statement.noted (s : Statement) (fields : List Field) : List Overflow :=
  (fields.filter Field.overflows).map fun f => ⟨s.mnemonic, f.width, f.value, s.columnOf f.operand⟩

theorem Statement.noted_append (s : Statement) (fs gs : List Field) :
    s.noted (fs ++ gs) = s.noted fs ++ s.noted gs := by
  simp only [noted, List.filter_append, List.map_append]

namespace Encoding

theorem bytes_withData {e : Encoding} (h : e.data = none) (w : Width) (v : Int32) (i : Nat) :
    (e.withData w v i).bytes = e.bytes ++ w.bytes v := by
  obtain ⟨index, page, opcode, displacement, data⟩ := e
  cases h
  cases page <;> simp [bytes, withData, fieldBytes, Field.bytes]

theorem fields_withData {e : Encoding} (h : e.data = none) (w : Width) (v : Int32) (i : Nat) :
    (e.withData w v i).fields = e.fields ++ [⟨w, v, i⟩] := by
  obtain ⟨index, page, opcode, displacement, data⟩ := e
  cases h
  simp [fields, withData]

end Encoding

namespace Emitter

/-- The code that writes an encoding at once, or fails before it writes anything. -/
def settled (r : Except Fault Encoding) : Emitter Unit := fun s d =>
  match r with
  | .ok e => (.ok (), ⟨d.buffer ++ e.bytes, d.pending ++ s.noted e.fields⟩)
  | .error fault => (.error (s.failure fault), d)

/-! ## Steps -/

theorem bind_apply {α β : Type} (x : Emitter α) (f : α → Emitter β) (s : Statement) (d : Draft) :
    (x >>= f) s d = match x s d with
      | (.ok a, d) => f a s d
      | (.error e, d) => (.error e, d) := by
  show (match x s d with | (a, d) => ExceptT.bindCont (fun a => f a s) a d) = _
  rcases x s d with ⟨_ | _, _⟩ <;> rfl

theorem imm_apply (v : Int32) (w : Width) (i : Nat) (s : Statement) (d : Draft) :
    imm v w i s d = (.ok (), ⟨d.buffer ++ w.bytes v, d.pending ++ s.noted [⟨w, v, i⟩]⟩) := by
  unfold imm
  cases h : w.fits v
  · simp [bind_apply, h, Statement.noted, Field.overflows]; rfl
  · simp [bind_apply, h, Statement.noted, Field.overflows]; rfl

theorem settled_of_some {o : Option Encoding} {e : Encoding} (h : o = some e) :
    settled (Fault.orIllegal o) = settled (.ok e) := by
  rw [h]; rfl

theorem illegal_eq_settled_of_none {o : Option Encoding} (h : ∀ e, o ≠ some e) :
    illegal = settled (Fault.orIllegal o) := by
  cases o with
  | none => rfl
  | some e => exact absurd rfl (h e)

/-! ## Writing -/

theorem bytes_eq_settled {bs : List UInt8} {e : Encoding} (hb : bs = e.bytes) (hf : e.fields = []) :
    bytes bs = settled (.ok e) := by
  funext s d
  show (Except.ok (), (⟨d.buffer ++ bs, d.pending⟩ : Draft)) =
    (Except.ok (), ⟨d.buffer ++ e.bytes, d.pending ++ s.noted e.fields⟩)
  rw [hb, hf, Statement.noted, List.filter_nil, List.map_nil, List.append_nil]

theorem byte_eq_settled {b c : UInt8} (h : b = c) : byte b = settled (.ok (main c)) := by
  subst h; exact bytes_eq_settled rfl rfl

theorem indexed_eq_settled {p : IndexPair} {b c : UInt8} (h : b = c) :
    bytes [p.prefixByte, b] = settled (.ok ((main c).indexedBy (some p))) := by
  subst h; exact bytes_eq_settled rfl rfl

theorem extended_eq_settled {b c : UInt8} (h : b = c) : bytes [0xED, b] = settled (.ok (extended c)) := by
  subst h; exact bytes_eq_settled rfl rfl

theorem bit_eq_settled {b c : UInt8} (h : b = c) : bytes [0xCB, b] = settled (.ok (Encoding.bit c)) := by
  subst h; exact bytes_eq_settled rfl rfl

/-- A value after an instruction without data is its data. -/
theorem settled_bind_imm {e : Encoding} (h : e.data = none) (v : Int32) (w : Width) (i : Nat) :
    (do settled (.ok e); imm v w i) = settled (.ok (e.withData w v i)) := by
  funext s d
  rw [bind_apply]
  simp only [settled, imm_apply, bytes_withData h, fields_withData h, Statement.noted_append, List.append_assoc]

theorem byte_imm_eq_settled {b c : UInt8} (h : b = c) (v : Int32) (w : Width) (i : Nat) :
    (do byte b; imm v w i) = settled (.ok ((main c).withData w v i)) := by
  rw [byte_eq_settled h]; exact settled_bind_imm rfl v w i

theorem indexed_imm_eq_settled {p : IndexPair} {b c : UInt8} (h : b = c) (v : Int32) (w : Width) (i : Nat) :
    (do bytes [p.prefixByte, b]; imm v w i) = settled (.ok (((main c).indexedBy (some p)).withData w v i)) := by
  rw [indexed_eq_settled h]; exact settled_bind_imm rfl v w i

theorem mem_eq_settled (m : Memory) {b c : UInt8} (h : b = c) (i : Nat) :
    mem m b i = settled (.ok ((main c).onMemory m i)) := by
  subst h
  cases m with
  | hl => exact byte_eq_settled rfl
  | indexed p v =>
    funext s d
    simp only [mem, disp, bind_apply, imm_apply]
    show (Except.ok (), (⟨d.buffer ++ [p.prefixByte, b] ++ Width.s8.bytes v, _⟩ : Draft)) = _
    rw [List.append_assoc]
    rfl

theorem bitIndexed_eq_settled (p : IndexPair) (v : Int32) {b c : UInt8} (h : b = c) (i : Nat) :
    bitIndexed p v b i = settled (.ok ((Encoding.bit c).onMemory (.indexed p v) i)) := by
  subst h
  funext s d
  simp only [bitIndexed, disp, bind_apply, imm_apply]
  show (Except.ok (), (⟨d.buffer ++ [p.prefixByte, 0xCB] ++ Width.s8.bytes v ++ [b], _⟩ : Draft)) = _
  rw [List.append_assoc, List.append_assoc]
  rfl

theorem bitMem_eq_settled (m : Memory) {b c : UInt8} (h : b = c) (i : Nat) :
    bitMem m b i = settled (.ok ((Encoding.bit c).onMemory m i)) := by
  cases m with
  | hl => exact bit_eq_settled h
  | indexed p v => exact bitIndexed_eq_settled p v h i

/-! ## Writing at an address -/

/-- An opcode and the number of an address, if it has one. -/
theorem addressed_eq_settled {opcode : Emitter Unit} {e : Encoding} (h : opcode = settled (.ok e)) (hd : e.data = none)
    (a : Address) (i : Nat) :
    (do
      let nn ← require a.immediate?
      opcode
      word nn i) = settled (Fault.orIllegal (a.immediate?.map fun nn => e.withData .w16 nn i)) := by
  subst h
  cases a.immediate? with
  | none => rfl
  | some nn => exact settled_bind_imm hd nn .w16 i

/-- Code for the byte in memory that an address names, if it names one. -/
theorem memory_eq_settled {code : Memory → Emitter Unit} {e : Memory → Encoding}
    (h : ∀ m, code m = settled (.ok (e m))) (a : Address) :
    (do
      let m ← require a.memory?
      code m) = settled (Fault.orIllegal (a.memory?.map e)) := by
  cases a.memory? with
  | none => rfl
  | some m => exact h m

end Emitter

end Z80Asm
