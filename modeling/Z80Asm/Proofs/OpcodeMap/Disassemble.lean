/-
Reading machine code. The first bytes of an encoding show its cell, the cell shows which operands have
values, and the values follow; so an encoding is read back from the front of any bytes that begin with it
(`Row.disassemble?_append`), and programs with the same bytes have the same canonical form
(`Encoder.z80_uniquely_decodable`).
-/
import Z80Asm.Proofs.OpcodeMap.Form
import Z80Asm.Proofs.Assembler.Statement

namespace Z80Asm

/-! ## Cells at the front -/

namespace Cell

/-- The cell after an index prefix or none, and the bytes after it; the displacement that stands before an
opcode of the bit page is among these. -/
def splitPage? (index : Option IndexPair) : List UInt8 → Option (Cell × List UInt8)
  | [] => none
  | b :: bs =>
    if b = 0xCB then
      match index, bs with
      | none, opcode :: bs => some (⟨none, .bit, opcode⟩, bs)
      | some i, d :: opcode :: bs => some (⟨some i, .bit, opcode⟩, d :: bs)
      | _, _ => none
    else if b = 0xED then
      match bs with
      | opcode :: bs => some (⟨index, .extended, opcode⟩, bs)
      | [] => none
    else some (⟨index, .main, b⟩, bs)

/-- The cell at the front of bytes, and the bytes after it. -/
def split? : List UInt8 → Option (Cell × List UInt8)
  | [] => none
  | b :: bs =>
    if b = 0xDD then splitPage? (some .IX) bs
    else if b = 0xFD then splitPage? (some .IY) bs
    else splitPage? none (b :: bs)

/-- The bytes of prefixes and pages are no opcodes. -/
theorem opcode_of_form? {c : Cell} {form : Form} (h : c.form? = some form) (hp : c.page = .main) :
    c.opcode ≠ 0xCB ∧ c.opcode ≠ 0xDD ∧ c.opcode ≠ 0xED ∧ c.opcode ≠ 0xFD := by
  obtain ⟨index, page, opcode⟩ := c
  obtain rfl : page = .main := hp
  refine ⟨?_, ?_, ?_, ?_⟩ <;> rintro rfl <;> rcases index with _ | _ | _ <;> cases h

theorem split?_bytes {c : Cell} {form : Form} (h : c.form? = some form) {fields : List UInt8}
    (hb : c.page = .bit → fields.length = c.index.toList.length) (rest : List UInt8) :
    split? (c.bytes fields ++ rest) = some (c, fields ++ rest) := by
  have hm := opcode_of_form? h
  obtain ⟨index, page, opcode⟩ := c
  cases page with
  | main =>
    obtain ⟨hCB, hDD, hED, hFD⟩ := hm rfl
    rcases index with _ | _ | _ <;> simp_all [bytes, Page.bytes, split?, splitPage?, IndexPair.prefixByte]
  | bit =>
    -- the displacement before the opcode comes out first, where other pages have it after the opcode
    have hl := hb rfl
    rcases index with _ | i
    · obtain rfl := List.eq_nil_of_length_eq_zero hl
      rfl
    · obtain ⟨d, rfl⟩ := List.length_eq_one_iff.1 hl
      cases i <;> rfl
  | extended => rcases index with _ | _ | _ <;> rfl

end Cell

/-! ## Values after the cell -/

/-- The operands with values read from bytes, and the bytes that are left. -/
def Mnemonic.fill? (m : Mnemonic) (operands : List Operand) :
    List Operand → List UInt8 → Option (List Operand × List UInt8)
  | [], bs => some ([], bs)
  | x :: xs, bs =>
    match m.width? operands x with
    | none => (m.fill? operands xs bs).map fun (ys, rest) => (x :: ys, rest)
    | some w =>
      if bs.length < w.size then none
      else (m.fill? operands xs (bs.drop w.size)).map fun (ys, rest) =>
        (x.withValue (w.read (bs.take w.size)) :: ys, rest)

/-- Values are read back, in range, into operands without them. The induction is on the operands that are
left, while the widths are those of all operands. -/
theorem Mnemonic.fill?_blank {m : Mnemonic} {operands blanks : List Operand}
    (widths : m.width? blanks = m.width? operands) (rest : List UInt8) : ∀ xs : List Operand,
    m.fill? blanks
      (xs.map fun x => match m.width? operands x with
        | some _ => x.withValue 0
        | none => x)
      (xs.flatMap (m.operandBytes operands) ++ rest) =
    some (xs.map fun x => match m.width? operands x with
      | some w => x.withValue (w.wrap x.value)
      | none => x, rest)
  | [] => rfl
  | x :: xs => by
    have ih := fill?_blank widths rest xs
    rw [List.map_cons, List.map_cons, List.flatMap_cons, operandBytes]
    cases hw : m.width? operands x with
    | none =>
      simp only [fill?, widths, hw, List.nil_append, ih, Option.map_some]
    | some w =>
      have hl := Width.length_bytes w x.value
      have long : ¬(w.bytes x.value ++ (xs.flatMap (m.operandBytes operands) ++ rest)).length < w.size := by
        rw [List.length_append, hl]; omega
      simp only [fill?, widths, width?_withValue, hw, List.append_assoc, if_neg long, List.drop_left' hl,
        List.take_left' hl, ih, Option.map_some, Operand.withValue_withValue, Width.wrap]

/-! ## Instructions at the front -/

/-- The instruction at the front of bytes, and the bytes after it. -/
def disassemble? (bs : List UInt8) : Option (Form × List UInt8) :=
  (Cell.split? bs).bind fun (c, rest) => c.form?.bind fun (m, blanks) =>
    (m.fill? blanks blanks rest).map fun (xs, rest) => ((m, xs), rest)

/-- An encoding is read back from the front of the bytes that begin with it. -/
theorem Row.disassemble?_append {m : Mnemonic} {xs : List Operand} {e : Encoding} (h : Row m xs e)
    (rest : List UInt8) : disassemble? (e.bytes ++ rest) = some ((m, m.canonical xs), rest) := by
  obtain ⟨f, row, -, tail⟩ := h.reduce
  -- the form of the cell has the widths of the reduced operands, whose values the bytes are
  have widths := (m.alike_mapValues (fun _ _ => 0) (m.reduce xs)).width?_eq
  have filled := Mnemonic.fill?_blank widths rest (m.reduce xs)
  rw [disassemble?, h.bytes_eq, Cell.split?_bytes h.form?_cell h.bitRegular.displacement, Option.bind_some]
  simp only [h.form?_cell, Option.bind_some]
  rw [← tail, row.tail_eq]
  exact congrArg (Option.map _) filled

/-! ## Statements and programs -/

namespace Statement

/-- The encoder takes the statement to these bytes. -/
def Emits (s : Statement) (bs : List UInt8) : Prop :=
  ∃ line out out', Encoder.z80 line s out = (.ok (), out') ∧ out'.bytes = bs

/-- The canonical form of a statement, without columns; none, if a node is no operand. -/
def canonical? (s : Statement) : Option Form :=
  match Operand.ofNodes s.operands with
  | .ok xs => some (s.mnemonic, s.mnemonic.canonical xs)
  | .error _ => none

/-- Statements that have the same canonical form. -/
def Agrees (s t : Statement) : Prop := s.canonical? = t.canonical?

theorem emits_iff {s : Statement} {bs : List UInt8} :
    s.Emits bs ↔ ∃ xs e, Operand.ofNodes s.operands = .ok xs ∧ Row s.mnemonic xs e ∧ e.bytes = bs := by
  constructor
  · rintro ⟨line, out, out', h, rfl⟩
    obtain ⟨e, he, rfl⟩ := Encoder.encoding_of_z80 h
    obtain ⟨xs, hxs, row⟩ := encoding_eq_ok_iff.1 he
    exact ⟨xs, e, hxs, row, rfl⟩
  · rintro ⟨xs, e, hxs, row, rfl⟩
    exact ⟨1, .empty, _, Encoder.z80_of_encoding (encoding_eq_ok_iff.2 ⟨xs, hxs, row⟩), rfl⟩

theorem canonical?_eq_some {s : Statement} {xs : List Operand} (h : Operand.ofNodes s.operands = .ok xs) :
    s.canonical? = some (s.mnemonic, s.mnemonic.canonical xs) := by
  rw [canonical?, h]

theorem Emits.disassemble?_append {s : Statement} {bs : List UInt8} (h : s.Emits bs) (rest : List UInt8) :
    disassemble? (bs ++ rest) = s.canonical?.map fun form => (form, rest) := by
  obtain ⟨xs, e, hxs, row, rfl⟩ := emits_iff.1 h
  rw [row.disassemble?_append, canonical?_eq_some hxs, Option.map_some]

theorem Emits.isSome {s : Statement} {bs : List UInt8} (h : s.Emits bs) : s.canonical?.isSome := by
  obtain ⟨xs, e, hxs, -⟩ := emits_iff.1 h
  rw [canonical?_eq_some hxs, Option.isSome_some]

/-- What begins with the bytes of two statements goes on in the same way, and the statements agree. -/
theorem Emits.agrees_of_append_eq {s t : Statement} {bs cs : List UInt8} (hs : s.Emits bs) (ht : t.Emits cs)
    {rest rest' : List UInt8} (h : bs ++ rest = cs ++ rest') : s.Agrees t ∧ rest = rest' := by
  have hd : s.canonical?.map (fun form => (form, rest)) = t.canonical?.map fun form => (form, rest') := by
    rw [← hs.disassemble?_append, h, ht.disassemble?_append]
  obtain ⟨form, hform⟩ := Option.isSome_iff_exists.1 hs.isSome
  obtain ⟨form', hform'⟩ := Option.isSome_iff_exists.1 ht.isSome
  rw [hform, hform', Option.map_some, Option.map_some] at hd
  cases hd
  exact ⟨hform.trans hform'.symm, rfl⟩

theorem Emits.eq_of_agrees {s t : Statement} {bs cs : List UInt8} (hs : s.Emits bs) (ht : t.Emits cs)
    (h : s.Agrees t) : bs = cs := by
  obtain ⟨xs, e, hxs, row, rfl⟩ := emits_iff.1 hs
  obtain ⟨ys, f, hys, row', rfl⟩ := emits_iff.1 ht
  obtain ⟨e', canonical, he⟩ := row.canonical
  obtain ⟨f', canonical', hf⟩ := row'.canonical
  have forms := Option.some.inj ((canonical?_eq_some hxs).symm.trans (h.trans (canonical?_eq_some hys)))
  obtain ⟨hm, hc⟩ := Prod.mk.inj forms
  rw [hc, hm] at canonical
  rw [← he, ← hf, canonical.unique canonical']

theorem Emits.ne_nil {s : Statement} {bs : List UInt8} (h : s.Emits bs) : bs ≠ [] := by
  obtain ⟨xs, e, -, -, rfl⟩ := emits_iff.1 h
  exact e.bytes_ne_nil

/-- Programs with the same bytes agree, statement by statement. -/
theorem forall₂_agrees_of_flatten_eq : ∀ {p q : List Statement} {bs cs : List (List UInt8)},
    List.Forall₂ Emits p bs → List.Forall₂ Emits q cs → bs.flatten = cs.flatten → List.Forall₂ Agrees p q
  | [], [], _, _, _, _, _ => .nil
  | [], _ :: _, _, _, .nil, .cons ht _, h => absurd (List.append_eq_nil_iff.1 h.symm).1 ht.ne_nil
  | _ :: _, [], _, _, .cons hs _, .nil, h => absurd (List.append_eq_nil_iff.1 h).1 hs.ne_nil
  | _ :: _, _ :: _, _, _, .cons hs hp, .cons ht hq, h => by
    obtain ⟨agrees, rest⟩ := hs.agrees_of_append_eq ht h
    exact .cons agrees (forall₂_agrees_of_flatten_eq hp hq rest)

theorem flatten_eq_of_forall₂_agrees : ∀ {p q : List Statement} {bs cs : List (List UInt8)},
    List.Forall₂ Emits p bs → List.Forall₂ Emits q cs → List.Forall₂ Agrees p q → bs.flatten = cs.flatten
  | [], [], _, _, .nil, .nil, _ => rfl
  | _ :: _, _ :: _, _, _, .cons hs hp, .cons ht hq, .cons agrees h => by
    rw [List.flatten_cons, List.flatten_cons, hs.eq_of_agrees ht agrees, flatten_eq_of_forall₂_agrees hp hq h]

end Statement

/-- Machine code is uniquely decodable: programs have the same bytes exactly if they are of the same length and
agree statement by statement. No encoding is a proper prefix of another, and two encodings are the same exactly
if their statements agree. -/
theorem Encoder.z80_uniquely_decodable :
    (∀ p q bs cs, List.Forall₂ Statement.Emits p bs → List.Forall₂ Statement.Emits q cs →
      (bs.flatten = cs.flatten ↔ List.Forall₂ Statement.Agrees p q)) ∧
    ∀ s t bs cs, Statement.Emits s bs → Statement.Emits t cs →
      (bs <+: cs → bs = cs) ∧ (bs = cs ↔ s.Agrees t) := by
  refine ⟨fun p q bs cs hp hq => ⟨?_, ?_⟩, fun s t bs cs hs ht => ⟨?_, ?_, ?_⟩⟩
  · exact Statement.forall₂_agrees_of_flatten_eq hp hq
  · exact Statement.flatten_eq_of_forall₂_agrees hp hq
  · rintro ⟨rest, h⟩
    obtain ⟨-, rfl⟩ := hs.agrees_of_append_eq ht (h.trans (List.append_nil cs).symm)
    exact (List.append_nil bs).symm.trans h
  · rintro rfl
    exact (hs.agrees_of_append_eq ht (rfl : bs ++ [] = bs ++ [])).1
  · exact hs.eq_of_agrees ht

/-- `SUB A,B` and `JP C,65537`, where `C` is the register, agree with `SUB B` and `JP C,1`, where it is the
condition. -/
theorem Encoder.z80_uniquely_decodable_spellings :
    List.Forall₂ Statement.Agrees
      [⟨.SUB, 0, [(Operand.register .A).node, (Operand.register .B).node]⟩,
        ⟨.JP, 0, [(Operand.register .C).node, (Operand.immediate 65537).node]⟩]
      [⟨.SUB, 0, [(Operand.register .B).node]⟩, ⟨.JP, 0, [(Operand.condition .C).node, (Operand.immediate 1).node]⟩] := by
  refine (Encoder.z80_uniquely_decodable.1 _ _ [[0x90], [0xDA, 0x01, 0x00]] [[0x90], [0xDA, 0x01, 0x00]] ?_ ?_).1 rfl
  · exact .cons ⟨1, .empty, _, rfl, rfl⟩ (.cons ⟨1, .empty, _, rfl, rfl⟩ .nil)
  · exact .cons ⟨1, .empty, _, rfl, rfl⟩ (.cons ⟨1, .empty, _, rfl, rfl⟩ .nil)

end Z80Asm
