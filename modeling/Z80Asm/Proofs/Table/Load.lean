/-
The rows of `LD`: its operands, and the encoding that each pair of them has. The main statement,
`Load.encode_eq_ok_iff`, says that `LD` has an encoding exactly where there is a row for it.
-/
import Z80Asm.Machine.Load
import Z80Asm.Proofs.Table.Operand

namespace Z80Asm

open Vocabulary Encoding

namespace Load

/-- The rows of `LD`. -/
inductive Row : List Operand → Encoding → Prop
  -- bytes
  | register (r s : Register) : Row [.register r, .register s] (main (0x40 + 8 * code r + code s))
  | number (r : Register) (n : Int32) (fits : Width.u8.fits n = true) :
    Row [.register r, .immediate n] ((main (0x06 + 8 * code r)).withData .u8 n 1)
  | fromHL (r : Register) : Row [.register r, .hl] (main (0x46 + 8 * code r))
  | fromIndexed (r : Register) (i : IndexPair) (d : Option Int32) :
    Row [.register r, .indexed i d] ((main (0x46 + 8 * code r)).atIndex i d 1)
  | toHL (r : Register) : Row [.hl, .register r] (main (0x70 + code r))
  | toIndexed (i : IndexPair) (d : Option Int32) (r : Register) :
    Row [.indexed i d, .register r] ((main (0x70 + code r)).atIndex i d 0)
  | numberToHL (n : Int32) : Row [.hl, .immediate n] ((main 0x36).withData .u8 n 1)
  | numberToIndexed (i : IndexPair) (d : Option Int32) (n : Int32) :
    Row [.indexed i d, .immediate n] (((main 0x36).atIndex i d 0).withData .u8 n 1)
  | fromHalf (r : Register) (k : IndexHalf) (plain : r ≠ .H ∧ r ≠ .L) :
    Row [.register r, .indexHalf k] ((main (0x40 + 8 * code r + k.field)).indexedBy (some k.pair))
  | toHalf (k : IndexHalf) (r : Register) (plain : r ≠ .H ∧ r ≠ .L) :
    Row [.indexHalf k, .register r] ((main (0x40 + 8 * k.field + code r)).indexedBy (some k.pair))
  | half (k l : IndexHalf) (same : k.pair = l.pair) :
    Row [.indexHalf k, .indexHalf l] ((main (0x40 + 8 * k.field + l.field)).indexedBy (some k.pair))
  | numberToHalf (k : IndexHalf) (n : Int32) :
    Row [.indexHalf k, .immediate n]
      (((main (0x06 + 8 * k.field)).indexedBy (some k.pair)).withData .u8 n 1)
  -- the accumulator
  | fromPointer (p : NormalPair) (wide : p = .BC ∨ p = .DE) :
    Row [.register .A, .pointer p] (main (0x0A + 16 * code p))
  | fromNumeric (nn : Int32) (d : Option Int32) :
    Row [.register .A, .numeric nn d] ((main 0x3A).withData .w16 nn 1)
  | toPointer (p : NormalPair) (wide : p = .BC ∨ p = .DE) :
    Row [.pointer p, .register .A] (main (0x02 + 16 * code p))
  | toNumeric (nn : Int32) (d : Option Int32) :
    Row [.numeric nn d, .register .A] ((main 0x32).withData .w16 nn 0)
  | fromSpecial (r : SpecialRegister) :
    Row [.register .A, .specialRegister r] (extended (0x57 + 8 * code r))
  | toSpecial (r : SpecialRegister) :
    Row [.specialRegister r, .register .A] (extended (0x47 + 8 * code r))
  -- pairs
  | pairNumber (p : NormalPair) (nn : Int32) :
    Row [.normalPair p, .immediate nn] ((main (0x01 + 16 * code p)).withData .w16 nn 1)
  | indexNumber (i : IndexPair) (nn : Int32) :
    Row [.indexPair i, .immediate nn] (((main 0x21).indexedBy (some i)).withData .w16 nn 1)
  | hlFromNumeric (nn : Int32) (d : Option Int32) :
    Row [.normalPair .HL, .numeric nn d] ((main 0x2A).withData .w16 nn 1)
  | hlToNumeric (nn : Int32) (d : Option Int32) :
    Row [.numeric nn d, .normalPair .HL] ((main 0x22).withData .w16 nn 0)
  | pairFromNumeric (p : NormalPair) (nn : Int32) (d : Option Int32) (long : p ≠ .HL) :
    Row [.normalPair p, .numeric nn d] ((extended (0x4B + 16 * code p)).withData .w16 nn 1)
  | pairToNumeric (p : NormalPair) (nn : Int32) (d : Option Int32) (long : p ≠ .HL) :
    Row [.numeric nn d, .normalPair p] ((extended (0x43 + 16 * code p)).withData .w16 nn 0)
  | indexFromNumeric (i : IndexPair) (nn : Int32) (d : Option Int32) :
    Row [.indexPair i, .numeric nn d] (((main 0x2A).indexedBy (some i)).withData .w16 nn 1)
  | indexToNumeric (i : IndexPair) (nn : Int32) (d : Option Int32) :
    Row [.numeric nn d, .indexPair i] (((main 0x22).indexedBy (some i)).withData .w16 nn 0)
  | stackPointer : Row [.normalPair .SP, .normalPair .HL] (main 0xF9)
  | stackPointerIndex (i : IndexPair) :
    Row [.normalPair .SP, .indexPair i] ((main 0xF9).indexedBy (some i))

/-! ## Every encoding is in a row -/

theorem row_of_set? {x : Operand} {n : Int32} {e : Encoding} (hx : ∀ r, x ≠ .register r)
    (h : set? x n = some e) : Row [x, .immediate n] e := by
  unfold set? at h
  split at h
  · rename_i p hp
    cases h
    rcases Place.ofOperand?_eq_some hp with ⟨r, rfl, -⟩ | ⟨k, rfl, rfl⟩ | ⟨rfl, rfl⟩ | ⟨i, d, rfl, rfl⟩
    · exact absurd rfl (hx r)
    · exact .numberToHalf k n
    · exact .numberToHL n
    · exact .numberToIndexed i d n
  · obtain ⟨p, hp, rfl⟩ := Option.map_eq_some_iff.1 h
    rcases PairPlace.ofOperand?_eq_some hp with ⟨q, rfl, rfl⟩ | ⟨i, rfl, rfl⟩
    · exact .pairNumber q n
    · exact .indexNumber i n

/-- The byte moves, by the places between which they go. -/
theorem row_of_moveByte? {x y : Operand} {p q : Place} {e : Encoding} (hp : Place.ofOperand? x = some p)
    (hq : Place.ofOperand? y = some q) (h : moveByte? p q = some e) : Row [x, y] e := by
  unfold moveByte? at h
  split at h
  case isFalse => cases h
  rename_i hc
  cases h
  rcases Place.ofOperand?_eq_some hp with ⟨r, rfl, rfl⟩ | ⟨k, rfl, rfl⟩ | ⟨rfl, rfl⟩ | ⟨i, d, rfl, rfl⟩ <;>
    rcases Place.ofOperand?_eq_some hq with ⟨s, rfl, rfl⟩ | ⟨l, rfl, rfl⟩ | ⟨rfl, rfl⟩ | ⟨j, c, rfl, rfl⟩
  -- of the sixteen pairs, those with memory on both sides and those of memory and a half are not compatible
  · exact .register r s
  · exact .fromHalf r l (by simpa [Place.compatible] using hc)
  · cases r <;> exact .fromHL _
  · cases r <;> exact .fromIndexed _ j c
  · exact .toHalf k s (by simpa [Place.compatible] using hc)
  · obtain same : k.pair = l.pair := by simpa [Place.compatible] using hc
    have := Row.half k l same
    simp only [Place.apply, Place.code, indexedBy, same] at this ⊢
    exact this
  · cases hc
  · cases hc
  · cases s <;> exact .toHL _
  · cases hc
  · cases hc
  · cases hc
  · cases s <;> exact .toIndexed i d _
  · cases hc
  · cases hc
  · cases hc

/-- The accumulator goes to or comes from a pair's address or a numeric one. -/
theorem accumulator?_eq_some {t : Transfer} {a : Address} {e : Encoding} (h : t.accumulator? a = some e) :
    (∃ p, (p = NormalPair.BC ∨ p = .DE) ∧ a = ⟨.normalPair p, none⟩ ∧ e = main (0x02 + 16 * code p + t.bit)) ∨
      ∃ nn d, a = ⟨.immediate nn, d⟩ ∧ e = (main (0x32 + t.bit)).withData .w16 nn t.addressOperand := by
  unfold Transfer.accumulator? at h
  split at h
  · rename_i hp
    cases h
    exact .inl ⟨.BC, .inl rfl, Address.isPair_iff.1 hp, rfl⟩
  · split at h
    · rename_i hp
      cases h
      exact .inl ⟨.DE, .inr rfl, Address.isPair_iff.1 hp, rfl⟩
    · obtain ⟨nn, hn, rfl⟩ := Option.map_eq_some_iff.1 h
      obtain ⟨d, rfl⟩ := Address.immediate?_eq_some hn
      exact .inr ⟨nn, d, rfl, rfl⟩

theorem row_of_pair?_load {x : Operand} {p : PairPlace} {a : Address} {e : Encoding}
    (hp : PairPlace.ofOperand? x = some p) (h : Transfer.load.pair? p a = some e) : Row [x, .address a] e := by
  obtain ⟨nn, hn, rfl⟩ := Option.map_eq_some_iff.1 h
  obtain ⟨d, rfl⟩ := Address.immediate?_eq_some hn
  rcases PairPlace.ofOperand?_eq_some hp with ⟨q, rfl, rfl⟩ | ⟨i, rfl, rfl⟩
  · cases q
    · exact .pairFromNumeric .BC nn d (by decide)
    · exact .pairFromNumeric .DE nn d (by decide)
    · exact .hlFromNumeric nn d
    · exact .pairFromNumeric .SP nn d (by decide)
  · exact .indexFromNumeric i nn d

theorem row_of_pair?_store {x : Operand} {p : PairPlace} {a : Address} {e : Encoding}
    (hp : PairPlace.ofOperand? x = some p) (h : Transfer.store.pair? p a = some e) : Row [.address a, x] e := by
  obtain ⟨nn, hn, rfl⟩ := Option.map_eq_some_iff.1 h
  obtain ⟨d, rfl⟩ := Address.immediate?_eq_some hn
  rcases PairPlace.ofOperand?_eq_some hp with ⟨q, rfl, rfl⟩ | ⟨i, rfl, rfl⟩
  · cases q
    · exact .pairToNumeric .BC nn d (by decide)
    · exact .pairToNumeric .DE nn d (by decide)
    · exact .hlToNumeric nn d
    · exact .pairToNumeric .SP nn d (by decide)
  · exact .indexToNumeric i nn d

theorem row_of_transfer?_load {x : Operand} {a : Address} {e : Encoding}
    (h : transfer? .load x a = some e) : Row [x, .address a] e := by
  unfold transfer? at h
  split at h
  · rename_i r
    split at h
    · rename_i m hm _
      exact row_of_moveByte? rfl (by simp [Place.ofOperand?, hm]) h
    · cases ‹Transfer.load = Transfer.store›
    · split at h
      · subst r
        rcases accumulator?_eq_some h with ⟨p, rfl | rfl, rfl, rfl⟩ | ⟨nn, d, rfl, rfl⟩
        · exact .fromPointer .BC (.inl rfl)
        · exact .fromPointer .DE (.inr rfl)
        · exact .fromNumeric nn d
      · cases h
  · obtain ⟨p, hp, h⟩ := Option.bind_eq_some_iff.1 h
    exact row_of_pair?_load hp h

theorem row_of_transfer?_store {x : Operand} {a : Address} {e : Encoding}
    (h : transfer? .store x a = some e) : Row [.address a, x] e := by
  unfold transfer? at h
  split at h
  · rename_i r
    split at h
    · cases ‹Transfer.store = Transfer.load›
    · rename_i m hm _
      exact row_of_moveByte? (by simp [Place.ofOperand?, hm]) rfl h
    · split at h
      · subst r
        rcases accumulator?_eq_some h with ⟨p, rfl | rfl, rfl, rfl⟩ | ⟨nn, d, rfl, rfl⟩
        · exact .toPointer .BC (.inl rfl)
        · exact .toPointer .DE (.inr rfl)
        · exact .toNumeric nn d
      · cases h
  · obtain ⟨p, hp, h⟩ := Option.bind_eq_some_iff.1 h
    exact row_of_pair?_store hp h

theorem row_of_moveTo? {x y : Operand} {e : Encoding} (h : moveTo? x y = some e) : Row [x, y] e := by
  unfold moveTo? at h
  split at h
  · split at h
    · subst_vars
      obtain ⟨p, hp, h⟩ := Option.bind_eq_some_iff.1 h
      unfold setStackPointer? at h
      split at h
      case isFalse => cases h
      rename_i hl
      cases h
      rcases PairPlace.ofOperand?_eq_some hp with ⟨q, rfl, rfl⟩ | ⟨i, rfl, rfl⟩
      · obtain rfl : q = .HL := by simpa [PairPlace.isHL] using hl
        exact .stackPointer
      · exact .stackPointerIndex i
    · cases h
  · unfold setSpecial? at h
    split at h
    · subst_vars; cases h; exact .toSpecial _
    · cases h
  · obtain ⟨p, hp, h⟩ := Option.bind_eq_some_iff.1 h
    obtain ⟨q, hq, h⟩ := Option.bind_eq_some_iff.1 h
    exact row_of_moveByte? hp hq h

theorem row_of_load? {x y : Operand} {e : Encoding} (hx : ∀ r n, x = .register r → y ≠ .immediate n)
    (h : load? x y = some e) : Row [x, y] e := by
  unfold load? at h
  split at h
  · rename_i n
    exact row_of_set? (fun r hr => hx r n hr rfl) h
  · exact row_of_transfer?_load h
  · unfold fromSpecial? at h
    split at h
    · subst_vars; cases h; exact .fromSpecial _
    · cases h
  · split at h
    · exact row_of_transfer?_store h
    · exact row_of_moveTo? h

/-! ## Every row is encoded -/

theorem moveByte?_of_compatible {p q : Place} (h : p.compatible q = true) :
    moveByte? p q = some (q.apply 1 (p.apply 0 (main (0x40 + 8 * p.code + q.code)))) := by
  rw [moveByte?, if_pos h]

theorem encode_of_row {xs : List Operand} {e : Encoding} (h : Row xs e) : encode xs = .ok e := by
  cases h with
  | number r n fits => simp [encode, fits, setByte, Place.apply, Place.code]
  | fromHL r => cases r <;> rfl
  | fromIndexed r i d => cases r <;> rfl
  | toHL r => cases r <;> rfl
  | toIndexed i d r => cases r <;> rfl
  | fromHalf r k plain =>
    have hc : (Place.register r).compatible (.half k) = true := by simpa [Place.compatible] using plain
    show Fault.orIllegal (moveByte? (.register r) (.half k)) = _
    rw [moveByte?_of_compatible hc]; rfl
  | toHalf k r plain =>
    have hc : (Place.half k).compatible (.register r) = true := by simpa [Place.compatible] using plain
    show Fault.orIllegal (moveByte? (.half k) (.register r)) = _
    rw [moveByte?_of_compatible hc]; rfl
  | half k l same =>
    have hc : (Place.half k).compatible (.half l) = true := by simpa [Place.compatible] using same
    show Fault.orIllegal (moveByte? (.half k) (.half l)) = _
    rw [moveByte?_of_compatible hc, same]; rfl
  | fromPointer p wide => rcases wide with rfl | rfl <;> rfl
  | toPointer p wide => rcases wide with rfl | rfl <;> rfl
  | pairFromNumeric p nn d long =>
    cases p with
    | HL => exact absurd rfl long
    | _ => rfl
  | pairToNumeric p nn d long =>
    cases p with
    | HL => exact absurd rfl long
    | _ => rfl
  | _ => rfl

/-- A number that does not fit its register is no operand. -/
theorem encode_number_outOfRange {r : Register} {n : Int32} (h : Width.u8.fits n = false) :
    encode [.register r, .immediate n] = .error (.outOfRange n) := by
  simp [encode, h]

/-- `LD` has an encoding exactly where there is a row for its operands. -/
theorem encode_eq_ok_iff {xs : List Operand} {e : Encoding} : encode xs = .ok e ↔ Row xs e := by
  refine ⟨fun h => ?_, encode_of_row⟩
  unfold encode at h
  split at h
  · split at h
    · rename_i fits
      cases h
      exact .number _ _ fits
    · cases h
  · rename_i x y hxy
    exact row_of_load? (fun r n hx hy => hxy r n hx hy) (Fault.orIllegal_eq_ok.1 h)
  · cases h

end Load

end Z80Asm
