/-
What a field keeps of its value: the residue modulo 256 or 65536. Two values have the same bytes exactly if
they are congruent (`Width.bytes_eq_iff`), every string of as many bytes as the field has is read back as one
value in its range (`Width.bytes_read`, `Width.fits_read`), and so every value has a representative in range.
-/
import Z80Asm.Machine.Field

namespace Z80Asm.Width

/-- The number of bytes of a field. -/
def size : Width → Nat
  | .u8 | .s8 => 1
  | .w16 => 2

/-- The number of values that a field tells apart. -/
def modulus : Width → Int
  | .u8 | .s8 => 0x100
  | .w16 => 0x10000

/-- Two values that a field does not tell apart. -/
def Congruent (w : Width) (v v' : Int32) : Prop := v.toInt % w.modulus = v'.toInt % w.modulus

/-- The value in the range of a field that its bytes spell; bytes of offsets are signed. -/
def read : Width → List UInt8 → Int32
  | .u8, [b] => Int32.ofInt b.toNat
  | .s8, [b] => Int32.ofInt (if b.toNat < 0x80 then b.toNat else b.toNat - 0x100)
  | .w16, [low, high] => Int32.ofInt (low.toNat + 0x100 * high.toNat)
  | _, _ => 0

/-- The value in the range of a field that has the bytes of a value. -/
def wrap (w : Width) (v : Int32) : Int32 := w.read (w.bytes v)

/-! ## Bytes -/

theorem toNat_lowByte (v : Int32) : ((lowByte v).toNat : Int) = v.toInt % 0x100 := by
  rw [lowByte, UInt8.toNat_ofNat']; omega

theorem toNat_highByte (v : Int32) : ((highByte v).toNat : Int) = v.toInt / 0x100 % 0x100 := by
  rw [highByte, UInt8.toNat_ofNat']; omega

/-- A number that a byte can hold is its own lowest byte. -/
theorem lowByte_of_nonneg {v : Int32} (h : 0 ≤ v.toInt) (hl : v.toInt < 0x100) : lowByte v = UInt8.ofNat v.toInt.toNat := by
  rw [lowByte, Int.emod_eq_of_lt h hl]

theorem lowByte_eq_iff {v v' : Int32} : lowByte v = lowByte v' ↔ v.toInt % 0x100 = v'.toInt % 0x100 := by
  rw [← UInt8.toNat_inj]
  have := toNat_lowByte v
  have := toNat_lowByte v'
  omega

theorem highByte_eq_iff {v v' : Int32} :
    highByte v = highByte v' ↔ v.toInt / 0x100 % 0x100 = v'.toInt / 0x100 % 0x100 := by
  rw [← UInt8.toNat_inj]
  have := toNat_highByte v
  have := toNat_highByte v'
  omega

theorem length_bytes (w : Width) (v : Int32) : (w.bytes v).length = w.size := by
  cases w <;> rfl

/-- A field shows its value up to congruence. -/
theorem bytes_eq_iff {w : Width} {v v' : Int32} : w.bytes v = w.bytes v' ↔ w.Congruent v v' := by
  unfold Congruent
  cases w with
  | w16 =>
    -- the second byte is the residue of the quotient, so that both together are that of the value
    simp only [bytes, modulus, List.cons.injEq, and_true, lowByte_eq_iff, highByte_eq_iff]
    omega
  | _ => simp only [bytes, modulus, List.cons.injEq, and_true, lowByte_eq_iff]

/-! ## Reading -/

theorem toInt_ofInt {n : Int} (h : -0x80000000 ≤ n ∧ n < 0x80000000) : (Int32.ofInt n).toInt = n :=
  Int32.toInt_ofInt_of_le h.1 h.2

theorem lowByte_ofInt {n : Int} (h : -0x80000000 ≤ n ∧ n < 0x80000000) {b : UInt8} (hb : n % 0x100 = b.toNat) :
    lowByte (Int32.ofInt n) = b := by
  rw [← UInt8.toNat_inj]
  have hl := toNat_lowByte (Int32.ofInt n)
  rw [toInt_ofInt h] at hl
  omega

theorem highByte_ofInt {n : Int} (h : -0x80000000 ≤ n ∧ n < 0x80000000) {b : UInt8}
    (hb : n / 0x100 % 0x100 = b.toNat) : highByte (Int32.ofInt n) = b := by
  rw [← UInt8.toNat_inj]
  have hh := toNat_highByte (Int32.ofInt n)
  rw [toInt_ofInt h] at hh
  omega

/-- Strings of the length of a field are bytes of a value. -/
theorem bytes_read {w : Width} {bs : List UInt8} (h : bs.length = w.size) : w.bytes (w.read bs) = bs := by
  match w, bs, h with
  | .u8, [b], _ =>
    have hb := b.toNat_lt
    rw [read, bytes, lowByte_ofInt (b := b) (by omega) (by omega)]
  | .s8, [b], _ =>
    have hb := b.toNat_lt
    rw [read, bytes]
    by_cases hs : b.toNat < 0x80
    · rw [if_pos hs, lowByte_ofInt (b := b) (by omega) (by omega)]
    · rw [if_neg hs, lowByte_ofInt (b := b) (by omega) (by omega)]
  | .w16, [low, high], _ =>
    have hl := low.toNat_lt
    have hh := high.toNat_lt
    rw [read, bytes, lowByte_ofInt (b := low) (by omega) (by omega), highByte_ofInt (b := high) (by omega) (by omega)]

theorem fits_iff {w : Width} {v : Int32} : w.fits v = true ↔ w.least ≤ v.toInt ∧ v.toInt ≤ w.greatest := by
  simp [fits]

/-- What is read is in range. -/
theorem fits_read (w : Width) (bs : List UInt8) : w.fits (w.read bs) = true := by
  rw [fits_iff]
  unfold read
  split
  · rename_i b
    have hb := b.toNat_lt
    rw [toInt_ofInt (by omega), least, greatest]
    omega
  · rename_i b
    have hb := b.toNat_lt
    by_cases hs : b.toNat < 0x80
    · rw [if_pos hs, toInt_ofInt (by omega), least, greatest]
      omega
    · rw [if_neg hs, toInt_ofInt (by omega), least, greatest]
      omega
  · rename_i low high
    have hl := low.toNat_lt
    have hh := high.toNat_lt
    rw [toInt_ofInt (by omega), least, greatest]
    omega
  · -- bytes of another number are read as zero
    cases w <;> exact ⟨by decide, by decide⟩

/-! ## Representatives -/

theorem bytes_wrap (w : Width) (v : Int32) : w.bytes (w.wrap v) = w.bytes v := bytes_read (length_bytes w v)

theorem fits_wrap (w : Width) (v : Int32) : w.fits (w.wrap v) = true := fits_read w _

end Z80Asm.Width
