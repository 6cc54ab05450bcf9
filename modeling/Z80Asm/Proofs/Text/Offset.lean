/-
Texts by byte offsets. A byte is looked at as the character of its number, which is a character of the text only
where the text is ASCII; a slice has to begin and to end between two characters.
-/

namespace Z80Asm.Text

/-- The byte at an offset, as the character of its number. -/
def byte? (s : String) (i : Nat) : Option Char := s.toByteArray.data[i]?.map Char.ofUInt8

/-- The text between two offsets. There is none if the offsets are not in order, or if one of them is inside of a
character or behind the end. -/
def slice? (s : String) (start stop : Nat) : Option String :=
  if h : start ≤ stop ∧ (⟨start⟩ : String.Pos.Raw).IsValid s ∧ (⟨stop⟩ : String.Pos.Raw).IsValid s then
    some (s.extract ⟨⟨start⟩, h.2.1⟩ ⟨⟨stop⟩, h.2.2⟩)
  else none

/-! ## Slices -/

theorem slice?_append (a b c : String) :
    slice? (a ++ b ++ c) a.utf8ByteSize (a.utf8ByteSize + b.utf8ByteSize) = some b := by
  have start : (⟨a.utf8ByteSize⟩ : String.Pos.Raw).IsValid (a ++ b ++ c) :=
    String.Pos.Raw.isValid_iff_exists_append.2 ⟨a, b ++ c, String.append_assoc .., rfl⟩
  have stop : (⟨a.utf8ByteSize + b.utf8ByteSize⟩ : String.Pos.Raw).IsValid (a ++ b ++ c) :=
    String.Pos.Raw.isValid_iff_exists_append.2
      ⟨a ++ b, c, rfl, congrArg String.Pos.Raw.mk String.utf8ByteSize_append.symm⟩
  rw [slice?, dif_pos ⟨Nat.le_add_right .., start, stop⟩]
  congr 1
  apply String.toByteArray_inj.1
  rw [String.toByteArray_extract, String.toByteArray_append, String.toByteArray_append,
    ByteArray.append_assoc]
  have h := ByteArray.extract_append_size_add (a := a.toByteArray) (b := b.toByteArray ++ c.toByteArray) (i := 0)
    (j := b.toByteArray.size)
  rw [Nat.add_zero, ByteArray.extract_append_eq_left rfl] at h
  exact h

theorem slice?_append_right (a b : String) : slice? (a ++ b) a.utf8ByteSize (a ++ b).utf8ByteSize = some b := by
  have h := slice?_append a b ""
  rwa [String.append_empty, ← String.utf8ByteSize_append] at h

/-! ## Bytes -/

theorem lt_of_byte? {s : String} {i : Nat} {c : Char} (h : byte? s i = some c) : i < s.utf8ByteSize := by
  obtain ⟨b, hb, -⟩ := Option.map_eq_some_iff.1 h
  exact (Array.getElem?_eq_some_iff.1 hb).1

/-- The first byte of a character, as the character of its number. -/
def firstByte (c : Char) : Char := Char.ofUInt8 ((String.utf8EncodeChar c).headD 0)

theorem byte?_append (a : String) (text : List Char) :
    byte? (a ++ String.ofList text) a.utf8ByteSize = text.head?.map firstByte := by
  have bytes : (a ++ String.ofList text).toByteArray.data[a.utf8ByteSize]? =
      (text.flatMap String.utf8EncodeChar)[0]? := by
    rw [String.toByteArray_append, String.toByteArray_ofList, ByteArray.data_append, List.utf8Encode,
      List.data_toByteArray]
    refine (Array.getElem?_append_right (Nat.le_refl a.toByteArray.data.size)).trans ?_
    rw [Nat.sub_self, List.getElem?_toArray]
  rw [byte?, bytes]
  cases text with
  | nil => rfl
  | cons c rest =>
    have hl := String.length_utf8EncodeChar c
    have hp := c.utf8Size_pos
    rw [List.flatMap_cons, List.head?_cons, Option.map_some, firstByte]
    match String.utf8EncodeChar c, hl with
    | [], hl => rw [← hl] at hp; cases hp
    | b :: bs, _ => rfl

theorem utf8Size_of_lt {c : Char} (h : c.toNat < 0x80) : c.utf8Size = 1 :=
  Char.utf8Size_eq_one_iff.2 (UInt32.le_iff_toNat_le.2 (Nat.le_of_lt_succ h))

/-- ASCII is encoded as it is. -/
theorem firstByte_of_lt {c : Char} (h : c.toNat < 0x80) : firstByte c = c := by
  rw [firstByte, String.utf8EncodeChar_eq_singleton (utf8Size_of_lt h)]
  apply Char.ext
  apply UInt32.toNat_inj.1
  show c.val.toUInt8.toUInt32.toNat = c.val.toNat
  rw [UInt8.toNat_toUInt32, UInt32.toNat_toUInt8]
  have : c.val.toNat < 0x80 := h
  omega

/-- No other character begins with a byte of ASCII. -/
theorem le_firstByte {c : Char} (h : 0x80 ≤ c.toNat) : 0x80 ≤ (firstByte c).toNat := by
  have h : 0x80 ≤ c.val.toNat := h
  have lead (n : Nat) (hn : 0x80 ≤ n % 256) : 0x80 ≤ (Char.ofUInt8 (UInt8.ofNat n)).toNat := by
    show 0x80 ≤ (UInt8.ofNat n).toUInt32.toNat
    rw [UInt8.toNat_toUInt32, UInt8.toNat_ofNat']
    exact hn
  simp only [firstByte, String.utf8EncodeChar]
  split
  · omega
  · split
    · exact lead _ (by omega)
    · split
      · exact lead _ (by omega)
      · exact lead _ (by omega)

/-- What is the same for all characters outside ASCII can be told by the first byte. -/
theorem apply_firstByte {β : Type} {f : Char → β} {b : β} (h : ∀ c : Char, 0x80 ≤ c.toNat → f c = b) (c : Char) :
    f (firstByte c) = f c := by
  rcases Nat.lt_or_ge c.toNat 0x80 with hc | hc
  · rw [firstByte_of_lt hc]
  · rw [h _ (le_firstByte hc), h c hc]

theorem firstByte_eq_iff {c d : Char} (h : d.toNat < 0x80) : firstByte c = d ↔ c = d := by
  refine Eq.to_iff (apply_firstByte (f := fun e => e = d) (b := False) (fun e he => eq_false ?_) c)
  rintro rfl
  exact absurd h (Nat.not_lt.2 he)

theorem utf8ByteSize_of_lt : ∀ {text : List Char}, (∀ c ∈ text, c.toNat < 0x80) →
    (String.ofList text).utf8ByteSize = text.length
  | [], _ => rfl
  | c :: text, h => by
    have ih := utf8ByteSize_of_lt fun d hd => h d (List.mem_cons_of_mem c hd)
    rw [← List.singleton_append, String.ofList_append, String.utf8ByteSize_append, ih,
      ← String.singleton_eq_ofList, String.utf8ByteSize_singleton, utf8Size_of_lt (h c List.mem_cons_self),
      List.length_append, List.length_singleton]

/-! ## Words of ASCII -/

theorem append_word (a : String) (word rest : List Char) :
    a ++ String.ofList (word ++ rest) = a ++ String.ofList word ++ String.ofList rest := by
  rw [String.ofList_append, String.append_assoc]

section

variable (a : String) {word : List Char} (h : ∀ c ∈ word, c.toNat < 0x80) (rest : List Char)
include h

theorem utf8ByteSize_append_word : (a ++ String.ofList word).utf8ByteSize = a.utf8ByteSize + word.length := by
  rw [String.utf8ByteSize_append, utf8ByteSize_of_lt h]

theorem slice?_word :
    slice? (a ++ String.ofList (word ++ rest)) a.utf8ByteSize (a.utf8ByteSize + word.length) =
      some (String.ofList word) := by
  rw [append_word, ← utf8ByteSize_of_lt h]
  exact slice?_append a (String.ofList word) (String.ofList rest)

theorem byte?_word :
    byte? (a ++ String.ofList (word ++ rest)) (a.utf8ByteSize + word.length) = rest.head?.map firstByte := by
  rw [append_word, ← utf8ByteSize_append_word a h]
  exact byte?_append (a ++ String.ofList word) rest

end

end Z80Asm.Text
