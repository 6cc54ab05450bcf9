/-
Reading a line by byte offsets. The line is walked byte by byte, and the texts of words and numerals are cut out of
it. No cut goes through a character, and the tokens are those of the line (`Token.walk?_eq`).
-/
import Z80Asm.Token.Scan
import Z80Asm.Proofs.Text.Offset
import Mathlib.Data.List.TakeWhile

namespace Z80Asm.Token

open Text

/-! ## The walk -/

/-- The offset where the run of word characters from an offset on ends. -/
def wordEnd (line : String) (i : Nat) : Nat :=
  match _h : byte? line i with
  | some c => if isWordPart c then wordEnd line (i + 1) else i
  | none => i
termination_by line.utf8ByteSize - i
decreasing_by
  have := lt_of_byte? _h
  omega

/-- The offset where a word ends: behind the quote, if the word is `AF` and has one. -/
def wordStop? (line : String) (start : Nat) : Option Nat :=
  let stop := wordEnd line start
  if byte? line stop = some '\x27' then
    (slice? line start stop).map fun word => if isAF word.toList then stop + 1 else stop
  else some stop

/-- The token that starts at an offset with a byte, and the offset behind it; nothing, if a text that is needed
cannot be cut out. -/
def leadAt? (line : String) (start : Nat) (c : Char) : Option (Except TokenFault (TokenKind × Nat)) :=
  if isWordStart c then
    (wordStop? line start).bind fun stop =>
      (slice? line start stop).map fun word => .ok (.identifier word, stop)
  else if c.isDigit then
    let stop := wordEnd line start
    (slice? line start stop).map fun text =>
      match Numeral.read text.toList with
      | .ok n => .ok (.number n, stop)
      | .error .malformed => .error (.badNumber text)
      | .error .tooLarge => .error (.numberOutOfRange text)
  else
    match Operator.ofSymbol? c with
    | some o => some (.ok (.operator o, start + 1))
    | none => (slice? line start line.utf8ByteSize).map fun rest => .error (.unexpected (rest.toList.headD c))

theorem le_wordEnd (line : String) (i : Nat) : i ≤ wordEnd line i := by
  fun_induction wordEnd line i with
  | case1 i c h hc ih => omega
  | case2 => exact Nat.le_refl _
  | case3 => exact Nat.le_refl _

theorem lt_wordEnd {line : String} {i : Nat} {c : Char} (h : byte? line i = some c) (hc : isWordPart c = true) :
    i < wordEnd line i := by
  rw [wordEnd]
  split
  · rename_i d hd
    cases hd.symm.trans h
    rw [if_pos hc]
    exact le_wordEnd line (i + 1)
  · rename_i hn
    cases hn.symm.trans h

theorem le_of_wordStop? {line : String} {start stop : Nat} (h : wordStop? line start = some stop) :
    wordEnd line start ≤ stop := by
  simp only [wordStop?] at h
  split at h
  · obtain ⟨word, -, rfl⟩ := Option.map_eq_some_iff.1 h
    split <;> omega
  · cases h
    exact Nat.le_refl _

theorem isWordPart_of_isWordStart {c : Char} (h : isWordStart c = true) : isWordPart c = true := by
  rw [isWordStart, Bool.or_eq_true] at h
  rw [isWordPart, Char.isAlphanum, Bool.or_eq_true, Bool.or_eq_true]
  exact h.imp_left .inl

theorem isWordPart_of_isDigit {c : Char} (h : c.isDigit = true) : isWordPart c = true := by
  rw [isWordPart, Char.isAlphanum, h, Bool.or_true, Bool.true_or]

/-- Every token takes at least one byte. -/
theorem lt_of_leadAt? {line : String} {i next : Nat} {c : Char} {kind : TokenKind} (hc : byte? line i = some c)
    (h : leadAt? line i c = some (.ok (kind, next))) : i < next := by
  unfold leadAt? at h
  split at h
  · rename_i hw
    obtain ⟨stop, hs, h⟩ := Option.bind_eq_some_iff.1 h
    obtain ⟨word, -, h⟩ := Option.map_eq_some_iff.1 h
    cases h
    exact Nat.lt_of_lt_of_le (lt_wordEnd hc (isWordPart_of_isWordStart hw)) (le_of_wordStop? hs)
  · split at h
    · rename_i hd
      obtain ⟨text, -, h⟩ := Option.map_eq_some_iff.1 h
      split at h <;> cases h
      exact lt_wordEnd hc (isWordPart_of_isDigit hd)
    · split at h
      · cases h
        exact Nat.lt_succ_self i
      · obtain ⟨rest, -, h⟩ := Option.map_eq_some_iff.1 h
        cases h

/-- The tokens from an offset on. -/
def walkFrom? (line : String) (i : Nat) : Option (Except TokenError (List Token)) :=
  match _hc : byte? line i with
  | none => some (.ok [])
  | some c =>
    if isBlank c then walkFrom? line (i + 1)
    else if c = ';' then some (.ok [])
    else
      match _h : leadAt? line i c with
      | none => none
      | some (.error fault) => some (.error ⟨fault, i⟩)
      | some (.ok (kind, next)) =>
        match walkFrom? line next with
        | none => none
        | some (.error e) => some (.error e)
        | some (.ok tokens) => some (.ok (⟨kind, i⟩ :: tokens))
termination_by line.utf8ByteSize - i
decreasing_by
  · have := lt_of_byte? _hc
    omega
  · have := lt_of_byte? _hc
    have := lt_of_leadAt? _hc _h
    omega

theorem walkFrom?_of_byte?_none {line : String} {i : Nat} (hc : byte? line i = none) : walkFrom? line i = some (.ok []) := by
  rw [walkFrom?]
  split
  · rfl
  · rename_i hd
    cases hd.symm.trans hc

theorem walkFrom?_of_byte? {line : String} {i : Nat} {c : Char} (hc : byte? line i = some c) :
    walkFrom? line i =
      if isBlank c then walkFrom? line (i + 1)
      else if c = ';' then some (.ok [])
      else (leadAt? line i c).bind fun
        | .error fault => some (.error ⟨fault, i⟩)
        | .ok (kind, next) => (walkFrom? line next).map fun r => r.map (⟨kind, i⟩ :: ·) := by
  rw [walkFrom?]
  split
  · rename_i hn
    cases hn.symm.trans hc
  · rename_i d hd
    cases hd.symm.trans hc
    refine ite_congr rfl (fun _ => rfl) fun _ => ite_congr rfl (fun _ => rfl) fun _ => ?_
    split
    · rename_i h
      rw [h]
      rfl
    · rename_i h
      rw [h]
      rfl
    · rename_i kind next h
      rw [h, Option.bind_some]
      dsimp only
      rcases walkFrom? line next with _ | _ | _ <;> rfl

/-- The tokens of a line. -/
def walk? (line : String) : Option (Except TokenError (List Token)) := walkFrom? line 0

/-! ## Characters and bytes -/

theorem isBlank_eq_false {c : Char} (h : 0x80 ≤ c.toNat) : isBlank c = false := by
  simp only [isBlank, Bool.or_eq_false_iff, beq_eq_false_iff_ne]
  refine ⟨⟨⟨⟨?_, ?_⟩, ?_⟩, ?_⟩, ?_⟩ <;> rintro rfl <;> exact absurd h (by decide)

theorem range_of_isWordPart {c : Char} (h : isWordPart c = true) : 0x20 < c.toNat ∧ c.toNat < 0x7F := by
  rw [isWordPart, Bool.or_eq_true] at h
  rcases h with h | h
  · have range : (decide (c.val ≥ 'A'.val ∧ c.val ≤ 'Z'.val) || (c.val ≥ 'a'.val && c.val ≤ 'z'.val) ||
        (c.val ≥ '0'.val && c.val ≤ '9'.val)) = true := h
    simp only [Bool.or_eq_true, Bool.and_eq_true, decide_eq_true_eq, ge_iff_le, UInt32.le_iff_toNat_le] at range
    have first : 'A'.val.toNat = 65 ∧ 'a'.val.toNat = 97 ∧ '0'.val.toNat = 48 := ⟨rfl, rfl, rfl⟩
    have last : 'Z'.val.toNat = 90 ∧ 'z'.val.toNat = 122 ∧ '9'.val.toNat = 57 := ⟨rfl, rfl, rfl⟩
    show 0x20 < c.val.toNat ∧ c.val.toNat < 0x7F
    omega
  · obtain rfl := eq_of_beq h
    decide

theorem lt_of_isWordPart {c : Char} (h : isWordPart c = true) : c.toNat < 0x80 :=
  Nat.lt_succ_of_lt (range_of_isWordPart h).2

theorem isWordPart_eq_false {c : Char} (h : 0x80 ≤ c.toNat) : isWordPart c = false :=
  Bool.eq_false_iff.2 fun hw => absurd (lt_of_isWordPart hw) (Nat.not_lt.2 h)

theorem ofSymbol?_eq_none {c : Char} (h : 0x80 ≤ c.toNat) : Operator.ofSymbol? c = none := by
  cases ho : Operator.ofSymbol? c with
  | none => rfl
  | some o =>
    have := Operator.symbol_of_ofSymbol? ho
    subst this
    cases o <;> exact absurd h (by decide)

/-! ## The texts that are cut out -/

theorem lt_of_mem_takeWhile {c : Char} {text : List Char} (h : c ∈ text.takeWhile isWordPart) : c.toNat < 0x80 :=
  lt_of_isWordPart (List.mem_takeWhile_imp h)

theorem wordEnd_append (a : String) : ∀ text : List Char,
    wordEnd (a ++ String.ofList text) a.utf8ByteSize = a.utf8ByteSize + (text.takeWhile isWordPart).length
  | [] => by
    rw [wordEnd]
    split
    · rename_i c hc
      rw [byte?_append] at hc
      cases hc
    · rfl
  | c :: text => by
    rw [wordEnd]
    split
    · rename_i d hd
      rw [byte?_append, List.head?_cons, Option.map_some, Option.some.injEq] at hd
      subst hd
      rw [apply_firstByte (fun _ => isWordPart_eq_false)]
      cases hc : isWordPart c with
      | false => rw [List.takeWhile_cons_of_neg (by simp [hc])]; rfl
      | true =>
        have one : ∀ d ∈ [c], d.toNat < 0x80 := fun d hd => List.mem_singleton.1 hd ▸ lt_of_isWordPart hc
        have ih := wordEnd_append (a ++ String.ofList [c]) text
        rw [← append_word, utf8ByteSize_append_word a one] at ih
        rw [List.takeWhile_cons_of_pos hc, List.length_cons, if_pos rfl]
        exact ih.trans (by rw [List.length_singleton]; omega)
    · rename_i hn
      rw [byte?_append] at hn
      cases hn

theorem lt_of_mem_run {c : Char} (hc : isWordPart c = true) (rest : List Char) :
    ∀ d ∈ c :: rest.takeWhile isWordPart, d.toNat < 0x80 :=
  List.forall_mem_cons.2 ⟨lt_of_isWordPart hc, fun _ => lt_of_mem_takeWhile⟩

theorem takeWhile_append_drop (rest : List Char) :
    rest.takeWhile isWordPart ++ rest.drop (rest.takeWhile isWordPart).length = rest :=
  List.prefix_iff_eq_append.1 (List.takeWhile_prefix isWordPart)

theorem wordStop?_append (a : String) {c : Char} (hc : isWordPart c = true) (rest : List Char) :
    wordStop? (a ++ String.ofList (c :: rest)) a.utf8ByteSize = some (a.utf8ByteSize + (c :: wordTail c rest).length) := by
  have stop := wordEnd_append a (c :: rest)
  have cut := congrArg (List.cons c) (takeWhile_append_drop rest).symm
  rw [← List.cons_append] at cut
  rw [List.takeWhile_cons_of_pos hc] at stop
  -- the byte behind the run is a quote exactly where the character there is one
  have quote := byte?_word a (lt_of_mem_run hc rest) (rest.drop (rest.takeWhile isWordPart).length)
  have word := slice?_word a (lt_of_mem_run hc rest) (rest.drop (rest.takeWhile isWordPart).length)
  rw [← cut] at quote word
  simp only [wordStop?, stop, quote, word, wordTail, Option.map_some, String.toList_ofList]
  cases rest.drop (rest.takeWhile isWordPart).length with
  | nil => simp
  | cons d more =>
    simp only [List.head?_cons, Option.map_some, Option.some.injEq, firstByte_eq_iff (show '\x27'.toNat < 0x80 by decide)]
    by_cases hd : d = '\x27'
    · cases isAF (c :: rest.takeWhile isWordPart) <;> simp [hd, Nat.add_assoc]
    · simp [hd]

theorem wordTail_append_drop (c : Char) (rest : List Char) :
    wordTail c rest ++ rest.drop (wordTail c rest).length = rest := by
  apply List.prefix_iff_eq_append.1
  simp only [wordTail]
  split
  · rename_i h
    obtain ⟨more, hm⟩ := List.head?_eq_some_iff.1 (eq_of_beq (Bool.and_eq_true_iff.1 h).2)
    refine ⟨more, ?_⟩
    rw [List.append_assoc, List.singleton_append, ← hm, takeWhile_append_drop]
  · exact List.takeWhile_prefix isWordPart

theorem lt_of_mem_word {c : Char} (hc : isWordPart c = true) (rest : List Char) :
    ∀ d ∈ c :: wordTail c rest, d.toNat < 0x80 := by
  refine List.forall_mem_cons.2 ⟨lt_of_isWordPart hc, fun d hd => ?_⟩
  simp only [wordTail] at hd
  split at hd
  · rcases List.mem_append.1 hd with hd | hd
    · exact lt_of_mem_takeWhile hd
    · obtain rfl := List.mem_singleton.1 hd
      decide
  · exact lt_of_mem_takeWhile hd

theorem isWordStart_firstByte (c : Char) : isWordStart (firstByte c) = isWordStart c := by
  refine apply_firstByte (b := false) (fun d hd => Bool.eq_false_iff.2 fun h => ?_) c
  exact Bool.eq_false_iff.1 (isWordPart_eq_false hd) (isWordPart_of_isWordStart h)

theorem isDigit_firstByte (c : Char) : (firstByte c).isDigit = c.isDigit := by
  refine apply_firstByte (b := false) (fun d hd => Bool.eq_false_iff.2 fun h => ?_) c
  exact Bool.eq_false_iff.1 (isWordPart_eq_false hd) (isWordPart_of_isDigit h)

/-- The token at an offset is the token of the text there. -/
theorem leadAt?_append (a : String) (c : Char) (rest : List Char) :
    leadAt? (a ++ String.ofList (c :: rest)) a.utf8ByteSize (firstByte c) =
      some ((lead c rest).map fun p => (p.1, a.utf8ByteSize + (p.2 + 1))) := by
  unfold leadAt? lead
  rw [isWordStart_firstByte, isDigit_firstByte, apply_firstByte (fun _ => ofSymbol?_eq_none)]
  split
  · rename_i hw
    have hc := isWordPart_of_isWordStart hw
    have word := slice?_word a (lt_of_mem_word hc rest) (rest.drop (wordTail c rest).length)
    rw [List.cons_append, wordTail_append_drop] at word
    rw [wordStop?_append a hc, Option.bind_some, word]
    rfl
  · split
    · rename_i hd
      have hc := isWordPart_of_isDigit hd
      have stop := wordEnd_append a (c :: rest)
      have text := slice?_word a (lt_of_mem_run hc rest) (rest.drop (rest.takeWhile isWordPart).length)
      rw [List.takeWhile_cons_of_pos hc] at stop
      rw [List.cons_append, takeWhile_append_drop] at text
      simp only [stop, text, Option.map_some, String.toList_ofList]
      cases Numeral.read (c :: rest.takeWhile isWordPart) with
      | ok n => rfl
      | error fault => cases fault <;> rfl
    · cases Operator.ofSymbol? c with
      | some o => rfl
      | none =>
        simp only [slice?_append_right, Option.map_some, String.toList_ofList]
        rfl

/-! ## The tokens -/

/-- All characters of a token are ASCII. -/
theorem lt_of_lead {c : Char} {rest : List Char} {kind : TokenKind} {extra : Nat} (h : lead c rest = .ok (kind, extra)) :
    ∃ tail, tail ++ rest.drop extra = rest ∧ tail.length = extra ∧ ∀ d ∈ c :: tail, d.toNat < 0x80 := by
  unfold lead at h
  split at h
  · rename_i hw
    cases h
    exact ⟨wordTail c rest, wordTail_append_drop c rest, rfl, lt_of_mem_word (isWordPart_of_isWordStart hw) rest⟩
  · split at h
    · rename_i hd
      simp only at h
      split at h <;> cases h
      exact ⟨rest.takeWhile isWordPart, takeWhile_append_drop rest, rfl, lt_of_mem_run (isWordPart_of_isDigit hd) rest⟩
    · split at h
      · rename_i o ho
        cases h
        refine ⟨[], rfl, rfl, List.forall_mem_singleton.2 (Nat.lt_of_not_le fun hc => ?_)⟩
        cases ho.symm.trans (ofSymbol?_eq_none hc)
      · cases h

/-- The walk goes on behind a text of ASCII. -/
theorem walkFrom?_word (a : String) {word : List Char} (h : ∀ d ∈ word, d.toNat < 0x80) (rest : List Char) :
    walkFrom? (a ++ String.ofList (word ++ rest)) (a.utf8ByteSize + word.length) =
      walkFrom? (a ++ String.ofList word ++ String.ofList rest) (a ++ String.ofList word).utf8ByteSize := by
  rw [append_word, utf8ByteSize_append_word a h]

theorem lt_of_isBlank {c : Char} (h : isBlank c = true) : c.toNat < 0x80 :=
  Nat.lt_of_not_le fun hc => Bool.eq_false_iff.1 (isBlank_eq_false hc) h

/-- From an offset between two characters on, the walk reads the text behind it. The induction is on that text. -/
theorem walkFrom?_append (a : String) : ∀ text : List Char,
    walkFrom? (a ++ String.ofList text) a.utf8ByteSize = some (scanFrom a.utf8ByteSize text)
  | [] => by
    rw [walkFrom?_of_byte?_none (byte?_append a []), scanFrom]
  | c :: rest => by
    rw [walkFrom?_of_byte? (byte?_append a (c :: rest)), scanFrom, leadAt?_append, Option.bind_some,
      apply_firstByte (fun _ => isBlank_eq_false)]
    simp only [firstByte_eq_iff (show ';'.toNat < 0x80 by decide)]
    split
    · rename_i hb
      have ascii : ∀ d ∈ [c], d.toNat < 0x80 := List.forall_mem_singleton.2 (lt_of_isBlank hb)
      have ih := walkFrom?_append (a ++ String.ofList [c]) rest
      rw [← walkFrom?_word a ascii rest, utf8ByteSize_append_word a ascii] at ih
      exact ih
    · split
      · rfl
      · cases ht : lead c rest with
        | error fault => rfl
        | ok p =>
          obtain ⟨kind, extra⟩ := p
          obtain ⟨tail, htail, rfl, ascii⟩ := lt_of_lead ht
          have ih := walkFrom?_append (a ++ String.ofList (c :: tail)) (rest.drop tail.length)
          rw [← walkFrom?_word a ascii, utf8ByteSize_append_word a ascii, List.cons_append, htail, List.length_cons] at ih
          have column : a.utf8ByteSize + 1 + tail.length = a.utf8ByteSize + (tail.length + 1) := by omega
          simp only [Except.map, ih, Option.map_some, column]
          cases scanFrom (a.utf8ByteSize + (tail.length + 1)) (rest.drop tail.length) <;> rfl
termination_by text => text.length

/-- Every text that is needed can be cut out of a line, and the tokens are the same. -/
theorem walk?_eq (line : String) : walk? line = some (scan line) := by
  have h := walkFrom?_append "" line.toList
  rw [String.ofList_toList, String.empty_append] at h
  exact h

end Z80Asm.Token
