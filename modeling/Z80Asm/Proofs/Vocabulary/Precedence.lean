/-
The readings of a word. The set of a word's categories says which of them can be elected by an order of preference, and
the first that can be gives the word its meaning. No word but `C` has more than one category, so that the order has a
part in nothing else (`Word.classify?_precedence`).
-/
import Z80Asm.Proofs.Statement.Sentence
import Z80Asm.Proofs.Text.UpperCase

namespace Z80Asm

/-! ## Sets -/

/-- A set of an order of preference elects a category for a word: it is that category alone, one of the word's that is
not the mnemonics. -/
structure CategorySet.Elects (s : CategorySet) (word : String) (k : Category) : Prop where
  single : s = ⟨k.bit⟩
  operand : k ≠ .mnemonic
  member : (CategorySet.ofWord word).contains k = true

theorem Category.mem_all (k : Category) : k ∈ all := by cases k <;> decide

/-- A union of categories meets other bits exactly if one of the categories does. -/
theorem Category.and_foldl_bit (bits acc : UInt8) (ks : List Category) :
    bits &&& ks.foldl (fun bits k => bits ||| k.bit) acc ≠ 0 ↔ bits &&& acc ≠ 0 ∨ ∃ k ∈ ks, bits &&& k.bit ≠ 0 := by
  induction ks generalizing acc with
  | nil => simp
  | cons k ks ih =>
    have distrib : bits &&& (acc ||| k.bit) = bits &&& acc ||| bits &&& k.bit :=
      UInt8.toBitVec_inj.1 BitVec.and_or_distrib_left
    rw [List.foldl_cons, ih, distrib]
    simp only [ne_eq, UInt8.or_eq_zero_iff, List.exists_mem_cons_iff, not_and_or, or_assoc]

theorem Category.bit_and_bit_ne_zero_iff {j k : Category} : j.bit &&& k.bit ≠ 0 ↔ j = k := by
  cases j <;> cases k <;> decide

namespace CategorySet

/-- The set of a word has the categories that its upper case belongs to. -/
theorem contains_ofWord {word : String} {k : Category} :
    (ofWord word).contains k = true ↔ k.contains word.toUpper = true := by
  rw [contains, bne_iff_ne, UInt8.and_comm, ofWord, Category.and_foldl_bit]
  simp [Category.bit_and_bit_ne_zero_iff, k.mem_all]

theorem only?_eq_some_iff {s : CategorySet} {k : Category} : s.only? = some k ↔ s = ⟨k.bit⟩ := by
  constructor
  · intro h
    have same : k.bit = s.bits := by simpa using List.find?_some h
    rw [same]
  · rintro rfl
    exact Word.only?_bit k

end CategorySet

/-! ## Words -/

/-- All operand words. -/
def Word.all : List Word :=
  Vocabulary.all.map .register ++ Vocabulary.all.map .specialRegister ++ Vocabulary.all.map .indexHalf ++
    Vocabulary.all.map .normalPair ++ Vocabulary.all.map .specialPair ++ Vocabulary.all.map .indexPair ++
    Vocabulary.all.map .condition

theorem Word.mem_all (w : Word) : w ∈ all := by
  cases w with
  | _ x => cases x <;> decide

theorem Word.category_ne_mnemonic (w : Word) : w.category ≠ .mnemonic := by cases w <;> exact nofun

/-- The words of a category are those that have its name. -/
theorem Category.contains_iff {k : Category} {name : String} (h : k ≠ .mnemonic) :
    k.contains name = true ↔ ∃ w : Word, w.category = k ∧ w.name = name := by
  have lookup : k.contains name = (k.word? name).isSome := by cases k <;> first | rfl | exact absurd rfl h
  rw [lookup, Option.isSome_iff_exists]
  simp only [word?_eq_some_iff]

/-- The vocabularies have no name in common but `C`. -/
theorem Word.eq_category_of_contains (w : Word) {k : Category} (h : k.contains w.name = true) (other : w.name ≠ "C") :
    k = w.category := by
  have names : ∀ w ∈ all, ∀ k ∈ Category.all, k.contains w.name = true → k = w.category ∨ w.name = "C" := by
    decide +kernel
  exact (names w w.mem_all k k.mem_all h).resolve_right other

/-- A word is known by its category and its name. -/
theorem Word.eq_of_category_eq {v w : Word} (same : v.category = w.category) (named : v.name = w.name) : v = w := by
  have left : v.category.word? v.name = some v := Category.word?_eq_some_iff.2 ⟨rfl, rfl⟩
  have right : v.category.word? v.name = some w := Category.word?_eq_some_iff.2 ⟨same.symm, named.symm⟩
  exact Option.some.inj (left.symm.trans right)

/-- Two words of the same name are the same, but for `C`. -/
theorem Word.eq_of_name_eq {v w : Word} (h : v.name = w.name) (other : w.name ≠ "C") : v = w := by
  have member : v.category.contains w.name = true := (Category.contains_iff v.category_ne_mnemonic).2 ⟨v, rfl, h⟩
  exact eq_of_category_eq (w.eq_category_of_contains member other) h

/-- Two categories that have a name in common have it as the name of a word. -/
theorem Category.eq_of_contains {j k : Category} {name : String} (hj : j.contains name = true) (hk : k.contains name = true)
    (other : name ≠ "C") : j = k := by
  have word {i l : Category} (hi : i.contains name = true) (hl : l.contains name = true) (operand : i ≠ .mnemonic) :
      l = i := by
    obtain ⟨w, rfl, rfl⟩ := (contains_iff operand).1 hi
    exact w.eq_category_of_contains hl other
  by_cases operand : j = .mnemonic
  · by_cases operand' : k = .mnemonic
    · rw [operand, operand']
    · exact word hk hj operand'
  · exact (word hj hk operand).symm

theorem Text.toUpper_eq_C_iff {word : String} : word.toUpper = "C" ↔ word = "c" ∨ word = "C" := by
  have letter (c : Char) : c.toUpper = 'C' ↔ c = 'c' ∨ c = 'C' := by
    have either := Text.toUpper_eq_letter_iff (c := c) (show 'c'.isLower = true from rfl)
    rw [show 'c'.toUpper = 'C' from rfl] at either
    refine (or_iff_right fun h => ?_).symm.trans either
    have lower := c.isLower_toUpper_eq_false
    rw [h] at lower
    cases lower
  rw [← String.toList_inj, ← String.toList_inj, ← String.toList_inj, Text.toList_toUpper]
  match word.toList with
  | [] => simp
  | [c] => simpa using letter c
  | _ :: _ :: _ => simp

/-! ## Orders of preference -/

/-- A set elects the category of a word that has the name. -/
theorem CategorySet.elects_iff {s : CategorySet} {word : String} {k : Category} :
    s.Elects word k ↔ ∃ w : Word, w.category = k ∧ s = ⟨w.category.bit⟩ ∧ w.name = word.toUpper := by
  constructor
  · rintro ⟨rfl, operand, member⟩
    obtain ⟨w, rfl, named⟩ := (Category.contains_iff operand).1 (contains_ofWord.1 member)
    exact ⟨w, rfl, rfl, named⟩
  · rintro ⟨w, rfl, rfl, named⟩
    have operand := w.category_ne_mnemonic
    exact ⟨rfl, operand, contains_ofWord.2 ((Category.contains_iff operand).2 ⟨w, rfl, named⟩)⟩

namespace Word

theorem bind_only?_eq_some_iff {s : CategorySet} {name : String} {w : Word} :
    s.only?.bind (·.word? name) = some w ↔ s = ⟨w.category.bit⟩ ∧ w.name = name := by
  simp only [Option.bind_eq_some_iff, CategorySet.only?_eq_some_iff, Category.word?_eq_some_iff]
  constructor
  · rintro ⟨k, rfl, rfl, named⟩
    exact ⟨rfl, named⟩
  · rintro ⟨rfl, named⟩
    exact ⟨w.category, rfl, rfl, named⟩

/-- A set has a reading of a word exactly if it elects a category for it. -/
theorem isSome_bind_only?_iff {s : CategorySet} {word : String} :
    (s.only?.bind (·.word? word.toUpper)).isSome = true ↔ ∃ k, s.Elects word k := by
  simp only [Option.isSome_iff_exists, bind_only?_eq_some_iff, CategorySet.elects_iff]
  constructor
  · rintro ⟨w, h⟩
    exact ⟨w.category, w, rfl, h⟩
  · rintro ⟨_, w, rfl, h⟩
    exact ⟨w, h⟩

theorem isSome_classify?_iff {word : String} {order : List CategorySet} :
    (classify? word order).isSome = true ↔ ∃ s ∈ order, ∃ k, s.Elects word k := by
  rw [classify?, List.findSome?_isSome_iff]
  simp only [isSome_bind_only?_iff]

/-- The first set that elects a category gives a word its meaning. -/
theorem exists_first_of_classify? {word : String} {order : List CategorySet} {w : Word}
    (h : classify? word order = some w) : ∃ before s behind, order = before ++ s :: behind ∧ s.Elects word w.category ∧
      (∀ r ∈ before, ∀ k, ¬r.Elects word k) ∧ w.category.word? word.toUpper = some w := by
  obtain ⟨before, s, behind, rfl, first, none⟩ := List.findSome?_eq_some_iff.1 h
  obtain ⟨single, named⟩ := bind_only?_eq_some_iff.1 first
  refine ⟨before, s, behind, rfl, CategorySet.elects_iff.2 ⟨w, rfl, single, named⟩, fun r hr k elects => ?_,
    Category.word?_eq_some_iff.2 ⟨rfl, named⟩⟩
  have some := isSome_bind_only?_iff.2 ⟨k, elects⟩
  rw [none r hr] at some
  cases some

/-- For a word other than `C`, it matters only which sets are in the order. -/
theorem classify?_eq_some_of_mem {word : String} {order : List CategorySet} {w : Word} (named : w.name = word.toUpper)
    (other : word.toUpper ≠ "C") (mem : ⟨w.category.bit⟩ ∈ order) : classify? word order = some w := by
  obtain ⟨v, hv⟩ := Option.isSome_iff_exists.1
    (isSome_classify?_iff.2 ⟨_, mem, _, CategorySet.elects_iff.2 ⟨w, rfl, rfl, named⟩⟩)
  obtain ⟨_, _, _, -, -, -, found⟩ := exists_first_of_classify? hv
  obtain ⟨-, spelled⟩ := Category.word?_eq_some_iff.1 found
  rw [hv, eq_of_name_eq (spelled.trans named.symm) (named ▸ other)]

theorem classify?_perm {word : String} (other : word.toUpper ≠ "C") {order order' : List CategorySet}
    (h : order.Perm order') : classify? word order = classify? word order' := by
  have same {order order' : List CategorySet} (h : order.Perm order') {w : Word} (hw : classify? word order = some w) :
      classify? word order' = some w := by
    obtain ⟨before, s, behind, rfl, elects, -, found⟩ := exists_first_of_classify? hw
    obtain ⟨-, named⟩ := Category.word?_eq_some_iff.1 found
    exact classify?_eq_some_of_mem named other (h.mem_iff.1 (elects.single ▸ List.mem_append_right _ List.mem_cons_self))
  exact Option.ext fun w => ⟨same h, same h.symm⟩

/-- A word has a reading in an order of single categories exactly if it has one of them. -/
theorem isSome_classify?_map_iff (ks : List Category) (operands : .mnemonic ∉ ks) {word : String} :
    (classify? word (ks.map (⟨·.bit⟩))).isSome = true ↔
      (CategorySet.ofWord word).bits &&& ks.foldl (fun bits k => bits ||| k.bit) 0 ≠ 0 := by
  rw [isSome_classify?_iff, Category.and_foldl_bit]
  constructor
  · rintro ⟨s, hs, k, rfl, operand, member⟩
    obtain ⟨j, hj, same⟩ := List.mem_map.1 hs
    obtain rfl : j = k := Option.some.inj ((only?_bit j).symm.trans (same ▸ only?_bit k))
    exact .inr ⟨j, hj, bne_iff_ne.1 member⟩
  · rintro (none | ⟨k, hk, meets⟩)
    · exact absurd UInt8.and_zero none
    · exact ⟨_, List.mem_map_of_mem hk, k, rfl, fun h => operands (h ▸ hk), bne_iff_ne.2 meets⟩

/-- The set of a word's categories says how the word is read. A word has a reading in an order of preference exactly if
some set of the order elects a category for it; the first that does gives it the word of that category with its name in
upper case. No word but `C` has two categories, so that for all others the sets may stand in any order. -/
theorem classify?_precedence :
    (∀ s : CategorySet, (∃ k : Category, s = ⟨k.bit⟩) ↔ s.bits ∈ [0x01, 0x02, 0x04, 0x08, 0x10, 0x20, 0x40, 0x80]) ∧
    (∀ word k, (CategorySet.ofWord word).contains k = true ↔ k.contains word.toUpper = true) ∧
    (∀ word order, (classify? word order).isSome = true ↔ ∃ s ∈ order, ∃ k, s.Elects word k) ∧
    (∀ word order w, classify? word order = some w → ∃ before s behind, order = before ++ s :: behind ∧
      s.Elects word w.category ∧ (∀ r ∈ before, ∀ k, ¬r.Elects word k) ∧ w.category.word? word.toUpper = some w ∧
      w.name = word.toUpper) ∧
    (∀ word, (∃ j k, j ≠ k ∧ (CategorySet.ofWord word).contains j = true ∧ (CategorySet.ofWord word).contains k = true) ↔
      word = "c" ∨ word = "C") ∧
    (∀ word, word = "c" ∨ word = "C" → CategorySet.ofWord word = ⟨Category.register.bit ||| Category.condition.bit⟩) ∧
    (∀ word, word ≠ "c" → word ≠ "C" → ∀ order order' : List CategorySet, order.Perm order' →
      classify? word order = classify? word order') ∧
    (∀ word, (operand? word).isSome = true ↔ (CategorySet.ofWord word).bits &&& ~~~Category.mnemonic.bit ≠ 0) ∧
    (∀ word, (base? word).isSome = true ↔ (CategorySet.ofWord word).bits &&&
      (Category.normalPair.bit ||| Category.indexPair.bit ||| Category.register.bit) ≠ 0) := by
  have ambiguous (word : String) (h : word = "c" ∨ word = "C") :
      CategorySet.ofWord word = ⟨Category.register.bit ||| Category.condition.bit⟩ := by
    rw [CategorySet.ofWord, Text.toUpper_eq_C_iff.2 h]
    decide +kernel
  refine ⟨fun s => ?_, fun word k => CategorySet.contains_ofWord, fun word order => isSome_classify?_iff,
    fun word order w h => ?_, fun word => ⟨?_, fun h => ?_⟩, ambiguous, ?_, fun word => ?_, fun word => ?_⟩
  · show _ ↔ s.bits ∈ Category.all.map Category.bit
    constructor
    · rintro ⟨k, rfl⟩
      exact List.mem_map_of_mem k.mem_all
    · intro h
      obtain ⟨k, -, same⟩ := List.mem_map.1 h
      exact ⟨k, congrArg CategorySet.mk same.symm⟩
  · obtain ⟨before, s, behind, cut, elects, none, found⟩ := exists_first_of_classify? h
    exact ⟨before, s, behind, cut, elects, none, found, (Category.word?_eq_some_iff.1 found).2⟩
  · rintro ⟨j, k, ne, hj, hk⟩
    rw [CategorySet.contains_ofWord] at hj hk
    by_contra other
    exact ne (Category.eq_of_contains hj hk fun h => other (Text.toUpper_eq_C_iff.1 h))
  · refine ⟨.register, .condition, nofun, ?_, ?_⟩ <;> rw [ambiguous word h] <;> decide
  · intro word small capital order order' h
    exact classify?_perm (fun he => (Text.toUpper_eq_C_iff.1 he).elim small capital) h
  · exact isSome_classify?_map_iff operandOrder (by decide)
  · exact isSome_classify?_map_iff baseOrder (by decide)

/-- A union elects nothing, so that `hl` is the pair in any order of these sets; `c` is what its first category makes
of it. -/
theorem classify?_precedence_orders :
    classify? "hl" [⟨0x48⟩, ⟨0x20⟩, ⟨0x08⟩] = classify? "hl" [⟨0x08⟩, ⟨0x48⟩, ⟨0x20⟩] ∧
    CategorySet.ofWord "c" = ⟨0x41⟩ ∧
    ∃ (before : List CategorySet) (s : CategorySet) (behind : List CategorySet),
      [⟨0x41⟩, ⟨0x40⟩, ⟨0x01⟩] = before ++ s :: behind ∧ s.Elects "c" .condition := by
  obtain ⟨-, -, -, first, -, ambiguous, permuted, -⟩ := classify?_precedence
  refine ⟨permuted "hl" (by decide) (by decide) _ _ (by decide), ambiguous "c" (.inl rfl), ?_⟩
  have carry : classify? "c" [⟨0x41⟩, ⟨0x40⟩, ⟨0x01⟩] = some (.condition .C) := by decide +kernel
  obtain ⟨before, s, behind, cut, elects, -⟩ := first "c" _ _ carry
  exact ⟨before, s, behind, cut, elects⟩

end Word

end Z80Asm
