/-
What an operand word means. A word may belong to several vocabularies at once; the place where it
stands decides which reading wins, by an order of preference among the categories. Only `C`, a
register and a condition, is ever ambiguous.
-/
import Z80Asm.Vocabulary.Register
import Z80Asm.Vocabulary.Condition
import Z80Asm.Vocabulary.Mnemonic

namespace Z80Asm

/-- A classified operand word. -/
inductive Word
  | register (r : Register)
  | specialRegister (r : SpecialRegister)
  | indexHalf (h : IndexHalf)
  | normalPair (p : NormalPair)
  | specialPair (p : SpecialPair)
  | indexPair (p : IndexPair)
  | condition (c : Condition)
  deriving DecidableEq, Repr

/-- The spelling of a classified word. -/
def Word.name : Word → String
  | .register x => Vocabulary.name x
  | .specialRegister x => Vocabulary.name x
  | .indexHalf x => Vocabulary.name x
  | .normalPair x => Vocabulary.name x
  | .specialPair x => Vocabulary.name x
  | .indexPair x => Vocabulary.name x
  | .condition x => Vocabulary.name x

/-! ## Categories -/

/-- The vocabularies, as values. -/
inductive Category
  | register | specialRegister | indexHalf | normalPair | specialPair | indexPair | condition | mnemonic
  deriving DecidableEq, Repr

namespace Category

/-- The categories, in the order of their bits. -/
def all : List Category :=
  [.register, .specialRegister, .indexHalf, .normalPair, .specialPair, .indexPair, .condition, .mnemonic]

/-- The bit that stands for a category in a set of categories. -/
def bit : Category → UInt8
  | .register => 0x01
  | .specialRegister => 0x02
  | .indexHalf => 0x04
  | .normalPair => 0x08
  | .specialPair => 0x10
  | .indexPair => 0x20
  | .condition => 0x40
  | .mnemonic => 0x80

/-- The name of a category in reports. -/
def name : Category → String
  | .register => "REGISTER"
  | .specialRegister => "SPECIAL_REGISTER"
  | .indexHalf => "INDEX_HALF"
  | .normalPair => "NORMAL_PAIR"
  | .specialPair => "SPECIAL_PAIR"
  | .indexPair => "INDEX_PAIR"
  | .condition => "CONDITION"
  | .mnemonic => "MNEMONIC"

/-- The operand word that an upper-case word is in a category. Mnemonics are no operands. -/
def word? : Category → String → Option Word
  | .register, w => (Vocabulary.find? w).map .register
  | .specialRegister, w => (Vocabulary.find? w).map .specialRegister
  | .indexHalf, w => (Vocabulary.find? w).map .indexHalf
  | .normalPair, w => (Vocabulary.find? w).map .normalPair
  | .specialPair, w => (Vocabulary.find? w).map .specialPair
  | .indexPair, w => (Vocabulary.find? w).map .indexPair
  | .condition, w => (Vocabulary.find? w).map .condition
  | .mnemonic, _ => none

/-- Whether an upper-case word belongs to a category. -/
def contains : Category → String → Bool
  | .mnemonic, w => (Mnemonic.lookup? w).isSome
  | k, w => (k.word? w).isSome

end Category

/-! ## Sets of categories -/

/-- A set of categories, one bit each. -/
structure CategorySet where
  bits : UInt8
  deriving DecidableEq, Repr

namespace CategorySet

/-- Whether a category is in the set. -/
def contains (s : CategorySet) (k : Category) : Bool := s.bits &&& k.bit != 0

/-- The one category of a set that has exactly one. -/
def only? (s : CategorySet) : Option Category := Category.all.find? (·.bit == s.bits)

/-- The categories of a word, whatever its letter case. -/
def ofWord (word : String) : CategorySet :=
  ⟨(Category.all.filter (·.contains word.toUpper)).foldl (fun bits k => bits ||| k.bit) 0⟩

/-- The names of the members in the order of their bits. -/
def describe (s : CategorySet) : String :=
  " | ".intercalate ((Category.all.filter s.contains).map Category.name)

end CategorySet

/-! ## Classification -/

namespace Word

/-- The reading of a word by the first category that has it, whatever the word's letter case. A set
that is not exactly one category matches nothing. -/
def classify? (word : String) (order : List CategorySet) : Option Word :=
  order.findSome? fun s => s.only?.bind (·.word? word.toUpper)

/-- The order of preference for a direct operand. -/
def operandOrder : List Category :=
  [.register, .normalPair, .specialPair, .condition, .specialRegister, .indexHalf, .indexPair]

/-- The order of preference for the base of an address; the other categories are no bases. -/
def baseOrder : List Category := [.normalPair, .indexPair, .register]

/-- The reading of a word as a direct operand. -/
def operand? (word : String) : Option Word := classify? word (operandOrder.map (⟨·.bit⟩))

/-- The reading of a word as the base of an address. -/
def base? (word : String) : Option Word := classify? word (baseOrder.map (⟨·.bit⟩))

end Word

end Z80Asm
