/-
Closed word tables. A vocabulary is a finite type whose values are spelled by upper-case words;
the value a word names is found by comparing spellings, so a table is stated once, as the list of
its values and their names.
-/

namespace Z80Asm

/-- A finite type of words: its values in table order, their spelling, and the number each value
puts into the field of an opcode. -/
class Vocabulary (α : Type) where
  all : List α
  name : α → String
  code : α → UInt8
  /-- The identifier of a value in structured output: the name in title case, unless stated otherwise. -/
  tag : α → String := fun x => (name x).toLower.capitalize

namespace Vocabulary

/-- The value spelled exactly `word`. -/
def find? {α : Type} [Vocabulary α] (word : String) : Option α :=
  (all : List α).find? fun x => name x == word

theorem name_of_find? {α : Type} [Vocabulary α] {word : String} {x : α} (h : find? word = some x) :
    name x = word := by
  simpa using List.find?_some h

end Vocabulary

end Z80Asm
