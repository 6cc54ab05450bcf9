/-
The lines of two texts, one behind the other. Where the first one ends in a line feed, its lines are followed by those
of the second (`Text.lines_append`), whatever carriage returns there are. Rows that are joined with a line feed behind
each are the lines of the text again (`Text.lines_join`).
-/
import Z80Asm.Text.Lines

namespace Z80Asm.Text

theorem splitLines_ne_nil {text : List Char} (h : text ≠ []) : splitLines text ≠ [] := by
  induction text with
  | nil => exact absurd rfl h
  | cons c rest ih =>
    rw [splitLines]
    split
    · exact List.cons_ne_nil _ _
    · split
      · rename_i hc
        apply ih
        rintro rfl
        cases hc.2
      · split <;> exact List.cons_ne_nil _ _

/-- A line feed ends a line, and what stands behind it has no part in the lines before. -/
theorem splitLines_append_cons (text rest : List Char) :
    splitLines (text ++ '\n' :: rest) = splitLines (text ++ ['\n']) ++ splitLines rest := by
  induction text with
  | nil => rfl
  | cons c text ih =>
    have next : (text ++ '\n' :: rest).head? = (text ++ ['\n']).head? := by cases text <;> rfl
    have some_line : splitLines (text ++ ['\n']) ≠ [] := splitLines_ne_nil (by simp)
    simp only [List.cons_append, splitLines, next, ih]
    split
    · rfl
    · split
      · rfl
      · cases hl : splitLines (text ++ ['\n']) with
        | nil => exact absurd hl some_line
        | cons line more => rfl

/-- The lines of a text that is empty or ends in a line feed, followed by another one. -/
theorem lines_append {a : String} (h : a = "" ∨ ∃ s, a = s ++ "\n") (b : String) : lines (a ++ b) = lines a ++ lines b := by
  rcases h with rfl | ⟨s, rfl⟩
  · rw [String.empty_append]
    rfl
  · have feed : "\n".toList = ['\n'] := rfl
    have cut := splitLines_append_cons s.toList b.toList
    simp only [lines, String.toList_append, feed, List.append_assoc, List.singleton_append, cut, List.map_append]

theorem feed_notMem_of_mem_splitLines {text row : List Char} (h : row ∈ splitLines text) : '\n' ∉ row := by
  induction text generalizing row with
  | nil => cases h
  | cons c rest ih =>
    rw [splitLines] at h
    split at h
    · rcases List.mem_cons.1 h with rfl | h
      · exact nofun
      · exact ih h
    · rename_i hc
      split at h
      · exact ih h
      · have first : ∀ line, '\n' ∉ line → '\n' ∉ c :: line := fun line hl => List.not_mem_cons_of_ne_of_not_mem (Ne.symm hc) hl
        split at h
        · rw [List.mem_singleton.1 h]
          exact first [] nofun
        · rename_i line more hs
          rw [hs] at ih
          rcases List.mem_cons.1 h with rfl | h
          · exact first line (ih List.mem_cons_self)
          · exact ih (List.mem_cons_of_mem line h)

theorem feed_notMem_of_mem_lines {s row : String} (h : row ∈ lines s) : '\n' ∉ row.toList := by
  obtain ⟨line, hl, rfl⟩ := List.mem_map.1 h
  rw [String.toList_ofList]
  exact feed_notMem_of_mem_splitLines hl

/-! ## Joined rows -/

/-- Whether a text can be a line: it has no line feed in it, and no carriage return at its end that would belong to the
ending. -/
def IsLine (row : String) : Prop := '\n' ∉ row.toList ∧ row.toList.getLast? ≠ some '\r'

/-- A row and its line feed are the first line. -/
theorem splitLines_append_feed {row : List Char} (feed : '\n' ∉ row) (last : row.getLast? ≠ some '\r') (rest : List Char) :
    splitLines (row ++ '\n' :: rest) = row :: splitLines rest := by
  induction row with
  | nil => rfl
  | cons c row ih =>
    have hc : c ≠ '\n' := fun h => feed (h ▸ List.mem_cons_self)
    -- A carriage return right before the line feed would be the last character of the row.
    have inside : ¬(c = '\r' ∧ (row ++ '\n' :: rest).head? = some '\n') := by
      rintro ⟨rfl, next⟩
      cases row with
      | nil => exact last rfl
      | cons d row => exact feed (by simp_all)
    have more : row.getLast? ≠ some '\r' := by
      cases row with
      | nil => exact nofun
      | cons d row => rwa [List.getLast?_cons_cons] at last
    rw [List.cons_append, splitLines, if_neg hc, if_neg inside, ih (fun h => feed (List.mem_cons_of_mem c h)) more]

theorem lines_join {rows : List String} (h : ∀ row ∈ rows, IsLine row) : lines (String.join (rows.map (· ++ "\n"))) = rows := by
  induction rows with
  | nil => rfl
  | cons row rows ih =>
    obtain ⟨feed, last⟩ := h row List.mem_cons_self
    have more := ih fun r hr => h r (List.mem_cons_of_mem row hr)
    have cut : (row ++ "\n").toList = row.toList ++ ['\n'] := String.toList_append
    rw [lines] at more ⊢
    rw [List.map_cons, String.join_cons, String.toList_append, cut, List.append_assoc, List.singleton_append,
      splitLines_append_feed feed last, List.map_cons, more, String.ofList_toList]

end Z80Asm.Text
