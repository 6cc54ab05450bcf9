/-
The text of a listing, read back. With the column of bytes, each line shows one entry in columns that are found again by
their place alone, so that addresses, bytes and sources are not lost (`Listing.render_lossless`).
-/
import Z80Asm.Proofs.Assembler.Source
import Z80Asm.Proofs.OpcodeMap.Documented
import Z80Asm.Proofs.Text.Hex
import Z80Asm.Proofs.Text.Lines
import Mathlib.Data.List.TakeWhile

namespace Z80Asm

/-! ## Reading a line -/

/-- A text without the white space at its end. -/
def Text.IsTrimmed (trimmed text : List Char) : Prop :=
  ∃ white, text = trimmed ++ white ∧ (∀ c ∈ white, isWhiteSpace c = true) ∧
    ∀ c, trimmed.getLast? = some c → isWhiteSpace c = false

namespace Rendered

/-- Where the address ends: at the first blank. -/
def addressEnd (line : String) : Nat := line.toList.findIdx (· == ' ')

/-- The column of the address. -/
def address (line : String) : List Char := line.toList.take (addressEnd line)

/-- The column of bytes: twelve characters, two behind the address. -/
def field (line : String) : List Char := (line.toList.drop (addressEnd line + 2)).take 12

/-- The column of the source, one character behind that of the bytes. -/
def source (line : String) : List Char := line.toList.drop (addressEnd line + 15)

/-- The bytes in the column of bytes, with blanks between them. -/
def bytes (line : String) : List UInt8 := ((field line).splitOn ' ').filterMap Text.hexByte?

/-- A line without its column of bytes and the blank behind it. -/
def withoutField (line : String) : String :=
  String.ofList (line.toList.take (addressEnd line + 2) ++ line.toList.drop (addressEnd line + 15))

end Rendered

/-- What a line shows of an entry. The columns make up the whole line. -/
structure Entry.Shown (e : Entry) (line : String) : Prop where
  oneLine : '\n' ∉ line.toList
  columns : line.toList =
    Rendered.address line ++ [' ', ' '] ++ Rendered.field line ++ [' '] ++ Rendered.source line
  address : Text.hexNumber? (Rendered.address line) = some e.address.toNat
  fourDigits : 4 ≤ (Rendered.address line).length
  bytes : ∃ words padding, Rendered.field line = [' '].intercalate words ++ List.replicate padding ' ' ∧
    words.map Text.hexByte? = e.bytes.map some
  width : (Rendered.field line).length = 12
  source : Text.IsTrimmed (Rendered.source line) e.source.toList

/-! ## White space at the end -/

theorem Text.isTrimmed_trimEnd (s : String) : IsTrimmed (trimEnd s).toList s.toList := by
  have cut : s.toList =
      (s.toList.reverse.dropWhile isWhiteSpace).reverse ++ (s.toList.reverse.takeWhile isWhiteSpace).reverse := by
    rw [← List.reverse_append, List.takeWhile_append_dropWhile, List.reverse_reverse]
  rw [trimEnd, String.toList_ofList]
  refine ⟨_, cut, fun c hc => List.mem_takeWhile_imp (List.mem_reverse.1 hc), fun c hc => ?_⟩
  have last := List.head?_dropWhile_not isWhiteSpace s.toList.reverse
  rw [List.getLast?_reverse] at hc
  rwa [hc] at last

/-! ## The bytes of an entry -/

namespace Text

/-- Two digits for each byte, a blank between bytes. -/
theorem toList_hexDump (bytes : List UInt8) :
    (hexDump bytes).toList = [' '].intercalate (bytes.map fun b => hexPadded 2 b.toNat) := by
  rw [hexDump, String.toList_intercalate, List.map_map]
  congr 1
  exact List.map_congr_left fun b _ => String.toList_ofList

/-- With the blank behind it, a byte takes three characters. -/
theorem length_intercalate_blank {words : List (List Char)} (h : ∀ w ∈ words, w.length = 2) :
    ([' '].intercalate words).length = 3 * words.length - 1 := by
  match words with
  | [] => rfl
  | [w] =>
    rw [List.intercalate_singleton, h w List.mem_cons_self]
    rfl
  | w :: v :: words =>
    have more := length_intercalate_blank fun u hu => h u (List.mem_cons_of_mem w hu)
    rw [List.intercalate_cons_cons, List.length_append, List.length_append, more, h w List.mem_cons_self]
    simp only [List.length_cons, List.length_nil]
    omega

theorem notMem_intercalate_blank {words : List (List Char)} {c : Char} (hc : c ≠ ' ') (h : ∀ w ∈ words, c ∉ w) :
    c ∉ [' '].intercalate words := by
  match words with
  | [] => exact nofun
  | [w] =>
    rw [List.intercalate_singleton]
    exact h w List.mem_cons_self
  | w :: v :: words =>
    have more := notMem_intercalate_blank hc fun u hu => h u (List.mem_cons_of_mem w hu)
    rw [List.intercalate_cons_cons, List.mem_append, List.mem_append, List.mem_singleton]
    rintro ((hw | rfl) | hm)
    · exact h w List.mem_cons_self hw
    · exact hc rfl
    · exact more hm

/-- Cut at the blanks, a field falls into its words; nothing is read from the padding. -/
theorem filterMap_splitOn_field {words : List (List Char)} (padding : Nat) (h : ∀ w ∈ words, ' ' ∉ w) :
    (([' '].intercalate words ++ List.replicate padding ' ').splitOn ' ').filterMap hexByte? = words.filterMap hexByte? := by
  have other (w : List Char) (hw : ' ' ∉ w) : ∀ c ∈ w, (c == ' ') = false := by
    intro c hc
    apply beq_eq_false_iff_ne.2
    rintro rfl
    exact hw hc
  have cut (w rest : List Char) (hw : ' ' ∉ w) : (w ++ ' ' :: rest).splitOn ' ' = w :: rest.splitOn ' ' :=
    List.splitOnP_append_cons_of_forall_mem (other w hw) ' ' rfl rest
  have blanks : ∀ n, ((List.replicate n ' ').splitOn ' ').filterMap hexByte? = [] := by
    intro n
    induction n with
    | zero => rfl
    | succ n ih =>
      have first := cut [] (List.replicate n ' ') nofun
      rw [List.nil_append] at first
      rw [List.replicate_succ, first, List.filterMap_cons_none rfl, ih]
  match words with
  | [] => exact blanks padding
  | [w] =>
    have hw := h w List.mem_cons_self
    rw [List.intercalate_singleton]
    cases padding with
    | zero =>
      have single : w.splitOn ' ' = [w] := List.splitOnP_eq_singleton (other w hw)
      rw [List.replicate_zero, List.append_nil, single]
    | succ n =>
      rw [List.replicate_succ, cut w _ hw, List.filterMap_cons, blanks n, List.filterMap_cons]
      rfl
  | w :: v :: words =>
    have more := filterMap_splitOn_field padding fun u hu => h u (List.mem_cons_of_mem w hu)
    rw [List.intercalate_cons_cons, List.append_assoc, List.append_assoc, List.singleton_append,
      cut w _ (h w List.mem_cons_self), List.filterMap_cons, more, ← List.filterMap_cons]

end Text

/-! ## The columns of a line -/

namespace Rendered

section

variable {line : String} {digits middle rest : List Char}

theorem addressEnd_eq (blank : ' ' ∉ digits) (h : line.toList = digits ++ ' ' :: rest) : addressEnd line = digits.length := by
  have none : ¬digits.findIdx (· == ' ') < digits.length := by
    rw [List.findIdx_lt_length]
    rintro ⟨c, hc, he⟩
    exact blank (beq_iff_eq.1 he ▸ hc)
  rw [addressEnd, h, List.findIdx_append, if_neg none, List.findIdx_cons]
  exact Nat.zero_add _

variable (blank : ' ' ∉ digits) (h : line.toList = digits ++ [' ', ' '] ++ middle ++ [' '] ++ rest)
  (width : middle.length = 12)

include blank h

theorem addressEnd_of_columns : addressEnd line = digits.length := by
  have cut : line.toList = digits ++ ' ' :: (' ' :: middle ++ [' '] ++ rest) := by simp [h]
  exact addressEnd_eq blank cut

theorem address_of_columns : address line = digits := by
  rw [address, addressEnd_of_columns blank h, h]
  simp only [List.append_assoc, List.take_left]

theorem drop_of_columns : line.toList.drop (addressEnd line + 2) = middle ++ [' '] ++ rest := by
  rw [addressEnd_of_columns blank h, h]
  simp only [List.append_assoc]
  rw [← List.append_assoc, List.drop_left' (by simp)]

theorem take_of_columns : line.toList.take (addressEnd line + 2) = digits ++ [' ', ' '] := by
  rw [addressEnd_of_columns blank h, h]
  simp only [List.append_assoc]
  rw [← List.append_assoc, List.take_left' (by simp)]

include width

theorem field_of_columns : field line = middle := by
  rw [field, drop_of_columns blank h, List.append_assoc, List.take_left' width]

theorem source_of_columns : source line = rest := by
  have behind : addressEnd line + 15 = addressEnd line + 2 + 13 := rfl
  rw [source, behind, ← List.drop_drop, drop_of_columns blank h, List.drop_left' (by simp [width])]

theorem withoutField_of_columns : withoutField line = String.ofList (digits ++ [' ', ' '] ++ rest) := by
  have tail := source_of_columns blank h width
  rw [source] at tail
  rw [withoutField, take_of_columns blank h, tail]

end

end Rendered

/-! ## Lines of entries -/

namespace Entry

/-- What the text of a listing is made of can be found in it again: an entry has at most four bytes, and its source is in
one line. -/
structure Fits (e : Entry) : Prop where
  bytes : e.bytes.length ≤ 4
  source : '\n' ∉ e.source.toList

/-- The line of an entry with its bytes. -/
def row (e : Entry) : String := e.addressText ++ "  " ++ (e.bytesText ++ " ") ++ Text.trimEnd e.source

theorem render_true (e : Entry) : e.render true = e.row ++ "\n" := rfl

theorem toList_bytesText (e : Entry) : e.bytesText.toList =
    [' '].intercalate (e.bytes.map fun b => Text.hexPadded 2 b.toNat) ++
      List.replicate (12 - (Text.hexDump e.bytes).toList.length) ' ' := by
  rw [bytesText, String.toList_ofList, List.rightpad, ← Text.toList_hexDump, bytesWidth]

theorem length_bytesText {e : Entry} (h : e.bytes.length ≤ 4) : e.bytesText.toList.length = 12 := by
  have words : ∀ w ∈ e.bytes.map (fun b => Text.hexPadded 2 b.toNat), w.length = 2 := by
    intro w hw
    obtain ⟨b, -, rfl⟩ := List.mem_map.1 hw
    exact Text.length_hexPadded_byte b
  have short := Text.length_intercalate_blank words
  rw [← Text.toList_hexDump, List.length_map] at short
  rw [bytesText, String.toList_ofList, List.length_rightpad, bytesWidth]
  omega

theorem toList_row (e : Entry) : e.row.toList =
    Text.hexPadded 4 e.address.toNat ++ [' ', ' '] ++ e.bytesText.toList ++ [' '] ++ (Text.trimEnd e.source).toList := by
  have two : "  ".toList = [' ', ' '] := rfl
  have one : " ".toList = [' '] := rfl
  simp only [row, addressText, String.toList_append, String.toList_ofList, two, one, List.append_assoc]

variable {e : Entry}

theorem feed_notMem_row (h : e.Fits) : '\n' ∉ e.row.toList := by
  have digits (width n : Nat) : '\n' ∉ Text.hexPadded width n := Text.notMem_hexPadded rfl width n
  obtain ⟨white, cut, -, -⟩ := Text.isTrimmed_trimEnd e.source
  have source : '\n' ∉ (Text.trimEnd e.source).toList := fun hc => h.source (cut ▸ List.mem_append_left white hc)
  have bytes : '\n' ∉ e.bytesText.toList := by
    rw [toList_bytesText, List.mem_append]
    rintro (hc | hc)
    · refine Text.notMem_intercalate_blank (by decide) (fun w hw => ?_) hc
      obtain ⟨b, -, rfl⟩ := List.mem_map.1 hw
      exact digits 2 b.toNat
    · cases List.eq_of_mem_replicate hc
  rw [toList_row]
  simp [digits, source, bytes]

theorem isLine_row (h : e.Fits) : Text.IsLine e.row := by
  refine ⟨feed_notMem_row h, ?_⟩
  -- A carriage return is white space, so that no source ends in one; without a source, the line ends in a blank.
  obtain ⟨-, -, -, last⟩ := Text.isTrimmed_trimEnd e.source
  rw [toList_row, List.getLast?_append]
  cases hl : (Text.trimEnd e.source).toList.getLast? with
  | none =>
    rw [Option.none_or, List.getLast?_concat]
    decide
  | some c =>
    have other := last c hl
    rw [Option.some_or, ne_eq, Option.some_inj]
    rintro rfl
    cases other

theorem shown_row (h : e.Fits) : e.Shown e.row := by
  have blank : ' ' ∉ Text.hexPadded 4 e.address.toNat := Text.notMem_hexPadded rfl 4 _
  have width := length_bytesText h.bytes
  have address := Rendered.address_of_columns blank e.toList_row
  have field := Rendered.field_of_columns blank e.toList_row width
  have source := Rendered.source_of_columns blank e.toList_row width
  constructor
  · exact feed_notMem_row h
  · rw [address, field, source, toList_row]
  · rw [address, Text.hexNumber?_hexPadded]
  · rw [address, Text.hexPadded, List.length_leftpad]
    omega
  · refine ⟨_, _, field.trans e.toList_bytesText, ?_⟩
    rw [List.map_map]
    exact List.map_congr_left fun b _ => Text.hexByte?_hexPadded b
  · rw [field, width]
  · rw [source]
    exact Text.isTrimmed_trimEnd e.source

/-- The bytes in the column of bytes are those of the entry. -/
theorem Shown.bytes_eq {line : String} (h : e.Shown line) : Rendered.bytes line = e.bytes := by
  obtain ⟨words, padding, field, read⟩ := h.bytes
  have blank : ∀ w ∈ words, ' ' ∉ w := by
    intro w hw
    have mem := List.mem_map_of_mem (f := Text.hexByte?) hw
    rw [read] at mem
    obtain ⟨b, -, hb⟩ := List.mem_map.1 mem
    exact Text.notMem_of_hexByte? hb.symm rfl
  have same := congrArg (List.filterMap id) read
  rw [List.filterMap_map, List.filterMap_map, Function.id_comp, Function.id_comp, List.filterMap_some] at same
  rw [Rendered.bytes, field, Text.filterMap_splitOn_field padding blank, same]

theorem withoutField_row (h : e.Fits) : Rendered.withoutField e.row ++ "\n" = e.render false := by
  have blank : ' ' ∉ Text.hexPadded 4 e.address.toNat := Text.notMem_hexPadded rfl 4 _
  have two : [' ', ' '] = "  ".toList := rfl
  rw [Rendered.withoutField_of_columns blank e.toList_row (length_bytesText h.bytes), two]
  show _ = e.addressText ++ "  " ++ "" ++ Text.trimEnd e.source ++ "\n"
  rw [String.ofList_append, String.ofList_append, String.ofList_toList, String.ofList_toList, String.append_empty, addressText]

end Entry

/-! ## Lines of listings -/

/-- No instruction has more than four bytes. -/
theorem Documented.length_le {bs : List UInt8} (h : Documented bs) : bs.length ≤ 4 := by
  cases h with
  | _ => simp

theorem length_bytes_encodeLine {text : String} {encoded : Encoded} (h : encodeLine text = .ok encoded) :
    encoded.bytes.length ≤ 4 := by
  obtain rfl | ⟨s, e, -, he, rfl⟩ := exists_of_encodeLine h
  · exact Nat.zero_le 4
  · obtain ⟨xs, -, row⟩ := Statement.encoding_eq_ok_iff.1 he
    show e.bytes.length ≤ 4
    rw [row.bytes_eq]
    exact (Documented.of_cell row.size?_cell).length_le

namespace Listing

/-- An entry has its source from the lines, and the bytes that it encodes to. -/
theorem encodeLine_of_mem_ofLines {policy : Policy} {line : Nat} {address : UInt32} {lines : List String} {e : Entry}
    (h : e ∈ (ofLines policy line address lines).entries) :
    e.source ∈ lines ∧ ∃ encoded, encodeLine e.source = .ok encoded ∧ encoded.bytes = e.bytes := by
  induction lines generalizing line address with
  | nil => cases h
  | cons text more ih =>
    cases ht : encodeLine text with
    | ok encoded =>
      rw [ofLines_of_ok ht] at h
      rcases List.mem_cons.1 h with rfl | h
      · exact ⟨List.mem_cons_self, encoded, ht, rfl⟩
      · exact (ih h).imp_left (List.mem_cons_of_mem text)
    | error fault =>
      cases policy with
      | stop => rw [ofLines_stop_of_error ht] at h; cases h
      | keepGoing =>
        rw [ofLines_keepGoing_of_error ht] at h
        exact (ih h).imp_left (List.mem_cons_of_mem text)

theorem fits_of_mem_ofSource {policy : Policy} {source : String} {e : Entry} (h : e ∈ (ofSource policy source).entries) :
    e.Fits := by
  obtain ⟨mem, encoded, he, same⟩ := encodeLine_of_mem_ofLines h
  exact ⟨same ▸ length_bytes_encodeLine he, Text.feed_notMem_of_mem_lines mem⟩

variable {l : Listing}

theorem render_true_eq_join (l : Listing) : l.render true = String.join ((l.entries.map Entry.row).map (· ++ "\n")) := by
  rw [render, List.map_map]
  rfl

theorem lines_render (h : ∀ e ∈ l.entries, e.Fits) : Text.lines (l.render true) = l.entries.map Entry.row := by
  rw [render_true_eq_join]
  apply Text.lines_join
  intro row hr
  obtain ⟨e, he, rfl⟩ := List.mem_map.1 hr
  exact Entry.isLine_row (h e he)

theorem forall₂_shown (h : ∀ e ∈ l.entries, e.Fits) : List.Forall₂ Entry.Shown l.entries (l.entries.map Entry.row) :=
  List.forall₂_map_right_iff.2 (List.forall₂_same.2 fun e he => Entry.shown_row (h e he))

theorem map_bytes_row (h : ∀ e ∈ l.entries, e.Fits) :
    (l.entries.map Entry.row).map Rendered.bytes = l.entries.map Entry.bytes := by
  have read : ∀ e ∈ l.entries, Rendered.bytes e.row = e.bytes := fun e he => (Entry.shown_row (h e he)).bytes_eq
  rw [List.map_map, Function.comp_def]
  exact List.map_congr_left read

theorem flatMap_bytes_row (h : ∀ e ∈ l.entries, e.Fits) : (l.entries.map Entry.row).flatMap Rendered.bytes = l.image := by
  rw [List.flatMap_def, map_bytes_row h, ← List.flatMap_def, image]

theorem render_false_eq_join (h : ∀ e ∈ l.entries, e.Fits) :
    l.render false = String.join ((l.entries.map Entry.row).map (Rendered.withoutField · ++ "\n")) := by
  have plain : ∀ e ∈ l.entries, e.render false = Rendered.withoutField e.row ++ "\n" := fun e he =>
    (Entry.withoutField_row (h e he)).symm
  rw [render, List.map_map, List.map_congr_left plain, Function.comp_def]

/-- The text of a listing has one line for each entry, in order, that shows its address, its bytes and its source, the
bytes in a column of fixed width. The bytes of all lines make up the image, and the lines without that column are the
text that is written without bytes. -/
theorem render_lossless (policy : Policy) (source : String) :
    let l := ofSource policy source
    let rows := Text.lines (l.render true)
    l.render true = String.join (rows.map (· ++ "\n")) ∧
    List.Forall₂ Entry.Shown l.entries rows ∧
    rows.map Rendered.bytes = l.entries.map Entry.bytes ∧
    rows.flatMap Rendered.bytes = l.image ∧
    l.render false = String.join (rows.map (Rendered.withoutField · ++ "\n")) := by
  intro l rows
  have fits : ∀ e ∈ l.entries, e.Fits := fun e he => fits_of_mem_ofSource he
  have same : rows = l.entries.map Entry.row := lines_render fits
  rw [same]
  exact ⟨render_true_eq_join l, forall₂_shown fits, map_bytes_row fits, flatMap_bytes_row fits, render_false_eq_join fits⟩

/-- A line without a statement keeps the column of bytes, which is blank. -/
example : (ofSource .stop "LD (IX+1),0xFF\r\n; CD\t\nRET").render true =
    "0000  DD 36 01 FF  LD (IX+1),0xFF\n" ++ "0004               ; CD\n" ++ "0004  C9           RET\n" := by
  decide +kernel

end Listing

end Z80Asm
