/-
What the columns of reports point at. A lexical error points at the text that begins with no token, a syntax error at the
token that shows the fault, and an error in operands or an overflow at the mnemonic, or at the first token of the operand
with the reported value. All of these are columns where a character begins in front of the comment
(`encodeLine_pointsAt`).
-/
import Z80Asm.Proofs.Assembler.Assertion
import Z80Asm.Proofs.Assembler.Columns
import Z80Asm.Proofs.Assembler.Overflow
import Z80Asm.Proofs.Statement.Failure
import Z80Asm.Proofs.Statement.Sentence
import Z80Asm.Proofs.Table.Rejection
import Z80Asm.Proofs.Token.Split

namespace Z80Asm

/-! ## Columns of a line -/

namespace Token

/-- A column of a line where a character begins in front of the comment. -/
structure Starts (line : String) (column : Nat) : Prop where
  within : column < line.utf8ByteSize
  boundary : ∃ front c behind, code line.toList = front ++ c :: behind ∧ (String.ofList front).utf8ByteSize = column

/-- A column of a line where one of its tokens begins. -/
def Begins (line : String) (column : Nat) : Prop := ∃ tokens, scan line = .ok tokens ∧ ∃ t ∈ tokens, t.column = column

/-- Where a run ends before the end of the text, a character begins. -/
theorem Run.starts {line : String} {tokens : List Token} {column : Nat} {rest : List Char}
    (h : Run 0 (code line.toList) tokens column rest) (ne : rest ≠ []) : Starts line column := by
  obtain ⟨front, cut, rfl⟩ := h.exists_front
  obtain ⟨c, behind, rfl⟩ := List.exists_cons_of_ne_nil ne
  refine ⟨?_, front, c, behind, cut, rfl⟩
  have whole : line =
      String.ofList front ++ (String.singleton c ++ String.ofList (behind ++ line.toList.dropWhile (· != ';'))) := by
    apply String.toList_inj.1
    have split := List.takeWhile_append_dropWhile (p := (· != ';')) (l := line.toList)
    rw [← code, cut] at split
    simpa using split.symm
  have positive := c.utf8Size_pos
  have size := congrArg String.utf8ByteSize whole
  rw [String.utf8ByteSize_append, String.utf8ByteSize_append, String.utf8ByteSize_singleton] at size
  omega

/-- A run comes upon each of its tokens at its column. The induction is on the run. -/
theorem Run.exists_of_mem {column stop : Nat} {tokens : List Token} {text rest : List Char}
    (h : Run column text tokens stop rest) {t : Token} (ht : t ∈ tokens) :
    ∃ before word behind, Run column text before t.column (word ++ behind) ∧ Lexeme t.kind word behind := by
  induction h with
  | here => cases ht
  | blank hc h ih =>
    obtain ⟨before, word, behind, run, lexeme⟩ := ih ht
    exact ⟨before, word, behind, .blank hc run, lexeme⟩
  | token hw h ih =>
    rcases List.mem_cons.1 ht with rfl | ht
    · exact ⟨[], _, _, .here _ _, hw⟩
    · obtain ⟨before, word, behind, run, lexeme⟩ := ih ht
      exact ⟨_, word, behind, .token hw run, lexeme⟩

theorem Begins.starts {line : String} {column : Nat} (h : Begins line column) : Starts line column := by
  obtain ⟨tokens, scanned, t, ht, rfl⟩ := h
  obtain ⟨stop, run⟩ := scan_eq_ok_iff.1 scanned
  obtain ⟨before, word, behind, upTo, lexeme⟩ := run.exists_of_mem ht
  exact upTo.starts (by simp [lexeme.ne_nil])

end Token

/-! ## What is pointed at -/

/-- The value in a node: a number, the number of an address, or the displacement from a base. -/
inductive Node.HasValue : Node → Int32 → Prop
  | number (v : Int32) (i : Nat) : HasValue (.leaf (.immediate v) i) v
  | absolute (v : Int32) (i j : Nat) : HasValue (.address [.leaf (.immediate v) j] i) v
  | displaced {o : Operator} {n v : Int32} (h : o.signed? n = some v) (base : Leaf) (i j k l : Nat) :
    HasValue (.address [.leaf base j, .leaf (.operator o) k, .leaf (.immediate n) l] i) v

/-- An operand of the statement of a line: its first token, and its node. -/
structure Statement.OperandAt (line : String) (s : Statement) (i : Nat) (t : Token) (node : Node) : Prop where
  read : ofLine? line = .ok (some s)
  tree : s.operands[i]? = some node
  tokens : ∃ first rest more, Token.scan line = .ok (first :: rest) ∧
    (rest.splitOnP Token.isComma)[i]? = some (t :: more) ∧ Node.Phrase (t :: more) node

/-- What a report about a line points at, and the column of that: the text that begins with no token, the token that shows a
fault, the mnemonic whose operands are illegal, the number that a complaint is about, or the operand that feeds a field. -/
inductive Report.PointsAt (line : String) : Report → Nat → Prop
  | text {tokens : List Token} {fault : TokenFault} {column : Nat} {rest : List Char}
    (run : Token.Run 0 (Token.code line.toList) tokens column rest) (stuck : Token.Stuck fault rest) :
    PointsAt line (.failure (.token ⟨fault, column⟩)) column
  | token {f : SyntaxFault} {front behind : List Token} {t : Token} (scanned : Token.scan line = .ok (front ++ t :: behind))
    (fails : Statement.Fails f front t behind) (shown : f.IsShownBy t) :
    PointsAt line (.failure (.statement ⟨f, t.column⟩)) t.column
  | mnemonic {s : Statement} {t : Token} {rest : List Token} (read : Statement.ofLine? line = .ok (some s))
    (scanned : Token.scan line = .ok (t :: rest)) (named : Statement.mnemonic? t = some s.mnemonic) :
    PointsAt line (.failure (.evaluation ⟨s.mnemonic, .illegalOperands, t.column⟩)) t.column
  | number {s : Statement} {i : Nat} {t : Token} {v : Int32} (h : s.OperandAt line i t (.leaf (.immediate v) t.column))
    {fault : Fault} (hf : fault ∈ [.outOfRange v, .badBitIndex v, .badRestart v, .badInterruptMode v])
    (shown : fault.operand? = some i) : PointsAt line (.failure (.evaluation ⟨s.mnemonic, fault, t.column⟩)) t.column
  | field {s : Statement} {i : Nat} {t : Token} {node : Node} {v : Int32} (h : s.OperandAt line i t node)
    (value : node.HasValue v) {xs : List Operand} (operands : Operand.ofNodes s.operands = .ok xs) {x : Operand}
    (hx : xs[i]? = some x) {w : Width} (feeds : s.mnemonic.width? xs x = some w) :
    PointsAt line (.overflow ⟨s.mnemonic, w, v, t.column⟩) t.column

/-! ## Tokens of a line -/

/-- What stands between separators stands in the list. -/
theorem mem_of_mem_splitOnP {α : Type} {p : α → Bool} {l piece : List α} (h : piece ∈ l.splitOnP p) {a : α}
    (ha : a ∈ piece) : a ∈ l := by
  induction l generalizing piece with
  | nil =>
    obtain rfl := List.mem_singleton.1 h
    cases ha
  | cons b l ih =>
    rw [List.splitOnP_cons_eq_if_modifyHead] at h
    split at h
    · rcases List.mem_cons.1 h with rfl | h
      · cases ha
      · exact List.mem_cons_of_mem b (ih h ha)
    · cases hl : l.splitOnP p with
      | nil => exact absurd hl (List.splitOnP_ne_nil p l)
      | cons first more =>
        rw [hl] at h
        rcases List.mem_cons.1 h with rfl | h
        · rcases List.mem_cons.1 ha with rfl | ha
          · exact List.mem_cons_self
          · exact List.mem_cons_of_mem b (ih (hl ▸ List.mem_cons_self) ha)
        · exact List.mem_cons_of_mem b (ih (hl ▸ List.mem_cons_of_mem first h) ha)

theorem Statement.OperandAt.begins {line : String} {s : Statement} {i : Nat} {t : Token} {node : Node}
    (h : s.OperandAt line i t node) : Token.Begins line t.column := by
  obtain ⟨first, rest, more, scanned, piece, -⟩ := h.tokens
  have mem := mem_of_mem_splitOnP (List.mem_of_getElem? piece) List.mem_cons_self
  exact ⟨_, scanned, t, List.mem_cons_of_mem first mem, rfl⟩

/-- What is not about the text points at a token. -/
theorem Report.PointsAt.begins {line : String} {r : Report} {column : Nat} (h : r.PointsAt line column) :
    Token.Begins line column ∨ ∃ e, r = .failure (.token e) := by
  cases h with
  | text => exact .inr ⟨_, rfl⟩
  | token scanned => exact .inl ⟨_, scanned, _, List.mem_append_right _ List.mem_cons_self, rfl⟩
  | mnemonic read scanned => exact .inl ⟨_, scanned, _, List.mem_cons_self, rfl⟩
  | number h => exact .inl h.begins
  | field h => exact .inl h.begins

theorem Report.PointsAt.starts {line : String} {r : Report} {column : Nat} (h : r.PointsAt line column) :
    Token.Starts line column := by
  rcases h.begins with begins | ⟨e, rfl⟩
  · exact begins.starts
  · cases h with
    | text run stuck => exact run.starts stuck.ne_nil

/-! ## The statement of a line -/

theorem Node.Phrase.column_eq {t : Token} {more : List Token} {node : Node} (h : Phrase (t :: more) node) :
    node.column = t.column := by
  cases h <;> rfl

namespace Statement

theorem mnemonic?_of_ofTokens {t : Token} {rest : List Token} {s : Statement} (h : ofTokens (t :: rest) = .ok s) :
    mnemonic? t = some s.mnemonic ∧ s.column = t.column := by
  rw [ofTokens] at h
  split at h
  · cases h
  · rename_i m hm
    obtain ⟨nodes, -, rfl⟩ := exists_of_map_eq_ok h
    exact ⟨hm, rfl⟩

theorem ofLine?_of_ofTokens {line : String} {t : Token} {rest : List Token} {s : Statement}
    (scanned : Token.scan line = .ok (t :: rest)) (h : ofTokens (t :: rest) = .ok s) : ofLine? line = .ok (some s) := by
  simp only [ofLine?, scanned, h]

/-- Each operand of a statement begins with a token of its own, which has its column. -/
theorem exists_operandAt {line : String} {t : Token} {rest : List Token} {s : Statement}
    (scanned : Token.scan line = .ok (t :: rest)) (h : ofTokens (t :: rest) = .ok s) {i : Nat} {node : Node}
    (hn : s.operands[i]? = some node) : ∃ first, s.OperandAt line i first node ∧ node.column = first.column := by
  have read := ofLine?_of_ofTokens scanned h
  cases ofTokens_eq_ok_iff_sentence.1 h with
  | alone => cases hn
  | operands spelled j phrases =>
    obtain ⟨piece, hp, phrase⟩ := exists_getElem?_of_forall₂ phrases.flip hn
    obtain ⟨first, more, rfl⟩ := List.exists_cons_of_ne_nil phrase.ne_nil
    exact ⟨first, ⟨read, hn, _, rest, more, scanned, hp, phrase⟩, phrase.column_eq⟩

end Statement

/-! ## Values of operands -/

theorem Operand.eq_leaf_of_immediate {node : Node} {v : Int32} (h : ofNode node = .ok (.immediate v)) :
    node = .leaf (.immediate v) node.column := by
  unfold ofNode at h
  split at h
  · rename_i w _
    cases w <;> cases h
  · cases h
    rfl
  · cases h
  · cases h
  · split at h <;> cases h

theorem Address.hasValue_of_ofNodes? {children : List Node} {a : Address} (h : ofNodes? children = some a) {m : Mnemonic}
    {w : Width} (hw : m.addressWidth? a.base = some w) (outside : w.fits (Operand.address a).value = false) (i : Nat) :
    Node.HasValue (.address children i) (Operand.address a).value := by
  unfold ofNodes? at h
  split at h
  · rename_i l j
    obtain ⟨base, hb, rfl⟩ := Option.map_eq_some_iff.1 h
    cases base with
    | immediate n =>
      unfold Base.ofLeaf? at hb
      split at hb <;> cases hb
      exact .absolute n i j
    | indexPair p =>
      -- without a displacement the value is zero, which is in the range of any field
      cases w <;> cases outside
    | _ => cases hw
  · rename_i b j o k n l
    split at h <;> cases h
    rename_i base d number hb hd
    cases base with
    | immediate n => exact absurd rfl (number n)
    | indexPair p => exact .displaced hd b i j k l
    | _ => cases hw
  · cases h

theorem Operand.hasValue_of_width? {node : Node} {x : Operand} (h : ofNode node = .ok x) {m : Mnemonic} {xs : List Operand}
    {w : Width} (hw : m.width? xs x = some w) (outside : w.fits x.value = false) : node.HasValue x.value := by
  cases x with
  | immediate v =>
    rw [eq_leaf_of_immediate h]
    exact .number v _
  | address a =>
    cases node with
    | leaf l i =>
      cases l with
      | word v => cases v <;> cases h
      | _ => cases h
    | address children i =>
      rw [ofNode] at h
      split at h <;> cases h
      rename_i ha
      exact Address.hasValue_of_ofNodes? ha hw outside i
  | _ => cases hw

/-! ## Faults of operands -/

/-- A fault that names an operand names one that is a number, and has its value. -/
theorem Mnemonic.exists_of_rejection {m : Mnemonic} {xs : List Operand} {i : Nat} (h : (m.rejection xs).operand? = some i) :
    ∃ v, xs[i]? = some (.immediate v) ∧
      m.rejection xs ∈ [.outOfRange v, .badBitIndex v, .badRestart v, .badInterruptMode v] := by
  cases m with
  | LD =>
    simp only [rejection, Load.rejection] at h ⊢
    split at h <;> cases h
    exact ⟨_, rfl, by simp⟩
  | BIT | RES | SET =>
    simp only [rejection, BitAccess.rejection] at h ⊢
    split at h
    · split at h <;> cases h
      rename_i index
      exact ⟨_, rfl, by simp [index]⟩
    · cases h
  | RST =>
    simp only [rejection, Branch.rejection] at h ⊢
    split at h <;> cases h
    exact ⟨_, rfl, by simp⟩
  | IM =>
    simp only [rejection, InterruptMode.rejection] at h ⊢
    split at h <;> cases h
    exact ⟨_, rfl, by simp⟩
  | _ => cases h

theorem Fault.eq_illegalOperands {fault : Fault} (shown : fault.operand? = none) (h : fault ≠ .malformedAddress) :
    fault = .illegalOperands := by
  cases fault with
  | illegalOperands => rfl
  | malformedAddress => exact absurd rfl h
  | _ => cases shown

/-- A field has the value of the operand at its place. -/
theorem Row.exists_of_field {m : Mnemonic} {xs : List Operand} {e : Encoding} (row : Row m xs e) {f : Field}
    (hf : f ∈ e.fields) : ∃ x, xs[f.operand]? = some x ∧ m.width? xs x = some f.width ∧ f.value = x.value := by
  rw [row.fields_eq] at hf
  obtain ⟨⟨x, i⟩, hx, hm⟩ := List.mem_filterMap.1 hf
  obtain ⟨w, hw, rfl⟩ := Option.map_eq_some_iff.1 hm
  exact ⟨x, List.mem_zipIdx_iff_getElem?.1 hx, hw, rfl⟩

/-! ## Errors and warnings -/

/-- Each operand of an instruction comes from a node in its place. -/
theorem Operand.exists_node {nodes : List Node} {xs : List Operand} (hxs : ofNodes nodes = .ok xs) {i : Nat} {x : Operand}
    (hx : xs[i]? = some x) : ∃ node, nodes[i]? = some node ∧ ofNode node = .ok x :=
  exists_getElem?_of_forall₂ (ofNodes_eq_ok_iff.1 hxs).flip hx

section

variable {line : String} {t : Token} {rest : List Token} {s : Statement} (scanned : Token.scan line = .ok (t :: rest))
  (read : Statement.ofTokens (t :: rest) = .ok s)
include scanned read

theorem Statement.pointsAt_of_error {e : EvalError} (h : s.encoding = .error e) :
    (Report.failure (.evaluation e)).PointsAt line e.column := by
  obtain ⟨xs, hxs⟩ := exists_operands read
  cases hf : s.mnemonic.encode xs with
  | ok e => cases h.symm.trans (encoding_eq_ok_iff.2 ⟨xs, hxs, Mnemonic.encode_eq_ok_iff.1 hf⟩)
  | error fault =>
    cases h.symm.trans (encoding_of_fault hxs hf)
    have rejected := Mnemonic.eq_rejection_of_encode hf
    cases shown : fault.operand? with
    | none =>
      have plain : fault ≠ .malformedAddress := by
        rintro rfl
        exact Mnemonic.encode_ne_malformed _ _ hf
      obtain rfl := Fault.eq_illegalOperands shown plain
      obtain ⟨named, column⟩ := mnemonic?_of_ofTokens read
      rw [failure, shown, Option.map_none, Option.getD_none, column]
      exact .mnemonic (ofLine?_of_ofTokens scanned read) scanned named
    | some i =>
      rw [rejected] at shown
      obtain ⟨v, hx, hv⟩ := Mnemonic.exists_of_rejection shown
      obtain ⟨node, hn, hr⟩ := Operand.exists_node hxs hx
      obtain ⟨first, place, column⟩ := exists_operandAt scanned read hn
      rw [← rejected] at shown hv
      rw [failure, shown, Option.map_some, Option.getD_some, columnOf_eq hn, column]
      rw [Operand.eq_leaf_of_immediate hr, column] at place
      exact .number place hv shown

theorem Statement.pointsAt_of_overflow {e : Encoding} (h : s.encoding = .ok e) {o : Overflow} (ho : o ∈ s.overflows e) :
    (Report.overflow o).PointsAt line o.column := by
  obtain ⟨xs, hxs, row⟩ := encoding_eq_ok_iff.1 h
  obtain ⟨f, hf, rfl⟩ := List.mem_map.1 ho
  obtain ⟨hf, overflow⟩ := List.mem_filter.1 hf
  obtain ⟨x, hx, hw, value⟩ := row.exists_of_field hf
  obtain ⟨node, hn, hr⟩ := Operand.exists_node hxs hx
  obtain ⟨first, place, column⟩ := exists_operandAt scanned read hn
  have outside : f.width.fits x.value = false := by simpa [Field.overflows, value] using overflow
  rw [columnOf_eq hn, column, value]
  exact .field place (Operand.hasValue_of_width? hr hw outside) hxs hx hw

end

/-- What a line comes to. -/
theorem encodeLine_eq_ofTokens (line : String) : encodeLine line = match Token.scan line with
    | .error e => .error (.token e)
    | .ok tokens => Encoded.ofTokens 1 tokens := encodeLineAt_eq_ofTokens 1 line

theorem pointsAt_of_error {line : String} {e : AsmError} (h : encodeLine line = .error e) :
    (Report.failure e).PointsAt line e.column := by
  rw [encodeLine_eq_ofTokens] at h
  cases scanned : Token.scan line with
  | error fault =>
    rw [scanned] at h
    cases h
    obtain ⟨tokens, rest, run, stuck⟩ := Token.scan_eq_error_iff.1 scanned
    exact .text run stuck
  | ok tokens =>
    rw [scanned] at h
    cases tokens with
    | nil => cases h
    | cons t rest =>
      simp only [Encoded.ofTokens] at h
      split at h
      · rename_i fault hf
        cases h
        obtain ⟨⟨⟩, -⟩ | ⟨front, shows, behind, cut, fails, place⟩ := Statement.ofTokens_eq_error_iff.1 hf
        rw [cut] at scanned
        have points : (Report.failure (.statement ⟨fault.fault, shows.column⟩)).PointsAt line shows.column :=
          .token scanned fails fails.isShownBy
        rwa [place] at points
      · rename_i s read
        split at h <;> cases h
        rename_i e he
        exact Statement.pointsAt_of_error scanned read he

theorem pointsAt_of_mem_warnings {line : String} {encoded : Encoded} (h : encodeLine line = .ok encoded) {d : Diagnostic}
    (hd : d ∈ encoded.warnings) : ∃ o, d.report = .overflow o ∧ (Report.overflow o).PointsAt line d.column := by
  rw [encodeLine_eq_ofTokens] at h
  cases scanned : Token.scan line with
  | error fault => rw [scanned] at h; cases h
  | ok tokens =>
    rw [scanned] at h
    cases tokens with
    | nil => cases h; cases hd
    | cons t rest =>
      simp only [Encoded.ofTokens] at h
      split at h
      · cases h
      · rename_i s read
        split at h <;> cases h
        rename_i e he
        obtain ⟨o, ho, rfl⟩ := List.mem_map.1 hd
        exact ⟨o, rfl, Statement.pointsAt_of_overflow scanned read he ho⟩

/-! ## The column of the mnemonic -/

/-- A statement whose encoding never takes the column of the mnemonic for that of an operand: the operands of faults and
fields are operands of the statement, and with the mnemonic at another column its code leaves the same draft behind, and
the same error but for the column of one that names no operand. -/
structure Statement.Placed (s : Statement) (xs : List Operand) : Prop where
  fault : ∀ fault i, s.mnemonic.encode xs = .error fault → fault.operand? = some i → i < s.operands.length
  field : ∀ e, s.mnemonic.encode xs = .ok e → ∀ f ∈ e.fields, f.operand < s.operands.length
  code : ∀ column draft, Emitter.dispatch s.mnemonic xs { s with column := column } draft =
    match Emitter.dispatch s.mnemonic xs s draft with
    | (.error e, draft) => (.error (if e.fault.operand? = none then { e with column := column } else e), draft)
    | (.ok (), draft) => (.ok (), draft)

theorem Statement.columnOf_move {s : Statement} {i : Nat} (h : i < s.operands.length) (column : Nat) :
    columnOf { s with column := column } i = s.columnOf i := by
  rw [columnOf, columnOf, List.getElem?_eq_getElem h]

theorem Statement.placed {s : Statement} {xs : List Operand} (hxs : Operand.ofNodes s.operands = .ok xs) : s.Placed xs := by
  have length := Operand.length_of_ofNodes hxs
  have fault : ∀ fault i, s.mnemonic.encode xs = .error fault → fault.operand? = some i → i < s.operands.length := by
    intro fault i hf shown
    rw [Mnemonic.eq_rejection_of_encode hf] at shown
    obtain ⟨v, hx, -⟩ := Mnemonic.exists_of_rejection shown
    rw [length]
    exact (List.getElem?_eq_some_iff.1 hx).1
  have field : ∀ e, s.mnemonic.encode xs = .ok e → ∀ f ∈ e.fields, f.operand < s.operands.length := by
    intro e he f hf
    obtain ⟨x, hx, -⟩ := (Mnemonic.encode_eq_ok_iff.1 he).exists_of_field hf
    rw [length]
    exact (List.getElem?_eq_some_iff.1 hx).1
  refine ⟨fault, field, fun column draft => ?_⟩
  rw [Emitter.dispatch_eq]
  cases hm : s.mnemonic.encode xs with
  | error f =>
    simp only [Emitter.settled, failure]
    cases shown : f.operand? with
    | none => rfl
    | some i =>
      have place := columnOf_move (fault f i hm shown) column
      simp only [Option.map_some, Option.getD_some, place, reduceCtorEq, if_false]
  | ok e =>
    have noted : noted { s with column := column } e.fields = s.noted e.fields := by
      refine List.map_congr_left fun f hf => ?_
      rw [columnOf_move (field e hm f (List.mem_of_mem_filter hf)) column]
    simp only [Emitter.settled, noted]

/-! ## Places -/

/-- Every reported column points into the line at the start of something. The column of an error or a warning is inside of
the line, at a character in front of the comment; it is where a token begins, or the text that no token begins with. A
syntax error is at the token that shows it, illegal operands are at the mnemonic, and a complaint about a number and an
overflow are at the first token of the operand that has the value. No line with an error is empty, and no operand is
looked up that a statement does not have. -/
theorem encodeLine_pointsAt (line : String) :
    (∀ e, encodeLine line = .error e → Token.Starts line e.column ∧
      (Token.Begins line e.column ∨ ∃ f, e = .token f) ∧ (Report.failure e).PointsAt line e.column) ∧
    (∀ encoded, encodeLine line = .ok encoded → ∀ d ∈ encoded.warnings, Token.Starts line d.column ∧
      Token.Begins line d.column ∧ ∃ o, d.report = .overflow o ∧ (Report.overflow o).PointsAt line d.column) ∧
    (∀ column, encodeLine line ≠ .error (.statement ⟨.empty, column⟩)) ∧
    ∀ (s : Statement) (xs : List Operand), Operand.ofNodes s.operands = .ok xs → s.Placed xs := by
  refine ⟨fun e h => ?_, fun encoded h d hd => ?_, fun column h => ?_, fun s xs hxs => Statement.placed hxs⟩
  · have points := pointsAt_of_error h
    refine ⟨points.starts, points.begins.imp_right ?_, points⟩
    rintro ⟨f, ⟨⟩⟩
    exact ⟨f, rfl⟩
  · obtain ⟨o, hr, points⟩ := pointsAt_of_mem_warnings h hd
    exact ⟨points.starts, points.begins.resolve_right nofun, o, hr, points⟩
  · cases pointsAt_of_error h with
    | token scanned fails shown => exact shown

/-- A number out of range, an open parenthesis, a letter that is none, and two overflows. -/
theorem encodeLine_pointsAt_lines :
    encodeLine "LD A, -300 ; é" = .error (.evaluation ⟨.LD, .outOfRange (-300), 6⟩) ∧
    Token.Begins "LD A, -300 ; é" 6 ∧
    encodeLine "JP (HL ; )" = .error (.statement ⟨.unclosedParen, 3⟩) ∧ Token.Begins "JP (HL ; )" 3 ∧
    encodeLine "RST é" = .error (.token ⟨.unexpected 'é', 4⟩) ∧ Token.Starts "RST é" 4 ∧
    (∃ encoded, encodeLine "LD (IX+200),300" = .ok encoded ∧ encoded.warnings.map Diagnostic.column = [3, 12] ∧
      ∀ d ∈ encoded.warnings, Token.Begins "LD (IX+200),300" d.column) ∧
    Statement.overflowing.Placed [.address ⟨.indexPair .IX, some 200⟩, .immediate 300] := by
  have range : encodeLine "LD A, -300 ; é" = .error (.evaluation ⟨.LD, .outOfRange (-300), 6⟩) := by decide +kernel
  have paren : encodeLine "JP (HL ; )" = .error (.statement ⟨.unclosedParen, 3⟩) := by decide +kernel
  have letter : encodeLine "RST é" = .error (.token ⟨.unexpected 'é', 4⟩) := by decide +kernel
  have both : (encodeLine "LD (IX+200),300").map (·.warnings.map Diagnostic.column) = .ok [3, 12] := by decide +kernel
  refine ⟨range, ((encodeLine_pointsAt _).1 _ range).2.1.resolve_right nofun, paren,
    ((encodeLine_pointsAt _).1 _ paren).2.1.resolve_right nofun, letter, ((encodeLine_pointsAt _).1 _ letter).1, ?_,
    (encodeLine_pointsAt "LD (IX+200),300").2.2.2 .overflowing _ rfl⟩
  cases h : encodeLine "LD (IX+200),300" with
  | error e => rw [h] at both; cases both
  | ok encoded =>
    rw [h] at both
    exact ⟨encoded, rfl, Except.ok.inj both, fun d hd => ((encodeLine_pointsAt _).2.1 _ h d hd).2.1⟩

end Z80Asm
