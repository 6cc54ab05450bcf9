/-
Columns are only reported. A statement at other columns has the same bytes, and the same warnings or the same error at
the other columns; lines with the same tokens at other columns come to the same, up to columns
(`Encoder.columns_reported`).
-/
import Z80Asm.Proofs.Assembler.Line
import Z80Asm.Proofs.Statement.Respelling

namespace Z80Asm

/-! ## Reports at other columns -/

/-- An evaluation error at another column. -/
def EvalError.mapColumn (place : Nat → Nat) (e : EvalError) : EvalError := { e with column := place e.column }

/-- An overflow at another column. -/
def Overflow.mapColumn (place : Nat → Nat) (o : Overflow) : Overflow := { o with column := place o.column }

/-- An error about another text and at another column. -/
def AsmError.map (spell : String → String) (place : Nat → Nat) : AsmError → AsmError
  | .token e => .token (e.map spell place)
  | .statement e => .statement (e.map spell place)
  | .evaluation e => .evaluation (e.mapColumn place)

/-- A report at another column. -/
def Report.mapColumn (place : Nat → Nat) : Report → Report
  | .overflow o => .overflow (o.mapColumn place)
  | .failure e => .failure (e.map id place)

/-- A diagnostic at another column of its line. -/
def Diagnostic.mapColumn (place : Nat → Nat) (d : Diagnostic) : Diagnostic := { d with report := d.report.mapColumn place }

/-- What a line comes to, with its warnings at other columns. -/
def Encoded.mapColumns (place : Nat → Nat) (encoded : Encoded) : Encoded :=
  { encoded with warnings := encoded.warnings.map (Diagnostic.mapColumn place) }

/-- The wording of a warning names no column. -/
theorem Diagnostic.message_mapColumn {d : Diagnostic} (h : d.isError = false) (place : Nat → Nat) :
    (d.mapColumn place).message = d.message := by
  obtain ⟨line, report⟩ := d
  cases report with
  | overflow o => rfl
  | failure e => cases h

/-- Two results that are the same once their values and their errors are changed are both values, or both errors. -/
theorem exists_of_map_eq {α β ε δ : Type} {f : α → β} {g : ε → δ} {x y : Except ε α}
    (h : (x.map f).mapError g = (y.map f).mapError g) :
    (∃ a b, x = .ok a ∧ y = .ok b ∧ f a = f b) ∨ ∃ d e, x = .error d ∧ y = .error e ∧ g d = g e := by
  cases x with
  | ok a =>
    cases y with
    | ok b => exact .inl ⟨a, b, rfl, rfl, Except.ok.inj h⟩
    | error e => cases h
  | error d =>
    cases y with
    | ok b => cases h
    | error e => exact .inr ⟨d, e, rfl, rfl, Except.error.inj h⟩

variable {spell : String → String} {place : Nat → Nat}

/-! ## Operands -/

@[simp] theorem Node.column_mapColumns (node : Node) : (node.mapColumns place).column = place node.column := by
  cases node <;> rfl

theorem Address.ofNodes?_map : ∀ nodes : List Node, ofNodes? (nodes.map (Node.mapColumns place)) = ofNodes? nodes
  | [] => rfl
  | [.leaf _ _] => rfl
  | [.leaf _ _, .leaf l _] => by cases l <;> rfl
  | .leaf _ _ :: .leaf l _ :: .leaf k _ :: more => by cases l <;> cases k <;> cases more <;> rfl
  | .leaf _ _ :: .leaf l _ :: .address _ _ :: _ => by cases l <;> rfl
  | .leaf _ _ :: .address _ _ :: _ => rfl
  | .address _ _ :: _ => rfl

namespace Operand

theorem ofNode_mapColumns (node : Node) : ofNode (node.mapColumns place) = ofNode node := by
  cases node with
  | leaf l column => cases l <;> rfl
  | address children column => rw [Node.mapColumns, Node.mapAllColumns_eq, ofNode, ofNode, Address.ofNodes?_map]

theorem ofNodes_map (nodes : List Node) : ofNodes (nodes.map (Node.mapColumns place)) = ofNodes nodes := by
  induction nodes with
  | nil => rfl
  | cons node more ih => rw [List.map_cons, ofNodes, ofNodes, ofNode_mapColumns, ih]

end Operand

/-! ## Statements -/

namespace Statement

theorem columnOf_mapColumns (s : Statement) (operand : Nat) :
    (s.mapColumns place).columnOf operand = place (s.columnOf operand) := by
  simp only [columnOf, mapColumns, List.getElem?_map]
  cases s.operands[operand]? with
  | none => rfl
  | some node => exact Node.column_mapColumns node

theorem failure_mapColumns (s : Statement) (fault : Fault) :
    (s.mapColumns place).failure fault = (s.failure fault).mapColumn place := by
  simp only [failure]
  cases fault.operand? with
  | none => rfl
  | some operand => exact congrArg (EvalError.mk s.mnemonic fault) (columnOf_mapColumns s operand)

theorem overflows_mapColumns (s : Statement) (e : Encoding) :
    (s.mapColumns place).overflows e = (s.overflows e).map (Overflow.mapColumn place) := by
  simp only [overflows, columnOf_mapColumns, List.map_map]
  rfl

/-- A statement at other columns has the same encoding, or the same error at its other column. -/
theorem encoding_mapColumns (s : Statement) :
    (s.mapColumns place).encoding = s.encoding.mapError (EvalError.mapColumn place) := by
  have operands : Operand.ofNodes (s.mapColumns place).operands = Operand.ofNodes s.operands := Operand.ofNodes_map _
  have mnemonic : (s.mapColumns place).mnemonic = s.mnemonic := rfl
  simp only [encoding, operands, mnemonic, failure_mapColumns]
  cases Operand.ofNodes s.operands with
  | error fault => rfl
  | ok xs =>
    dsimp only
    cases s.mnemonic.encode xs <;> rfl

theorem warnings_mapColumns (line : Nat) (s : Statement) (e : Encoding) :
    (s.mapColumns place).warnings line e = (s.warnings line e).map (Diagnostic.mapColumn place) := by
  rw [warnings, warnings, overflows_mapColumns, List.map_map, List.map_map]
  rfl

end Statement

/-! ## Lines -/

/-- What the tokens of a line come to. -/
def Encoded.ofTokens (line : Nat) : List Token → Except AsmError Encoded
  | [] => .ok ⟨[], []⟩
  | t :: more =>
    match Statement.ofTokens (t :: more) with
    | .error e => .error (.statement e)
    | .ok s =>
      match s.encoding with
      | .error e => .error (.evaluation e)
      | .ok e => .ok ⟨e.bytes, s.warnings line e⟩

theorem encodeLineAt_eq_ofTokens (line : Nat) (text : String) : encodeLineAt line text = match Token.scan text with
    | .error e => .error (.token e)
    | .ok tokens => Encoded.ofTokens line tokens := by
  unfold encodeLineAt Encoder.assembleLine Statement.ofLine?
  cases Token.scan text with
  | error e => rfl
  | ok tokens =>
    cases tokens with
    | nil => rfl
    | cons t more =>
      simp only [Encoded.ofTokens]
      cases Statement.ofTokens (t :: more) with
      | error e => rfl
      | ok s =>
        cases h : s.encoding with
        | error e => simp only [Encoder.z80_of_error h, h]
        | ok e =>
          simp only [Encoder.z80_of_encoding h, h]
          rfl

/-- Tokens with names of the same upper case and at other columns come to the same, up to these names and columns. -/
theorem Encoded.ofTokens_map (h : KeepsUpper spell) (line : Nat) (tokens : List Token) :
    ofTokens line (tokens.map (Token.map spell place)) =
      ((ofTokens line tokens).map (mapColumns place)).mapError (AsmError.map spell place) := by
  cases tokens with
  | nil => rfl
  | cons t more =>
    have read := @Statement.ofTokens_map spell place h t more
    rw [List.map_cons] at read ⊢
    simp only [ofTokens, read]
    cases Statement.ofTokens (t :: more) with
    | error e => rfl
    | ok s =>
      simp only [Except.map, Except.mapError, Statement.encoding_mapColumns, Statement.warnings_mapColumns]
      cases s.encoding <;> rfl

/-! ## Columns are only reported -/

/-- Tokens of the same kinds are the same where all columns are the same. -/
theorem Token.map_eq_of_kinds {ts us : List Token} (h : ts.map Token.kind = us.map Token.kind) (column : Nat) :
    ts.map (Token.map id fun _ => column) = us.map (Token.map id fun _ => column) := by
  have unplaced (ts : List Token) : ts.map (Token.map id fun _ => column) =
      (ts.map Token.kind).map fun kind => ⟨kind.map id, column⟩ := by
    rw [List.map_map]
    rfl
  rw [unplaced, unplaced, h]

theorem encodeLine_of_kinds {a b : String} {ts us : List Token} (ha : Token.scan a = .ok ts) (hb : Token.scan b = .ok us)
    (kinds : ts.map Token.kind = us.map Token.kind) :
    ((encodeLine a).map (Encoded.mapColumns fun _ => 0)).mapError (AsmError.map id fun _ => 0) =
      ((encodeLine b).map (Encoded.mapColumns fun _ => 0)).mapError (AsmError.map id fun _ => 0) := by
  simp only [encodeLine, encodeLineAt_eq_ofTokens, ha, hb]
  rw [← Encoded.ofTokens_map keepsUpper_id, ← Encoded.ofTokens_map keepsUpper_id, Token.map_eq_of_kinds kinds]

theorem messages_of_mapColumn {v w : List Diagnostic} (hv : ∀ d ∈ v, d.isError = false) (hw : ∀ d ∈ w, d.isError = false)
    {place : Nat → Nat} (h : v.map (Diagnostic.mapColumn place) = w.map (Diagnostic.mapColumn place)) :
    v.map Diagnostic.message = w.map Diagnostic.message := by
  have erased (l : List Diagnostic) (hl : ∀ d ∈ l, d.isError = false) :
      (l.map (Diagnostic.mapColumn place)).map Diagnostic.message = l.map Diagnostic.message := by
    rw [List.map_map]
    exact List.map_congr_left fun d hd => Diagnostic.message_mapColumn (hl d hd) place
  rw [← erased v hv, h, erased w hw]

/-- Tokens at other columns are the same statement at the other columns, or show the same fault at the other column. A
statement at other columns succeeds exactly if it did, with the same bytes and the same warnings at the other columns,
or fails with the same error at the other column. Two lines with tokens of the same kinds come to the same bytes and
messages, or to the same error, up to columns. -/
theorem Encoder.columns_reported :
    (∀ (place : Nat → Nat) (t : Token) (rest : List Token),
      Statement.ofTokens ((t :: rest).map (Token.map id place)) =
        ((Statement.ofTokens (t :: rest)).map (Statement.mapColumns place)).mapError (SyntaxError.map id place)) ∧
    (∀ (place : Nat → Nat) (line : Nat) (s : Statement), ∃ result warnings, ∀ reports,
      evaluate z80 line s reports = (result, reports ++ warnings) ∧
      evaluate z80 line (s.mapColumns place) reports =
        (result.mapError (EvalError.mapColumn place), reports ++ warnings.map (Diagnostic.mapColumn place))) ∧
    ∀ (a b : String) (ts us : List Token), Token.scan a = .ok ts → Token.scan b = .ok us →
      ts.map Token.kind = us.map Token.kind →
      (∃ bytes v w, encodeLine a = .ok ⟨bytes, v⟩ ∧ encodeLine b = .ok ⟨bytes, w⟩ ∧
        v.map (Diagnostic.mapColumn fun _ => 0) = w.map (Diagnostic.mapColumn fun _ => 0) ∧
        v.map Diagnostic.message = w.map Diagnostic.message) ∨
      ∃ e f, encodeLine a = .error e ∧ encodeLine b = .error f ∧
        e.map id (fun _ => 0) = f.map id fun _ => 0 := by
  refine ⟨fun place => Statement.ofTokens_map keepsUpper_id, fun place line s => ?_, fun a b ts us ha hb kinds => ?_⟩
  · cases h : s.encoding with
    | error e =>
      refine ⟨.error e, [], fun reports => ?_⟩
      simp only [evaluate_z80, Statement.encoding_mapColumns, h, List.map_nil, List.append_nil]
      exact ⟨rfl, rfl⟩
    | ok e =>
      refine ⟨.ok e.bytes, s.warnings line e, fun reports => ?_⟩
      simp only [evaluate_z80, Statement.encoding_mapColumns, h, ← Statement.warnings_mapColumns]
      exact ⟨rfl, rfl⟩
  · rcases exists_of_map_eq (encodeLine_of_kinds ha hb kinds) with ⟨v, w, hv, hw, same⟩ | failed
    · have bytes : v.bytes = w.bytes := (Encoded.mk.inj same).1
      have warnings := (Encoded.mk.inj same).2
      refine .inl ⟨v.bytes, v.warnings, w.warnings, hv, by rw [hw, bytes], warnings, ?_⟩
      exact messages_of_mapColumn (fun d => isError_of_mem_warnings hv) (fun d => isError_of_mem_warnings hw) warnings
    · exact .inr failed

/-- Two lines that differ in their blanks and by a comment. -/
theorem Encoder.columns_reported_spaced : ∃ bytes v w, encodeLine "LD (IX+200),300" = .ok ⟨bytes, v⟩ ∧
    encodeLine "\tLD ( IX + 200 ) , 300 ; fill" = .ok ⟨bytes, w⟩ ∧ v.map Diagnostic.column = [3, 12] ∧
    w.map Diagnostic.column = [4, 19] ∧ v.map Diagnostic.message = w.map Diagnostic.message := by
  have left : (encodeLine "LD (IX+200),300").map (·.warnings.map Diagnostic.column) = .ok [3, 12] := by decide +kernel
  have right : (encodeLine "\tLD ( IX + 200 ) , 300 ; fill").map (·.warnings.map Diagnostic.column) = .ok [4, 19] := by
    decide +kernel
  have kinds : (Token.scan "LD (IX+200),300").map (List.map Token.kind) =
      (Token.scan "\tLD ( IX + 200 ) , 300 ; fill").map (List.map Token.kind) := by decide +kernel
  have some : (Token.scan "LD (IX+200),300").toOption.isSome := by decide +kernel
  cases ha : Token.scan "LD (IX+200),300" with
  | error e => rw [ha] at some; cases some
  | ok ts =>
    cases hb : Token.scan "\tLD ( IX + 200 ) , 300 ; fill" with
    | error e => rw [ha, hb] at kinds; cases kinds
    | ok us =>
      rw [ha, hb] at kinds
      rcases columns_reported.2.2 _ _ ts us ha hb (Except.ok.inj kinds) with ⟨bytes, v, w, hv, hw, -, messages⟩ | ⟨e, f, he, -, -⟩
      · rw [hv] at left
        rw [hw] at right
        exact ⟨bytes, v, w, hv, hw, Except.ok.inj left, Except.ok.inj right, messages⟩
      · rw [he] at left
        cases left

end Z80Asm
