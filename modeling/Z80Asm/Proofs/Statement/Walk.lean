/-
Reading tokens by index. The tokens are looked up by their places in the list, and the tokens of an address are cut
out of it. No place is behind the end of the list, and the statement is that of the tokens (`Statement.walk?_eq`).
-/
import Z80Asm.Statement.OfTokens
import Mathlib.Data.List.TakeWhile

namespace Z80Asm.Statement

/-! ## The walk -/

/-- The tokens between two places. There are none if the places are not in order, or behind the end. -/
def slice? (tokens : List Token) (start stop : Nat) : Option (List Token) :=
  if start ≤ stop ∧ stop ≤ tokens.length then some ((tokens.take stop).drop start) else none

/-- The operand at a place, and the place behind it; nothing, if a token is looked for behind the end. -/
def operandAt? (tokens : List Token) (i : Nat) : Option (Except SyntaxError (Node × Nat)) :=
  match tokens[i]? with
  | none => none
  | some t =>
    match t.kind with
    | .identifier name =>
      match Word.operand? name with
      | some w => some (.ok (.leaf (.word w) t.column, i + 1))
      | none => some (.error ⟨.unknownOperand name, t.column⟩)
    | .number n => some (.ok (.leaf (.immediate n) t.column, i + 1))
    | .operator .leftParen =>
      (slice? tokens (i + 1) tokens.length).bind fun rest =>
        match rest.findIdx? Node.closes with
        | none => some (.error ⟨.unclosedParen, t.column⟩)
        | some p =>
          (slice? tokens (i + 1) (i + 1 + p)).map fun inner =>
            (Node.addressChildren t.column inner).map fun children => (.address children t.column, i + 1 + p + 1)
    | .operator o =>
      if o.isSign then
        match (tokens[i + 1]?).map Token.kind with
        | some (.number n) => some (.ok (.leaf (.immediate (if o = .minus then -n else n)) t.column, i + 2))
        | _ => some (.error ⟨.unexpectedOperator o, t.column⟩)
      else some (.error ⟨.unexpectedOperator o, t.column⟩)

/-- An operand takes at least one token. -/
theorem lt_of_operandAt? {tokens : List Token} {i next : Nat} {node : Node}
    (h : operandAt? tokens i = some (.ok (node, next))) : i < next := by
  unfold operandAt? at h
  split at h
  · cases h
  · rename_i t _
    split at h
    · split at h <;> cases h
      exact Nat.lt_succ_self i
    · cases h
      exact Nat.lt_succ_self i
    · obtain ⟨rest, -, h⟩ := Option.bind_eq_some_iff.1 h
      split at h
      · cases h
      · obtain ⟨inner, -, h⟩ := Option.map_eq_some_iff.1 h
        cases hc : Node.addressChildren t.column inner <;> rw [hc] at h <;> cases h
        omega
    · split at h
      · split at h <;> cases h
        omega
      · cases h

/-- Whether an operand follows behind a place, where there is a comma then. -/
def followsAt? (tokens : List Token) (i : Nat) : Option (Except SyntaxError Bool) :=
  if i < tokens.length then
    match tokens[i]? with
    | none => none
    | some separator =>
      if separator.kind ≠ .operator .comma then some (.error ⟨.expectedComma, separator.column⟩)
      else if tokens.length ≤ i + 1 then some (.error ⟨.danglingComma, separator.column⟩)
      else some (.ok true)
  else some (.ok false)

/-- The operands from a place on. -/
def operandsFrom? (tokens : List Token) (i : Nat) : Option (Except SyntaxError (List Node)) :=
  if i < tokens.length then
    match _h : operandAt? tokens i with
    | none => none
    | some (.error e) => some (.error e)
    | some (.ok (node, next)) =>
      match followsAt? tokens next with
      | none => none
      | some (.error e) => some (.error e)
      | some (.ok false) => some (.ok [node])
      | some (.ok true) => (operandsFrom? tokens (next + 1)).map fun r => r.map (node :: ·)
  else some (.ok [])
termination_by tokens.length - i
decreasing_by
  have := lt_of_operandAt? _h
  omega

theorem operandsFrom?_of_lt {tokens : List Token} {i : Nat} (hi : i < tokens.length) :
    operandsFrom? tokens i = (operandAt? tokens i).bind fun
      | .error e => some (.error e)
      | .ok (node, next) => (followsAt? tokens next).bind fun
        | .error e => some (.error e)
        | .ok false => some (.ok [node])
        | .ok true => (operandsFrom? tokens (next + 1)).map fun r => r.map (node :: ·) := by
  rw [operandsFrom?, if_pos hi]
  split
  · rename_i h
    rw [h]
    rfl
  · rename_i h
    rw [h]
    rfl
  · rename_i node next h
    rw [h, Option.bind_some]
    dsimp only
    rcases followsAt? tokens next with _ | _ | _ | _ <;> rfl

/-- The statement of tokens. -/
def walk? (tokens : List Token) : Option (Except SyntaxError Statement) :=
  match tokens[0]? with
  | none => some (.error ⟨.empty, 0⟩)
  | some t =>
    match mnemonic? t with
    | none => some (.error ⟨.expectedMnemonic, t.column⟩)
    | some m => (operandsFrom? tokens 1).map fun r => r.map fun nodes => ⟨m, t.column, nodes⟩

/-! ## Operands -/

theorem takeWhile_not_closes (rest : List Token) :
    (rest.takeWhile fun t => !Node.closes t) = rest.take (rest.findIdx Node.closes) := by
  rw [List.takeWhile_eq_take_findIdx_not]
  simp only [Bool.not_not]

theorem slice?_append (before : List Token) (t : Token) (rest : List Token) {p : Nat} (h : p ≤ rest.length) :
    slice? (before ++ t :: rest) (before.length + 1) (before.length + 1 + p) = some (rest.take p) := by
  have hl : (before ++ t :: rest).length = before.length + 1 + rest.length := by
    rw [List.length_append, List.length_cons]; omega
  rw [slice?, if_pos ⟨Nat.le_add_right .., by omega⟩]
  have cut : before ++ t :: rest = (before ++ [t]) ++ rest := by rw [List.append_assoc, List.singleton_append]
  have before' : before.length + 1 = (before ++ [t]).length := by rw [List.length_append, List.length_singleton]
  rw [cut, before', List.take_length_add_append, List.drop_left]

/-- The operand at a place is the operand of the tokens there. -/
theorem operandAt?_append (before : List Token) (t : Token) (rest : List Token) :
    operandAt? (before ++ t :: rest) before.length =
      some ((Node.lead t rest).map fun p => (p.1, before.length + 1 + p.2)) := by
  have here : (before ++ t :: rest)[before.length]? = some t := by
    rw [List.getElem?_append_right (Nat.le_refl _), Nat.sub_self, List.getElem?_cons_zero]
  have next : (before ++ t :: rest)[before.length + 1]? = rest[0]? := by
    rw [List.getElem?_append_right (Nat.le_succ _), Nat.succ_sub (Nat.le_refl _), Nat.sub_self,
      List.getElem?_cons_succ]
  unfold operandAt?
  rw [here, next]
  obtain ⟨kind, column⟩ := t
  cases kind with
  | identifier name =>
    simp only [Node.lead]
    cases Word.operand? name <;> rfl
  | number n => rfl
  | operator o =>
    cases o with
    | leftParen =>
      have all := slice?_append before ⟨.operator .leftParen, column⟩ rest (Nat.le_refl _)
      have hl : before.length + 1 + rest.length = (before ++ (⟨.operator .leftParen, column⟩ : Token) :: rest).length := by
        rw [List.length_append, List.length_cons]; omega
      rw [List.take_length, hl] at all
      simp only [Node.lead, all, Option.bind_some, takeWhile_not_closes, List.length_take]
      cases hp : rest.findIdx? Node.closes with
      | none =>
        have := List.findIdx?_eq_none_iff_findIdx_eq.1 hp
        rw [if_neg (by omega)]
        rfl
      | some p =>
        obtain ⟨lt, eq⟩ := List.findIdx?_eq_some_iff_findIdx_eq.1 hp
        have close := slice?_append before ⟨.operator .leftParen, column⟩ rest (Nat.le_of_lt lt)
        rw [eq, Nat.min_eq_left (Nat.le_of_lt lt), if_pos lt]
        simp only [close, Option.map_some]
        cases Node.addressChildren column (rest.take p) <;> rfl
    | _ =>
      rcases rest with _ | ⟨⟨kind, column⟩, more⟩
      · rfl
      · cases kind <;> rfl

/-- Whether an operand follows on tokens. -/
def follows : List Token → Except SyntaxError Bool
  | [] => .ok false
  | ⟨.operator .comma, column⟩ :: more => if more.isEmpty then .error ⟨.danglingComma, column⟩ else .ok true
  | separator :: _ => .error ⟨.expectedComma, separator.column⟩

theorem followsAt?_append (before : List Token) (t : Token) (rest : List Token) (extra : Nat) :
    followsAt? (before ++ t :: rest) (before.length + 1 + extra) = some (follows (rest.drop extra)) := by
  have at' : (before ++ t :: rest)[before.length + 1 + extra]? = (rest.drop extra).head? := by
    rw [List.getElem?_append_right (by omega), show before.length + 1 + extra - before.length = extra + 1 by omega,
      List.getElem?_cons_succ, List.head?_drop]
  have hl : (before ++ t :: rest).length = before.length + 1 + rest.length := by
    rw [List.length_append, List.length_cons]; omega
  have hd : (rest.drop extra).length = rest.length - extra := List.length_drop
  rw [followsAt?, at', hl]
  rcases hs : rest.drop extra with _ | ⟨⟨kind, column⟩, more⟩
  · rw [hs, List.length_nil] at hd
    rw [if_neg (by omega)]
    rfl
  · rw [hs, List.length_cons] at hd
    rw [if_pos (by omega), List.head?_cons]
    simp only
    by_cases hk : kind = .operator .comma
    · subst hk
      rw [if_neg (not_not_intro rfl), follows]
      cases more with
      | nil => rw [if_pos (by rw [List.length_nil] at hd; omega)]; rfl
      | cons next more => rw [if_neg (by rw [List.length_cons] at hd; omega)]; rfl
    · rw [if_pos hk, follows]
      rintro c ⟨⟩
      exact hk rfl

theorem operands_cons (t : Token) (rest : List Token) :
    Node.operands (t :: rest) = match Node.lead t rest with
      | .error e => .error e
      | .ok (node, extra) =>
        match follows (rest.drop extra) with
        | .error e => .error e
        | .ok false => .ok [node]
        | .ok true => (Node.operands (rest.drop (extra + 1))).map (node :: ·) := by
  rw [Node.operands]
  cases Node.lead t rest with
  | error e => rfl
  | ok p =>
    obtain ⟨node, extra⟩ := p
    simp only [← List.tail_drop]
    split
    · rename_i hd
      rw [hd]
      rfl
    · rename_i column more hd
      rw [hd, List.tail_cons]
      cases more with
      | nil => rfl
      | cons next more =>
        rw [if_neg (by simp), follows, if_neg (by simp)]
        cases Node.operands (next :: more) <;> rfl
    · rename_i separator more hk hd
      rw [hd, follows]
      exact hk

/-- From a place on, the walk reads the tokens there. The induction is on those tokens. -/
theorem operandsFrom?_append (before : List Token) : ∀ tokens : List Token,
    operandsFrom? (before ++ tokens) before.length = some (Node.operands tokens)
  | [] => by
    rw [operandsFrom?, if_neg (by simp), Node.operands]
  | t :: rest => by
    rw [operandsFrom?_of_lt (by simp), operands_cons, operandAt?_append, Option.bind_some]
    cases Node.lead t rest with
    | error e => rfl
    | ok p =>
      obtain ⟨node, extra⟩ := p
      simp only [Except.map, followsAt?_append, Option.bind_some]
      cases hf : follows (rest.drop extra) with
      | error e => rfl
      | ok more =>
        cases more with
        | false => rfl
        | true =>
          have lt : extra < rest.length := by
            by_contra h
            rw [List.drop_eq_nil_of_le (Nat.le_of_not_lt h)] at hf
            cases hf
          have ih := operandsFrom?_append (before ++ t :: rest.take (extra + 1)) (rest.drop (extra + 1))
          rw [List.append_assoc, List.cons_append, List.take_append_drop, List.length_append, List.length_cons,
            List.length_take, Nat.min_eq_left lt] at ih
          have next : before.length + 1 + extra + 1 = before.length + (extra + 1 + 1) := by omega
          simp only [next, ih, Option.map_some]
termination_by tokens => tokens.length
decreasing_by simp only [List.length_drop, List.length_cons]; omega

/-- No place behind the end is looked up, and the statement is the same. -/
theorem walk?_eq (tokens : List Token) : walk? tokens = some (ofTokens tokens) := by
  cases tokens with
  | nil => rfl
  | cons t rest =>
    have operands := operandsFrom?_append [t] rest
    rw [List.singleton_append, List.length_singleton] at operands
    rw [walk?, List.getElem?_cons_zero, ofTokens, operands]
    simp only
    cases mnemonic? t <;> rfl

end Z80Asm.Statement
