/-
Tokens that are no statement. What is wrong with them is shown by one token, which the grammar cannot go on with; tokens
are rejected exactly if there is one, with that fault and at its column (`Statement.ofTokens_eq_error_iff`).
-/
import Z80Asm.Proofs.Statement.Grammar

namespace Z80Asm

/-! ## Faults and their tokens -/

/-- Why a token is no base of an address. -/
inductive Node.NoBase : SyntaxFault → Token → Prop
  | name {name : String} (h : Word.base? name = none) (column : Nat) :
    NoBase (.illegalAddressBase name) ⟨.identifier name, column⟩
  | other {t : Token} (h : ∀ name, t.kind ≠ .identifier name) : NoBase .malformedAddress t

/-- What is wrong with the tokens between two parentheses, and the token that shows it, with those in front of it and
those behind it: the first of one or three is no base, the second of three is no sign, the third is no number, or there
are two or more than three. -/
inductive Node.InsideFails : SyntaxFault → List Token → Token → List Token → Prop
  | alone {f : SyntaxFault} {t : Token} (h : NoBase f t) (number : ∀ n, t.kind ≠ .number n) : InsideFails f [] t []
  | base {f : SyntaxFault} {t : Token} (h : NoBase f t) (s d : Token) : InsideFails f [] t [s, d]
  | sign {name : String} {w : Word} (h : Word.base? name = some w) (i : Nat) {t : Token}
    (ht : ∀ o : Operator, o.isSign = true → t.kind ≠ .operator o) (d : Token) :
    InsideFails .malformedAddress [⟨.identifier name, i⟩] t [d]
  | magnitude {name : String} {w : Word} {o : Operator} (h : Word.base? name = some w) (ho : o.isSign = true) (i j : Nat)
    {t : Token} (ht : ∀ n, t.kind ≠ .number n) :
    InsideFails .malformedAddress [⟨.identifier name, i⟩, ⟨.operator o, j⟩] t []
  | length (b t : Token) {behind : List Token} (h : behind.length ≠ 1) : InsideFails .malformedAddress [b] t behind

/-- What is wrong with tokens that begin with no operand, and the token that shows it. -/
inductive Node.Fails : SyntaxFault → List Token → Token → List Token → Prop
  | word {name : String} (h : Word.operand? name = none) (column : Nat) (behind : List Token) :
    Fails (.unknownOperand name) [] ⟨.identifier name, column⟩ behind
  | operator {o : Operator} (paren : o ≠ .leftParen) (sign : o.isSign = false) (column : Nat) (behind : List Token) :
    Fails (.unexpectedOperator o) [] ⟨.operator o, column⟩ behind
  | sign {o : Operator} (sign : o.isSign = true) (column : Nat) {behind : List Token}
    (h : ∀ n, behind.head?.map Token.kind ≠ some (.number n)) : Fails (.unexpectedOperator o) [] ⟨.operator o, column⟩ behind
  | unclosed (column : Nat) {behind : List Token} (h : ∀ t ∈ behind, closes t = false) :
    Fails .unclosedParen [] ⟨.operator .leftParen, column⟩ behind
  | empty (i j : Nat) (behind : List Token) :
    Fails .emptyAddress [] ⟨.operator .leftParen, i⟩ (⟨.operator .rightParen, j⟩ :: behind)
  | inside {f : SyntaxFault} {front inner : List Token} {t : Token} (h : InsideFails f front t inner)
    (hc : ∀ u ∈ front ++ t :: inner, closes u = false) (i j : Nat) (behind : List Token) :
    Fails f (⟨.operator .leftParen, i⟩ :: front) t (inner ++ ⟨.operator .rightParen, j⟩ :: behind)

/-- What is wrong with the tokens of operands, and the token that shows it. -/
inductive Node.FailsAll : SyntaxFault → List Token → Token → List Token → Prop
  | operand {f : SyntaxFault} {front behind : List Token} {t : Token} (h : Fails f front t behind) : FailsAll f front t behind
  | separator {tokens : List Token} {node : Node} (h : Reads tokens node) {t : Token} (ht : t.kind ≠ .operator .comma)
    (behind : List Token) : FailsAll .expectedComma tokens t behind
  | dangling {tokens : List Token} {node : Node} (h : Reads tokens node) (column : Nat) :
    FailsAll .danglingComma tokens ⟨.operator .comma, column⟩ []
  | more {tokens : List Token} {node : Node} (h : Reads tokens node) (column : Nat) {f : SyntaxFault}
    {front behind : List Token} {t : Token} (hr : FailsAll f front t behind) :
    FailsAll f (tokens ++ ⟨.operator .comma, column⟩ :: front) t behind

/-- What is wrong with the tokens of a statement, and the token that shows it. -/
inductive Statement.Fails : SyntaxFault → List Token → Token → List Token → Prop
  | mnemonic {t : Token} (h : mnemonic? t = none) (behind : List Token) : Fails .expectedMnemonic [] t behind
  | operands {first : Token} {m : Mnemonic} (h : mnemonic? first = some m) {f : SyntaxFault} {front behind : List Token}
    {t : Token} (ho : Node.FailsAll f front t behind) : Fails f (first :: front) t behind

/-! ## What a token shows -/

/-- What the token that shows a fault is. -/
def SyntaxFault.IsShownBy (f : SyntaxFault) (t : Token) : Prop :=
  match f with
  | .empty => False
  | .expectedMnemonic => Statement.mnemonic? t = none
  | .unknownOperand name | .illegalAddressBase name => t.kind = .identifier name
  | .unexpectedOperator o => t.kind = .operator o
  | .unclosedParen | .emptyAddress => t.kind = .operator .leftParen
  | .expectedComma => t.kind ≠ .operator .comma
  | .danglingComma => t.kind = .operator .comma
  | .malformedAddress => True

section

variable {f : SyntaxFault} {front behind : List Token} {t : Token}

theorem Node.NoBase.isShownBy (h : NoBase f t) : f.IsShownBy t := by
  cases h with
  | name => rfl
  | other => trivial

theorem Node.InsideFails.isShownBy (h : InsideFails f front t behind) : f.IsShownBy t := by
  cases h with
  | alone h | base h => exact h.isShownBy
  | _ => trivial

theorem Node.Fails.isShownBy (h : Fails f front t behind) : f.IsShownBy t := by
  cases h with
  | inside h => exact h.isShownBy
  | _ => rfl

theorem Node.FailsAll.isShownBy (h : FailsAll f front t behind) : f.IsShownBy t := by
  induction h with
  | operand h => exact h.isShownBy
  | separator h ht => exact ht
  | dangling => rfl
  | more h column hr ih => exact ih

theorem Statement.Fails.isShownBy (h : Fails f front t behind) : f.IsShownBy t := by
  cases h with
  | mnemonic h => exact h
  | operands h ho => exact ho.isShownBy

end

/-! ## Errors -/

theorem eq_error_of_map {ε α β : Type} {x : Except ε α} {f : α → β} {e : ε} (h : x.map f = .error e) : x = .error e := by
  cases x <;> cases h
  rfl

theorem eq_error_of_bind {ε α β : Type} {x : Except ε α} {f : α → Except ε β} {e : ε} (h : x >>= f = .error e) :
    x = .error e ∨ ∃ a, x = .ok a ∧ f a = .error e := by
  cases x with
  | error d =>
    cases h
    exact .inl rfl
  | ok a => exact .inr ⟨a, rfl, h⟩

theorem Operator.signed?_eq_none {o : Operator} (h : o.isSign = false) (n : Int32) : o.signed? n = none := by
  cases o <;> first | rfl | cases h

namespace Node

/-! ## Addresses -/

theorem base_eq_error_iff {t : Token} {f : SyntaxFault} {column : Nat} :
    base t = .error ⟨f, column⟩ ↔ NoBase f t ∧ t.column = column := by
  obtain ⟨kind, i⟩ := t
  constructor
  · intro h
    unfold base at h
    split at h
    · rename_i name hk
      cases hk
      split at h <;> cases h
      rename_i none
      exact ⟨.name none i, rfl⟩
    · rename_i other
      cases h
      exact ⟨.other other, rfl⟩
  · rintro ⟨h, rfl⟩
    cases h with
    | name none => simp only [base, none]
    | other other =>
      cases kind with
      | identifier name => exact absurd rfl (other name)
      | _ => rfl

theorem sign_eq_error_iff {t : Token} {f : SyntaxFault} {column : Nat} : sign t = .error ⟨f, column⟩ ↔
    (∀ o : Operator, o.isSign = true → t.kind ≠ .operator o) ∧ f = .malformedAddress ∧ t.column = column := by
  obtain ⟨kind, i⟩ := t
  cases kind with
  | operator o =>
    cases ho : o.isSign with
    | true => exact iff_of_false (by simp [sign, ho]) fun h => h.1 o ho rfl
    | false =>
      have none : ∀ o' : Operator, o'.isSign = true → o ≠ o' := by
        rintro o' ho' rfl
        exact Bool.false_ne_true (ho.symm.trans ho')
      simp +contextual [sign, ho, eq_comm (a := f), none]
  | _ => simp [sign, eq_comm (a := f)]

theorem magnitude_eq_error_iff {t : Token} {f : SyntaxFault} {column : Nat} : magnitude t = .error ⟨f, column⟩ ↔
    (∀ n, t.kind ≠ .number n) ∧ f = .malformedAddress ∧ t.column = column := by
  obtain ⟨kind, i⟩ := t
  cases kind <;> simp [magnitude, eq_comm (a := f)]

theorem addressChildren_of_insideFails {f : SyntaxFault} {front behind : List Token} {t : Token}
    (h : InsideFails f front t behind) (opening : Nat) :
    addressChildren opening (front ++ t :: behind) = .error ⟨f, t.column⟩ := by
  cases h with
  | alone h number =>
    have none := base_eq_error_iff.2 ⟨h, rfl⟩
    simp only [List.nil_append, addressChildren, none]
    rfl
  | base h s d =>
    have none := base_eq_error_iff.2 ⟨h, rfl⟩
    simp only [List.nil_append, addressChildren, none]
    rfl
  | sign h i ht d =>
    have none := sign_eq_error_iff.2 ⟨ht, rfl, rfl⟩
    simp only [List.cons_append, List.nil_append, addressChildren, base, h, none]
    rfl
  | magnitude h ho i j ht =>
    have none := magnitude_eq_error_iff.2 ⟨ht, rfl, rfl⟩
    simp only [List.cons_append, List.nil_append, addressChildren, base, h, sign, ho, none]
    rfl
  | length b t h =>
    rcases behind with _ | ⟨_, _ | _⟩
    · rfl
    · exact absurd rfl h
    · rfl

theorem insideFails_of_addressChildren {opening : Nat} {first : Token} {more : List Token} {f : SyntaxFault} {column : Nat}
    (h : addressChildren opening (first :: more) = .error ⟨f, column⟩) :
    ∃ front t behind, first :: more = front ++ t :: behind ∧ InsideFails f front t behind ∧ t.column = column := by
  match more with
  | [] =>
    rw [addressChildren] at h
    split at h
    · cases h
    · rename_i number
      have none := eq_error_of_map h
      obtain ⟨none, place⟩ := base_eq_error_iff.1 none
      exact ⟨[], first, [], rfl, .alone none number, place⟩
  | [t] =>
    cases h
    exact ⟨[first], t, [], rfl, .length first t (by decide), rfl⟩
  | [s, d] =>
    rcases eq_error_of_bind h with fault | ⟨b, based, behind⟩
    · obtain ⟨none, place⟩ := base_eq_error_iff.1 fault
      exact ⟨[], first, [s, d], rfl, .base none s d, place⟩
    obtain ⟨name, w, hk, hw, -⟩ := exists_of_base based
    obtain ⟨_, i⟩ := first
    cases hk
    rcases eq_error_of_bind behind with fault | ⟨o, signed, last⟩
    · obtain ⟨none, he, place⟩ := sign_eq_error_iff.1 fault
      exact ⟨[_], s, [d], rfl, he ▸ .sign hw i none d, place⟩
    obtain ⟨o, hk, ho, -⟩ := exists_of_sign signed
    obtain ⟨_, j⟩ := s
    cases hk
    rcases eq_error_of_bind last with fault | ⟨n, -, done⟩
    · obtain ⟨none, he, place⟩ := magnitude_eq_error_iff.1 fault
      exact ⟨[_, _], d, [], rfl, he ▸ .magnitude hw ho i j none, place⟩
    · cases done
  | t :: s :: d :: more =>
    cases h
    exact ⟨[first], t, s :: d :: more, rfl, .length first t (by simp), rfl⟩

/-! ## Operands -/

theorem takeWhile_eq_self_of_closes {tokens : List Token} (h : ∀ t ∈ tokens, closes t = false) :
    (tokens.takeWhile fun t => !closes t) = tokens :=
  List.takeWhile_eq_self_iff.2 fun t ht => by rw [h t ht]; rfl

/-- A symbol other than an opening parenthesis is an operand only as the sign of a number. -/
theorem lead_operator {o : Operator} (paren : o ≠ .leftParen) (i : Nat) (rest : List Token) :
    lead ⟨.operator o, i⟩ rest = match rest.head?.map Token.kind with
      | some (.number n) =>
        match o.signed? n with
        | some value => .ok (.leaf (.immediate value) i, 1)
        | none => .error ⟨.unexpectedOperator o, i⟩
      | _ => .error ⟨.unexpectedOperator o, i⟩ := by
  cases o with
  | leftParen => exact absurd rfl paren
  | _ =>
    rcases rest with _ | ⟨⟨kind, next⟩, more⟩
    · rfl
    · cases kind <;> rfl

theorem lead_of_fails {f : SyntaxFault} {front behind : List Token} {t first : Token} {rest : List Token}
    (h : Fails f front t behind) (cut : front ++ t :: behind = first :: rest) : lead first rest = .error ⟨f, t.column⟩ := by
  cases h with
  | word h column =>
    obtain ⟨rfl, rfl⟩ := List.cons.inj cut
    simp only [lead, h]
  | @operator o paren sign column =>
    obtain ⟨rfl, rfl⟩ := List.cons.inj cut
    rw [lead_operator paren]
    split
    · rename_i n hn
      simp only [Operator.signed?_eq_none sign]
    · rfl
  | @sign o sign column _ h =>
    obtain ⟨rfl, rfl⟩ := List.cons.inj cut
    rw [lead_operator (by rintro rfl; cases sign)]
    split
    · rename_i n hn
      exact absurd hn (h n)
    · rfl
  | unclosed column h =>
    obtain ⟨rfl, rfl⟩ := List.cons.inj cut
    simp only [lead, takeWhile_eq_self_of_closes h, Nat.lt_irrefl, if_false]
  | empty i j behind =>
    obtain ⟨rfl, rfl⟩ := List.cons.inj cut
    rfl
  | @inside _ front inner _ h hc i j behind =>
    obtain ⟨rfl, rfl⟩ := List.cons.inj cut
    have reach : ((front ++ t :: inner) ++ ⟨.operator .rightParen, j⟩ :: behind).takeWhile (fun t => !closes t) =
        front ++ t :: inner := by
      rw [List.takeWhile_append_of_pos fun u hu => by rw [hc u hu]; rfl]
      exact List.append_nil _
    have lt : (front ++ t :: inner).length < ((front ++ t :: inner) ++ ⟨.operator .rightParen, j⟩ :: behind).length := by
      simp
    rw [List.append_assoc, List.cons_append] at reach lt
    simp only [lead, List.append_eq, reach, if_pos lt, addressChildren_of_insideFails h]
    rfl

theorem fails_of_lead {first : Token} {rest : List Token} {f : SyntaxFault} {column : Nat}
    (h : lead first rest = .error ⟨f, column⟩) :
    ∃ front t behind, first :: rest = front ++ t :: behind ∧ Fails f front t behind ∧ t.column = column := by
  obtain ⟨kind, i⟩ := first
  cases kind with
  | identifier name =>
    simp only [lead] at h
    split at h <;> cases h
    rename_i none
    exact ⟨[], _, rest, rfl, .word none _ rest, rfl⟩
  | number n => cases h
  | operator o =>
    by_cases paren : o = .leftParen
    · subst paren
      simp only [lead] at h
      split at h
      · rename_i lt
        obtain ⟨j, behind, cut⟩ := exists_of_closes lt
        have fault := eq_error_of_map h
        have inside : ∀ u ∈ rest.takeWhile fun t => !closes t, closes u = false := fun u hu => by
          simpa using List.mem_takeWhile_imp hu
        rw [cut]
        cases hi : rest.takeWhile fun t => !closes t with
        | nil =>
          rw [hi] at fault
          cases fault
          exact ⟨[], _, _, rfl, .empty _ j behind, rfl⟩
        | cons u more =>
          rw [hi] at fault inside
          obtain ⟨front, t, inner, same, fails, place⟩ := insideFails_of_addressChildren fault
          rw [same] at inside
          refine ⟨⟨.operator .leftParen, i⟩ :: front, t, _, ?_, .inside fails inside i j behind, place⟩
          rw [same, List.append_assoc, List.cons_append, List.cons_append]
      · rename_i all
        cases h
        refine ⟨[], _, rest, rfl, .unclosed _ fun t ht => ?_, rfl⟩
        have whole := (List.takeWhile_prefix fun t => !closes t).eq_of_length_le (Nat.le_of_not_lt all)
        rw [← whole] at ht
        simpa using List.mem_takeWhile_imp ht
    · rw [lead_operator paren] at h
      by_cases sign : o.isSign = true
      · split at h
        · rename_i n hn
          have some : (o.signed? n).isSome = true := by rw [o.isSome_signed?, sign]
          split at h
          · cases h
          · rename_i none
            rw [none] at some
            cases some
        · rename_i number
          cases h
          exact ⟨[], _, rest, rfl, .sign sign _ number, rfl⟩
      · have fault : (⟨.unexpectedOperator o, i⟩ : SyntaxError) = ⟨f, column⟩ := by
          split at h
          · rename_i n hn
            rw [Operator.signed?_eq_none (Bool.eq_false_iff.2 sign)] at h
            exact Except.error.inj h
          · exact Except.error.inj h
        cases fault
        exact ⟨[], _, rest, rfl, .operator paren (Bool.eq_false_iff.2 sign) _ rest, rfl⟩

/-! ## Lists of operands -/

theorem Fails.exists_cons {f : SyntaxFault} {front behind : List Token} {t : Token} (h : Fails f front t behind) :
    ∃ first rest, front ++ t :: behind = first :: rest := by
  cases h <;> exact ⟨_, _, rfl⟩

/-- Behind an operand and a comma, reading goes on with the next operands. -/
theorem operands_of_reads_append {tokens : List Token} {node : Node} (h : Reads tokens node) (column : Nat)
    {more : List Token} (ne : more ≠ []) :
    operands (tokens ++ ⟨.operator .comma, column⟩ :: more) = (operands more).map (node :: ·) := by
  obtain ⟨first, rest, rfl⟩ := h.exists_cons
  have next : Statement.follows (⟨.operator .comma, column⟩ :: more) = .ok true := by
    rw [Statement.follows, if_neg (mt List.isEmpty_iff.1 ne)]
  rw [List.cons_append, Statement.operands_cons, lead_of_reads h]
  simp only [List.drop_left, next, ← List.drop_drop, List.drop_one, List.tail_cons]

theorem operands_of_failsAll {f : SyntaxFault} {front behind : List Token} {t : Token} (h : FailsAll f front t behind) :
    operands (front ++ t :: behind) = .error ⟨f, t.column⟩ := by
  induction h with
  | operand h =>
    obtain ⟨first, rest, cut⟩ := h.exists_cons
    rw [cut, Statement.operands_cons, lead_of_fails h cut]
  | @separator tokens node h t ht behind =>
    obtain ⟨first, more, rfl⟩ := h.exists_cons
    have next : Statement.follows (t :: behind) = .error ⟨.expectedComma, t.column⟩ := by
      rw [Statement.follows]
      rintro column rfl
      exact ht rfl
    rw [List.cons_append, Statement.operands_cons, lead_of_reads h]
    simp only [List.drop_left, next]
  | dangling h column =>
    obtain ⟨first, more, rfl⟩ := h.exists_cons
    rw [List.cons_append, Statement.operands_cons, lead_of_reads h]
    simp only [List.drop_left]
    rfl
  | @more tokens node h column f front behind t hr ih =>
    rw [List.append_assoc, List.cons_append, operands_of_reads_append h column (by simp), ih]
    rfl

theorem failsAll_of_operands {tokens : List Token} {f : SyntaxFault} {column : Nat}
    (h : operands tokens = .error ⟨f, column⟩) :
    ∃ front t behind, tokens = front ++ t :: behind ∧ FailsAll f front t behind ∧ t.column = column := by
  fun_induction operands tokens with
  | case1 => cases h
  | case2 t rest e hl =>
    cases h
    obtain ⟨front, u, behind, cut, fails, place⟩ := fails_of_lead hl
    exact ⟨front, u, behind, cut, .operand fails, place⟩
  | case3 => cases h
  | case4 t rest node extra hl column more hd hne =>
    cases h
    obtain ⟨tokens, behind, rfl, rfl, first⟩ := reads_of_lead hl
    rw [List.drop_left] at hd
    obtain rfl := List.isEmpty_iff.1 hne
    exact ⟨t :: tokens, _, [], by rw [hd]; rfl, .dangling first _, rfl⟩
  | case5 t rest node extra hl column more hd hne e hm ih =>
    cases h
    obtain ⟨tokens, behind, rfl, rfl, first⟩ := reads_of_lead hl
    rw [List.drop_left] at hd
    obtain ⟨front, u, behind, rfl, fails, place⟩ := ih hm
    exact ⟨(t :: tokens) ++ ⟨.operator .comma, column⟩ :: front, u, behind, by rw [hd]; simp, .more first column fails, place⟩
  | case6 => cases h
  | case7 t rest node extra hl separator more comma hd =>
    cases h
    obtain ⟨tokens, behind, rfl, rfl, first⟩ := reads_of_lead hl
    rw [List.drop_left] at hd
    refine ⟨t :: tokens, separator, more, by rw [hd]; rfl, .separator first (fun hk => ?_) more, rfl⟩
    obtain ⟨kind, column⟩ := separator
    exact comma column (congrArg (Token.mk · column) hk)

end Node

/-! ## Statements -/

namespace Statement

theorem ofTokens_of_fails {f : SyntaxFault} {front behind : List Token} {t : Token} (h : Fails f front t behind) :
    ofTokens (front ++ t :: behind) = .error ⟨f, t.column⟩ := by
  cases h with
  | mnemonic h behind => simp only [List.nil_append, ofTokens, h]
  | operands h ho => simp only [List.cons_append, ofTokens, h, Node.operands_of_failsAll ho, Except.map]

/-- Tokens are rejected exactly if there are none, or if one of them shows what is wrong, and the error has its column. -/
theorem ofTokens_eq_error_iff {tokens : List Token} {f : SyntaxFault} {column : Nat} :
    ofTokens tokens = .error ⟨f, column⟩ ↔ tokens = [] ∧ f = .empty ∧ column = 0 ∨
      ∃ front t behind, tokens = front ++ t :: behind ∧ Fails f front t behind ∧ t.column = column := by
  constructor
  · intro h
    cases tokens with
    | nil =>
      cases h
      exact .inl ⟨rfl, rfl, rfl⟩
    | cons t rest =>
      right
      rw [ofTokens] at h
      split at h
      · rename_i none
        cases h
        exact ⟨[], t, rest, rfl, .mnemonic none rest, rfl⟩
      · rename_i m hm
        obtain ⟨front, u, behind, rfl, fails, place⟩ := Node.failsAll_of_operands (eq_error_of_map h)
        exact ⟨t :: front, u, behind, rfl, .operands hm fails, place⟩
  · rintro (⟨rfl, rfl, rfl⟩ | ⟨front, t, behind, rfl, h, rfl⟩)
    · rfl
    · exact ofTokens_of_fails h

end Statement

end Z80Asm
