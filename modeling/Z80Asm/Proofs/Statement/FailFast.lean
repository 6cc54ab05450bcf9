/-
Tokens with more tokens behind them. What is wrong with tokens stays wrong, unless what is missing can still come: the
first token, a closing parenthesis, an operand behind a comma, or a number behind a sign. A statement with a comma and
more tokens behind it is an error, or the statement with more operands (`Statement.ofTokens_append`).
-/
import Z80Asm.Proofs.Statement.Failure
import Mathlib.Data.List.Basic

namespace Z80Asm

/-! ## Settled faults -/

/-- Whether a fault stays, whatever comes behind the tokens. Those behind the token that shows it matter only to a sign,
which is followed by no number if it is followed by anything. -/
def SyntaxFault.IsSettled (f : SyntaxFault) (behind : List Token) : Prop :=
  match f with
  | .expectedMnemonic | .unknownOperand _ | .expectedComma | .emptyAddress | .illegalAddressBase _ | .malformedAddress => True
  | .unexpectedOperator o => behind ≠ [] ∨ o.isSign = false
  | .empty | .unclosedParen | .danglingComma => False

namespace Node

variable {f : SyntaxFault} {front behind : List Token} {t : Token}

theorem InsideFails.isSettled (h : InsideFails f front t behind) (all : List Token) : f.IsSettled all := by
  cases h with
  | alone h | base h => cases h <;> trivial
  | _ => trivial

theorem Fails.append (h : Fails f front t behind) (settled : f.IsSettled behind) (more : List Token) :
    Fails f front t (behind ++ more) := by
  cases h with
  | word h column => exact .word h column _
  | operator paren sign column => exact .operator paren sign column _
  | sign sign column h =>
    rcases settled with ne | other
    · refine .sign sign column fun n => ?_
      rw [List.head?_append_of_ne_nil _ ne]
      exact h n
    · exact absurd (sign.symm.trans other) (by decide)
  | unclosed => exact settled.elim
  | empty i j behind => exact .empty i j _
  | inside h hc i j behind =>
    rw [List.append_assoc, List.cons_append]
    exact .inside h hc i j _

/-- The induction is on the operands in front of the one that fails. -/
theorem FailsAll.append (h : FailsAll f front t behind) (settled : f.IsSettled behind) (more : List Token) :
    FailsAll f front t (behind ++ more) := by
  induction h with
  | operand h => exact .operand (h.append settled more)
  | separator h ht behind => exact .separator h ht _
  | dangling => exact settled.elim
  | more h column hr ih => exact .more h column (ih settled)

/-! ## What can still come -/

/-- No parenthesis closes behind one that is unclosed. -/
theorem Fails.closes_eq_false (h : Fails .unclosedParen front t behind) : ∀ u ∈ behind, closes u = false := by
  cases h with
  | unclosed column h => exact h
  | inside h => exact (h.isSettled []).elim

theorem FailsAll.closes_eq_false (h : FailsAll .unclosedParen front t behind) : ∀ u ∈ behind, closes u = false := by
  generalize hf : SyntaxFault.unclosedParen = f at h
  induction h with
  | operand h =>
    subst hf
    exact h.closes_eq_false
  | more h column hr ih => exact ih hf
  | _ => cases hf

/-- A comma that nothing is behind can be followed by an operand, and a sign that nothing is behind by a number. -/
theorem FailsAll.exists_readsAll (h : FailsAll f front t behind) (unsettled : ¬f.IsSettled behind)
    (paren : f ≠ .unclosedParen) (n : Int32) (j : Nat) : behind = [] ∧ ∃ nodes, ReadsAll (front ++ [t, ⟨.number n, j⟩]) nodes := by
  induction h with
  | @operand f front behind t h =>
    cases h with
    | @sign o sign column =>
      obtain ⟨value, hv⟩ := Option.isSome_iff_exists.1 ((o.isSome_signed? n).trans sign)
      have last : behind = [] := by_contra fun ne => unsettled (.inl ne)
      exact ⟨last, _, .one (.signed hv column j)⟩
    | operator paren sign => exact absurd (.inr sign) unsettled
    | unclosed => exact absurd rfl paren
    | word | empty => exact absurd trivial unsettled
    | inside h => exact absurd (h.isSettled _) unsettled
  | separator => exact absurd trivial unsettled
  | dangling h column => exact ⟨rfl, _, .more h column (.one (.number n j))⟩
  | more h column hr ih =>
    obtain ⟨last, nodes, reads⟩ := ih unsettled paren
    rw [List.append_assoc, List.cons_append]
    exact ⟨last, _, .more h column reads⟩

/-! ## More operands -/

theorem ReadsAll.nodes_ne_nil {tokens : List Token} {nodes : List Node} (h : ReadsAll tokens nodes) : nodes ≠ [] := by
  cases h <;> exact List.cons_ne_nil _ _

/-- Behind operands and a comma, reading goes on with the next operands. The induction is on the operands. -/
theorem operands_append {tokens : List Token} {nodes : List Node} (h : ReadsAll tokens nodes) (column : Nat)
    {more : List Token} (ne : more ≠ []) :
    operands (tokens ++ ⟨.operator .comma, column⟩ :: more) = (operands more).map (nodes ++ ·) := by
  induction h with
  | one h => exact operands_of_reads_append h column ne
  | more h i hr ih =>
    rw [List.append_assoc, List.cons_append, operands_of_reads_append h i (by simp), ih]
    cases operands more <;> rfl

end Node

/-! ## Statements -/

namespace Statement

variable {f : SyntaxFault} {front behind : List Token} {t : Token}

theorem Fails.append (h : Fails f front t behind) (settled : f.IsSettled behind) (more : List Token) :
    Fails f front t (behind ++ more) := by
  cases h with
  | mnemonic h => exact .mnemonic h _
  | operands h ho => exact .operands h (ho.append settled more)

theorem Fails.closes_eq_false (h : Fails .unclosedParen front t behind) : ∀ u ∈ behind, Node.closes u = false := by
  cases h with
  | operands h ho => exact ho.closes_eq_false

/-- No parenthesis is unclosed in tokens of which the last one closes. -/
theorem ofTokens_append_rightParen (tokens : List Token) (i column : Nat) :
    ofTokens (tokens ++ [⟨.operator .rightParen, i⟩]) ≠ .error ⟨.unclosedParen, column⟩ := by
  intro he
  obtain ⟨-, ⟨⟩, -⟩ | ⟨front, t, behind, cut, fails, -⟩ := ofTokens_eq_error_iff.1 he
  have opens : t.kind = .operator .leftParen := fails.isShownBy
  have last : (⟨.operator .rightParen, i⟩ : Token) ∈ (t :: behind).getLast? := by
    rw [← List.getLast?_append_cons front, ← cut, List.getLast?_concat]
    rfl
  rcases List.mem_cons.1 (List.mem_of_getLast? last) with rfl | mem
  · cases opens
  · exact Bool.false_ne_true (fails.closes_eq_false _ mem).symm

/-- What is missing can come. -/
theorem Fails.exists_append (h : Fails f front t behind) (unsettled : ¬f.IsSettled behind) :
    ∃ more, ofTokens (front ++ t :: behind ++ more) ≠ .error ⟨f, t.column⟩ := by
  by_cases paren : f = .unclosedParen
  · subst paren
    exact ⟨_, ofTokens_append_rightParen (front ++ t :: behind) 0 t.column⟩
  cases h with
  | mnemonic => exact absurd trivial unsettled
  | @operands first m h f front behind t ho =>
    obtain ⟨rfl, nodes, reads⟩ := ho.exists_readsAll unsettled paren 0 0
    refine ⟨[⟨.number 0, 0⟩], ?_⟩
    rw [List.append_assoc, List.cons_append, List.singleton_append, ofTokens, h]
    simp [Node.operands_of_readsAll reads, Except.map]

theorem ofTokens_append_comma {tokens : List Token} {s : Statement} (h : ofTokens tokens = .ok s) (column : Nat)
    {more : List Token} (ne : more ≠ []) :
    ofTokens (tokens ++ ⟨.operator .comma, column⟩ :: more) =
      if s.operands = [] then .error ⟨.unexpectedOperator .comma, column⟩
      else (Node.operands more).map fun nodes => ⟨s.mnemonic, s.column, s.operands ++ nodes⟩ := by
  cases ofTokens_eq_ok_iff.1 h with
  | @alone name m hm i =>
    have named : mnemonic? ⟨.identifier name, i⟩ = some m := hm
    exact ofTokens_of_fails (.operands named (.operand (.operator (by decide) rfl column more)))
  | @operands name m tokens nodes hm i reads =>
    rw [if_neg reads.nodes_ne_nil, List.cons_append, ofTokens, Node.operands_append reads column ne]
    simp only [mnemonic?, hm]
    cases Node.operands more <;> rfl

/-- An error is settled by the tokens up to it. Every error but that of no tokens is shown by one of the tokens, and its
column is that token's. It stays with any tokens behind exactly if it is settled: an unclosed parenthesis, a dangling comma
and a sign as the last token are not, all others are, and nothing is empty with tokens behind it. Behind a statement, a
comma and more tokens give an error, or the statement with operands appended to its own, as they do if the statement has
operands and the tokens are operands. -/
theorem ofTokens_append (tokens : List Token) :
    (∀ e, ofTokens tokens = .error e → tokens = [] ∧ e = ⟨.empty, 0⟩ ∨
      ∃ front t behind, tokens = front ++ t :: behind ∧ Fails e.fault front t behind ∧ e.fault.IsShownBy t ∧
        t.column = e.column) ∧
    (∀ f front t behind, tokens = front ++ t :: behind → Fails f front t behind →
      ((∀ more, ofTokens (tokens ++ more) = .error ⟨f, t.column⟩) ↔ f.IsSettled behind)) ∧
    (∀ column more, more ≠ [] → ofTokens (tokens ++ more) ≠ .error ⟨.empty, column⟩) ∧
    ∀ s, ofTokens tokens = .ok s → ∀ column more, more ≠ [] →
      ((∃ e, ofTokens (tokens ++ ⟨.operator .comma, column⟩ :: more) = .error e) ∨
        ∃ nodes, nodes ≠ [] ∧
          ofTokens (tokens ++ ⟨.operator .comma, column⟩ :: more) = .ok ⟨s.mnemonic, s.column, s.operands ++ nodes⟩) ∧
      ∀ nodes, s.operands ≠ [] → Node.ReadsAll more nodes →
        ofTokens (tokens ++ ⟨.operator .comma, column⟩ :: more) = .ok ⟨s.mnemonic, s.column, s.operands ++ nodes⟩ := by
  refine ⟨fun e he => ?_, fun f front t behind cut fails => ?_, fun column more ne he => ?_,
    fun s hs column more ne => ⟨?_, fun nodes some reads => ?_⟩⟩
  · obtain ⟨none, hf, place⟩ | ⟨front, t, behind, cut, fails, place⟩ := ofTokens_eq_error_iff.1 he
    · exact .inl ⟨none, by rw [← hf, ← place]⟩
    · exact .inr ⟨front, t, behind, cut, fails, fails.isShownBy, place⟩
  · subst cut
    refine ⟨fun all => by_contra fun unsettled => ?_, fun settled more => ?_⟩
    · obtain ⟨more, other⟩ := fails.exists_append unsettled
      exact other (all more)
    · rw [List.append_assoc, List.cons_append]
      exact ofTokens_of_fails (fails.append settled more)
  · obtain ⟨none, -⟩ | ⟨front, t, behind, -, fails, -⟩ := ofTokens_eq_error_iff.1 he
    · exact ne (List.append_eq_nil_iff.1 none).2
    · exact fails.isShownBy
  · rw [ofTokens_append_comma hs column ne]
    split
    · exact .inl ⟨_, rfl⟩
    cases hn : Node.operands more with
    | error e => exact .inl ⟨e, rfl⟩
    | ok nodes =>
      have reads := (Node.readsAll_of_operands hn).resolve_left fun none => ne none.1
      exact .inr ⟨nodes, reads.nodes_ne_nil, rfl⟩
  · rw [ofTokens_append_comma hs column ne, if_neg some, Node.operands_of_readsAll reads]
    rfl

/-- `JR +` can still become a statement, `JR + A` cannot. `LD A` takes `, 5` as another operand. -/
theorem ofTokens_append_signs :
    (¬∀ more, ofTokens ([⟨.identifier "JR", 0⟩, ⟨.operator .plus, 3⟩] ++ more) = .error ⟨.unexpectedOperator .plus, 3⟩) ∧
    (∀ more, ofTokens ([⟨.identifier "JR", 0⟩, ⟨.operator .plus, 3⟩, ⟨.identifier "A", 5⟩] ++ more) =
      .error ⟨.unexpectedOperator .plus, 3⟩) ∧
    ofTokens [⟨.identifier "LD", 0⟩, ⟨.identifier "A", 3⟩, ⟨.operator .comma, 4⟩, ⟨.number 5, 6⟩] =
      .ok ⟨.LD, 0, [.leaf (.word (.register .A)) 3, .leaf (.immediate 5) 6]⟩ := by
  have jr : mnemonic? ⟨.identifier "JR", 0⟩ = some .JR := by decide +kernel
  have ld : Mnemonic.lookup? "LD".toUpper = some .LD := by decide +kernel
  have a : Word.operand? "A" = some (.register .A) := by decide +kernel
  have load : ofTokens [⟨.identifier "LD", 0⟩, ⟨.identifier "A", 3⟩] = .ok ⟨.LD, 0, [.leaf (.word (.register .A)) 3]⟩ :=
    ofTokens_eq_ok_iff.2 (.operands ld 0 (.one (.word a 3)))
  refine ⟨?_, ?_, ?_⟩
  · have fails : Fails (.unexpectedOperator .plus) [⟨.identifier "JR", 0⟩] ⟨.operator .plus, 3⟩ [] :=
      .operands jr (.operand (.sign rfl 3 (by simp)))
    have last : ¬(SyntaxFault.unexpectedOperator .plus).IsSettled [] := by simp [SyntaxFault.IsSettled, Operator.isSign]
    exact fun all => last (((ofTokens_append _).2.1 _ _ _ _ rfl fails).1 all)
  · have fails : Fails (.unexpectedOperator .plus) [⟨.identifier "JR", 0⟩] ⟨.operator .plus, 3⟩ [⟨.identifier "A", 5⟩] :=
      .operands jr (.operand (.sign rfl 3 (by simp)))
    exact ((ofTokens_append _).2.1 _ _ _ _ rfl fails).2 (.inl (List.cons_ne_nil _ _))
  · exact ((ofTokens_append _).2.2.2 _ load 4 _ (List.cons_ne_nil _ _)).2 _ (List.cons_ne_nil _ _) (.one (.number 5 6))

end Statement

end Z80Asm
