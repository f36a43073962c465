import NullScript.Proofs.ReadsBack
import NullScript.Proofs.ReadsProgram

/-!
# NullScript — printed programs are read back

Statements follow each other without a separator, so a statement must not be continued by the
tokens of the next one. A printed statement starts with a token that continues none, with one
exception: an expression behind `return`.

* `StatementReadBack`, `statementReadBack_of_printable` — statements.
* `yields_function` — functions.
* `yields_wholeProgram` — programs.
-/

namespace NullScript.Parsed

-- ---------------------------------------------------------------------------
-- What stands behind a statement
-- ---------------------------------------------------------------------------

/-- Can a printed statement start with the token? -/
def startsStatement : Token → Bool
  | .keyword .if_ | .keyword .while_ | .keyword .return_ | .keyword .var | .keyword .const
  | .identifier _ | .punctuation .leftParenthesis => true
  | _ => false

/-- Can something new start, or a block end, with the token? -/
def opens (t : Token) : Bool :=
  startsStatement t || t = .keyword .fun_ || t = .punctuation .rightBrace

/-- Something new starts, or nothing is left. -/
def Anew (us : List Token) : Prop := ∀ t ∈ us.head?, opens t

theorem anew_nil : Anew [] := nofun

theorem anew_cons {t : Token} {us : List Token} (h : opens t) : Anew (t :: us) := by
  rintro u ⟨⟩
  exact h

/-- Where something new starts, no other token stands. -/
theorem Anew.head?_ne {us : List Token} {t : Token} (h : Anew us) (ht : opens t = false) :
    us.head? ≠ some t := by
  intro hhead
  have hopens := h t hhead
  rw [ht] at hopens
  cases hopens

theorem opens_of_startsStatement {t : Token} (h : startsStatement t) : opens t := by
  rw [opens, h]
  rfl

/-- What opens something new joins no operands. -/
theorem joins_of_opens {t : Token} (h : opens t) : joins t = none := by
  unfold opens startsStatement at h
  split at h
  case h_8 =>
    have h : t = .keyword .fun_ ∨ t = .punctuation .rightBrace := by simpa using h
    rcases h with rfl | rfl <;> rfl
  all_goals rfl

/-- Where something new starts, every expression ends. -/
theorem Anew.ends {us : List Token} (h : Anew us) (l : Level) : Ends l us := by
  intro t ht m hm
  rw [joins_of_opens (h t ht)] at hm
  cases hm

-- ---------------------------------------------------------------------------
-- Parts of statements
-- ---------------------------------------------------------------------------

/-- The statement is read back if what follows does not continue it. -/
def StatementReadBack (s : Statement) : Prop :=
  ∀ ts us, ts = s.tokens ++ us → Anew us → (s = .giveBack none → Silent us) →
    Yields (statement ts) (.parsed s) us

/-- How statements read those in their blocks. -/
def recurStatement (base : List Token) : Below base (Attempt Statement) := fun us _ => statement us

section

variable {base us : List Token} {body : List Statement} {e : Expr}

/-- A condition is read back in its parentheses. -/
theorem yields_condition (he : ReadBack e) :
    Yields (condition (enclosed e.tokens ++ us)) (some e) us := by
  have htokens : enclosed e.tokens ++ us =
      .punctuation .leftParenthesis :: (e.tokens ++ .punctuation .rightParenthesis :: us) := by
    simp [enclosed]
  rw [htokens]
  have hinner := he _ _ rfl (behind_rightParenthesis _ us)
  refine (yields_expect _ _ _).andThen fun _ => ?_
  refine hinner.required.andThen fun _ => ?_
  exact (yields_expect _ _ us).andThen fun _ => .give

theorem yields_expressionStatement_absent (hus : Silent us) :
    Yields (expressionStatement us) .absent us :=
  (yields_expression_none hus).andThen fun _ => .give

theorem yields_statement_rightBrace (us : List Token) :
    Yields (statement (.punctuation .rightBrace :: us)) .absent
      (.punctuation .rightBrace :: us) := by
  rw [statement]
  exact yields_expressionStatement_absent fun _ ht => by cases ht; rfl

theorem yields_statement_nil : Yields (statement []) .absent [] := by
  rw [statement]
  exact yields_expressionStatement_absent fun _ ht => by cases ht

/-- With what a printed statement starts. -/
theorem exists_tokens_eq_cons {limits : Limits} {decimals : Decimals} {s : Statement}
    (h : s.Printable limits decimals) :
    ∃ t ts, s.tokens = t :: ts ∧ startsStatement t ∧
      (s.isExpression = false → starts t = false) := by
  -- by the kinds of statements, the first token of each of which is seen from its printing
  cases h with
  | @branch c body otherwise =>
    cases otherwise with
    | none => exact ⟨_, _, by rw [Statement.tokens], rfl, fun _ => rfl⟩
    | some other => exact ⟨_, _, by rw [Statement.tokens], rfl, fun _ => rfl⟩
  | loop => exact ⟨_, _, by rw [Statement.tokens], rfl, fun _ => rfl⟩
  | @giveBack value =>
    cases value with
    | none => exact ⟨_, _, by rw [Statement.tokens], rfl, fun _ => rfl⟩
    | some e => exact ⟨_, _, by rw [Statement.tokens], rfl, fun _ => rfl⟩
  | perform => exact ⟨_, _, by rw [Statement.tokens, enclosed], rfl, Bool.noConfusion⟩
  | assign =>
    exact ⟨_, _, by rw [Statement.tokens, Expr.tokens, List.cons_append], rfl, Bool.noConfusion⟩
  | @declare isConst x t value =>
    have hstarts : startsStatement (.keyword (declarationWord isConst)) := by
      cases isConst <;> rfl
    cases value with
    | none => exact ⟨_, _, by rw [Statement.tokens], hstarts, fun _ => rfl⟩
    | some e => exact ⟨_, _, by rw [Statement.tokens], hstarts, fun _ => rfl⟩

/-- A printed statement is something new. -/
theorem anew_tokens {limits : Limits} {decimals : Decimals} {s : Statement}
    (h : s.Printable limits decimals) (us : List Token) : Anew (s.tokens ++ us) := by
  obtain ⟨t, ts, htokens, hstarts, -⟩ := exists_tokens_eq_cons h
  rw [htokens]
  exact anew_cons (opens_of_startsStatement hstarts)

/-- Behind a `return` without a value no expression starts. -/
theorem silent_tokens {limits : Limits} {decimals : Decimals} {s : Statement}
    (h : s.Printable limits decimals) {body : List Statement}
    (hapart : apart (.giveBack none :: s :: body)) (us : List Token) : Silent (s.tokens ++ us) := by
  obtain ⟨t, ts, htokens, -, hstarts⟩ := exists_tokens_eq_cons h
  have hs : s.isExpression = false := by
    have hboth := Bool.and_eq_true_iff.mp hapart
    simpa using hboth.1
  rw [htokens]
  rintro _ ⟨⟩
  exact hstarts hs

/-- The statements of a block are something new, and so is what follows an empty one. -/
theorem anew_body {limits : Limits} {decimals : Decimals}
    (hprintable : ∀ s ∈ body, s.Printable limits decimals) (hus : Anew us) :
    Anew (Statement.tokensOfBody body ++ us) := by
  cases body with
  | nil => exact hus
  | cons s body =>
    rw [Statement.tokensOfBody, List.append_assoc]
    exact anew_tokens (hprintable s List.mem_cons_self) _

/-- Behind a lone `return` no statement of the same block starts an expression. -/
theorem silent_body {limits : Limits} {decimals : Decimals}
    (hprintable : ∀ s ∈ body, s.Printable limits decimals) (hus : Silent us)
    (hapart : apart (.giveBack none :: body)) :
    Silent (Statement.tokensOfBody body ++ us) := by
  cases body with
  | nil => exact hus
  | cons s body =>
    rw [Statement.tokensOfBody, List.append_assoc]
    exact silent_tokens (hprintable s List.mem_cons_self) hapart _

/-- Statements without the first one are still kept apart. -/
theorem apart_tail {s : Statement} (h : apart (s :: body)) : apart body := by
  unfold apart at h
  split at h
  · next heq =>
    cases heq
    exact (Bool.and_eq_true_iff.mp h).2
  · next heq =>
    cases heq
    exact h
  · next heq => cases heq

/-- Statements are read back one after the other, up to the brace behind them. -/
theorem yields_statements {limits : Limits} {decimals : Decimals}
    (hprintable : ∀ s ∈ body, s.Printable limits decimals) (hapart : apart body)
    (hbody : ∀ s ∈ body, StatementReadBack s)
    {h : (Statement.tokensOfBody body ++ .punctuation .rightBrace :: us).length < base.length} :
    Yields (statements (recurStatement base)
      (Statement.tokensOfBody body ++ .punctuation .rightBrace :: us) h) body
      (.punctuation .rightBrace :: us) := by
  -- on the statements, each of which is ended by the next one or by the brace
  induction body with
  | nil =>
    have htokens : Statement.tokensOfBody [] ++ .punctuation .rightBrace :: us =
        .punctuation .rightBrace :: us := by
      rw [Statement.tokensOfBody, List.nil_append]
    refine Yields.of_eq (statements _) htokens fun h => ?_
    rw [statements]
    exact (yields_statement_rightBrace us).andThen fun _ => .give
  | cons s body ih =>
    obtain ⟨hs, hbody⟩ := List.forall_mem_cons.mp hbody
    have hrest := (List.forall_mem_cons.mp hprintable).2
    have hanew : Anew (Statement.tokensOfBody body ++ .punctuation .rightBrace :: us) :=
      anew_body hrest (anew_cons rfl)
    -- Behind a lone `return` the next statement would be taken for its value.
    have hsilent : s = .giveBack none →
        Silent (Statement.tokensOfBody body ++ .punctuation .rightBrace :: us) := by
      rintro rfl
      exact silent_body hrest (fun _ ht => by cases ht; rfl) hapart
    have htokens : Statement.tokensOfBody (s :: body) ++ .punctuation .rightBrace :: us =
        s.tokens ++ (Statement.tokensOfBody body ++ .punctuation .rightBrace :: us) := by
      rw [Statement.tokensOfBody, List.append_assoc]
    refine Yields.of_eq (statements _) htokens fun h => ?_
    have hfirst : Yields (recurStatement base _ h) (.parsed s) _ := hs _ _ rfl hanew hsilent
    rw [statements]
    refine hfirst.andThen fun _ => ?_
    exact (ih hrest (apart_tail hapart) hbody).andThen fun _ => .give

/-- The statements of a block are read back, up to the brace behind them. -/
def BodyReadBack (body : List Statement) : Prop :=
  ∀ (base us : List Token) h, Yields (statements (recurStatement base)
    (Statement.tokensOfBody body ++ .punctuation .rightBrace :: us) h) body
    (.punctuation .rightBrace :: us)

/-- A block is read back with its braces. -/
theorem BodyReadBack.block (hbody : BodyReadBack body) {cause : GrammarFault}
    {h : (braced (Statement.tokensOfBody body) ++ us).length < base.length} :
    Yields (block (recurStatement base) cause (braced (Statement.tokensOfBody body) ++ us) h) body
      us := by
  have htokens : braced (Statement.tokensOfBody body) ++ us = .punctuation .leftBrace ::
      (Statement.tokensOfBody body ++ .punctuation .rightBrace :: us) := by
    simp [braced]
  refine Yields.of_eq (Parsed.block _ _) htokens fun h => ?_
  refine (yields_expect _ _ _).andThen fun _ => ?_
  refine (hbody _ _ _).andThen fun _ => ?_
  exact (yields_expect _ _ us).andThen fun _ => .give

theorem yields_introduced {α : Type} {t : Token} {ts : List Token} {r : Parsed ts (Option α)}
    {a : α} (h : Yields r (some a) us) :
    Yields (introduced r : Parsed (t :: ts) (Attempt α)) (.parsed a) us :=
  h.andThen fun _ => .give

/-- A branch is read back behind its word, if what follows the block is. -/
theorem yields_branch (he : ReadBack e) (hbody : BodyReadBack body)
    {otherwise : Option (List Statement)} {vs : List Token}
    (hother : ∀ h, Yields (elseBlock (recurStatement base) vs h) otherwise us)
    {h : (enclosed e.tokens ++ (braced (Statement.tokensOfBody body) ++ vs)).length < base.length} :
    Yields (branch (recurStatement base)
      (enclosed e.tokens ++ (braced (Statement.tokensOfBody body) ++ vs)) h)
      (some (.branch e body otherwise)) us := by
  refine (yields_condition he).andThen fun _ => ?_
  refine hbody.block.andThen fun _ => ?_
  exact (hother _).andThen fun _ => .give

/-- A loop is read back behind its word. -/
theorem yields_loop (he : ReadBack e) (hbody : BodyReadBack body)
    {h : (enclosed e.tokens ++ (braced (Statement.tokensOfBody body) ++ us)).length < base.length} :
    Yields (loop (recurStatement base)
      (enclosed e.tokens ++ (braced (Statement.tokensOfBody body) ++ us)) h)
      (some (.loop e body)) us := by
  refine (yields_condition he).andThen fun _ => ?_
  exact hbody.block.andThen fun _ => .give

theorem yields_elseBlock_none (hus : Anew us) {h : us.length < base.length} :
    Yields (elseBlock (recurStatement base) us h) none us :=
  (yields_eat_other (hus.head?_ne rfl)).andThen fun _ => .give

/-- The block behind `else` is read back. -/
theorem yields_elseBlock (hbody : BodyReadBack body)
    {h : (.keyword .else_ :: (braced (Statement.tokensOfBody body) ++ us)).length < base.length} :
    Yields (elseBlock (recurStatement base)
      (.keyword .else_ :: (braced (Statement.tokensOfBody body) ++ us)) h) (some body) us := by
  refine (yields_eat _ _).andThen fun _ => ?_
  exact hbody.block.andThen fun _ => .give

theorem yields_initialValue_none (hus : Anew us) : Yields (initialValue us) .absent us :=
  (yields_eat_other (hus.head?_ne rfl)).andThen fun _ => .give

theorem yields_initialValue (he : ReadBack e) (hus : Anew us) :
    Yields (initialValue (.punctuation .assign :: (enclosed e.tokens ++ us))) (.parsed e) us := by
  refine (yields_eat _ _).andThen fun _ => ?_
  exact (he.expression_enclosed (hus.ends _)).required.andThen fun _ => .give

/-- A declaration is read back behind its word, if its initial value is. -/
theorem yields_declaration {isConst : Bool} {x : String} {t : Ty} (ht : t.base ≠ .void)
    {value : Attempt Expr} {s : Statement} {vs : List Token}
    (hvalue : Yields (initialValue vs) value us) (hs : declared isConst x t value = some s) :
    Yields (declaration isConst (t.tokens ++ .identifier x :: vs)) (some s) us := by
  have hname : Yields (name (.identifier x :: vs)) (some x) vs := .give
  have hmark : (Token.identifier x :: vs).head? ≠ some (.punctuation .question) := nofun
  refine (yields_type ht hmark).required.andThen fun _ => ?_
  refine hname.required.andThen fun _ => ?_
  exact hvalue.andThen fun _ => ⟨hs, rfl, rfl⟩

/-- An expression by itself is read back, and is not taken for the target of an assignment. -/
theorem yields_perform (he : ReadBack e) (hus : Anew us) :
    Yields (expressionStatement (enclosed e.tokens ++ us)) (.parsed (.perform e)) us := by
  refine (he.expression_enclosed (hus.ends _)).andThen fun _ => ?_
  simp only
  split
  · exact absurd (hus _ rfl) nofun
  · exact .give

/-- An assignment is read back. -/
theorem yields_assign {x : String} (he : ReadBack e) (hus : Anew us) :
    Yields (expressionStatement
      (.identifier x :: .punctuation .assign :: (enclosed e.tokens ++ us)))
      (.parsed (.assign (.identifier x) e)) us := by
  have htarget : Yields (expression
      (.identifier x :: .punctuation .assign :: (enclosed e.tokens ++ us)))
      (some (.identifier x)) (.punctuation .assign :: (enclosed e.tokens ++ us)) :=
    -- the sign behind the name does not continue it, so the name is all of the target
    (operandReadBack_identifier x).readBack rfl _ _ rfl ⟨ends_cons_of_none rfl, nofun, nofun⟩
  have hvalue : Yields (assignment (.identifier x) (enclosed e.tokens ++ us))
      (some (.assign (.identifier x) e)) us := by
    unfold assignment
    exact (he.expression_enclosed (hus.ends _)).required.andThen fun _ => .give
  refine htarget.andThen fun _ => ?_
  exact hvalue.andThen fun _ => .give

/-- A `return` is read back with what is read behind it. -/
theorem yields_giveBack {inner : Below base (Attempt Statement)} {ts : List Token}
    {value : Option Expr} {h : (.keyword .return_ :: ts).length ≤ base.length}
    (hvalue : Yields (expression ts) value us) :
    Yields (statementWith inner (.keyword .return_ :: ts) h) (.parsed (.giveBack value)) us := by
  unfold statementWith
  exact hvalue.andThen fun _ => .give

/-- Every statement that can be printed is read back. -/
theorem statementReadBack_of_printable {limits : Limits} {decimals : Decimals} {s : Statement}
    (h : s.Printable limits decimals) : StatementReadBack s := by
  -- by the kinds of statements; inside of a block the hypotheses hold of its statements
  induction h with
  | @branch c body otherwise hc hbody hapart hother hapart' ihbody ihother =>
    rintro _ us rfl hus -
    have hc := (readBack_of_printable hc).1
    -- the block is read back, as each of its statements is and no two of them run together
    have hbody : BodyReadBack body := fun _ _ _ => yields_statements hbody hapart ihbody
    cases otherwise with
    | none =>
      rw [Statement.tokens, List.cons_append, List.append_assoc, statement]
      exact yields_introduced (yields_branch hc hbody fun _ => yields_elseBlock_none hus)
    | some other =>
      have hother : BodyReadBack other := fun _ _ _ =>
        yields_statements (hother other rfl) (hapart' other rfl) (ihother other rfl)
      rw [Statement.tokens, List.cons_append, List.append_assoc, List.append_assoc,
        List.cons_append, statement]
      exact yields_introduced (yields_branch hc hbody fun _ => yields_elseBlock hother)
  | @loop c body hc hbody hapart ihbody =>
    rintro _ us rfl hus -
    have hbody : BodyReadBack body := fun _ _ _ => yields_statements hbody hapart ihbody
    rw [Statement.tokens, List.cons_append, List.append_assoc, statement]
    exact yields_introduced (yields_loop (readBack_of_printable hc).1 hbody)
  | @giveBack value he =>
    rintro _ us rfl hus hsilent
    cases value with
    -- behind a lone `return` nothing starts that could be its value
    | none =>
      rw [Statement.tokens, statement]
      exact yields_giveBack (h := Nat.le_refl _) (yields_expression_none (hsilent rfl))
    | some e =>
      rw [Statement.tokens, List.cons_append, statement]
      exact yields_giveBack ((readBack_of_printable (he e rfl)).1.expression_enclosed (hus.ends _))
  | @perform e he =>
    rintro _ us rfl hus -
    rw [Statement.tokens, statement]
    exact yields_perform (readBack_of_printable he).1 hus
  | @assign x e hx he =>
    rintro _ us rfl hus -
    rw [Statement.tokens, Expr.tokens, statement]
    exact yields_assign (readBack_of_printable he).1 hus
  | @declare isConst x t value hx ht he =>
    rintro _ us rfl hus -
    -- both words are followed by the same routine
    have hword (ts : List Token) (h) (hdeclaration : Yields (declaration isConst ts)
        (some (.declare isConst x t value)) us) :
        Yields (@statementWith (.keyword (declarationWord isConst) :: ts) (recurStatement _)
          (.keyword (declarationWord isConst) :: ts) h)
          (.parsed (.declare isConst x t value)) us := by
      cases isConst with
      | true => exact yields_introduced hdeclaration
      | false => exact yields_introduced hdeclaration
    cases value with
    | none =>
      rw [Statement.tokens, List.cons_append, List.append_assoc, statement]
      exact hword _ _ (yields_declaration ht (yields_initialValue_none hus) rfl)
    | some e =>
      have he := (readBack_of_printable (he e rfl)).1
      rw [Statement.tokens, List.cons_append, List.append_assoc, statement]
      exact hword _ _ (yields_declaration ht (yields_initialValue he hus) rfl)

end

-- ---------------------------------------------------------------------------
-- Functions
-- ---------------------------------------------------------------------------

section

variable {us : List Token}

/-- The parameters of a function are read back, if there is one at least. -/
theorem yields_someParameters {p : Parameter} {ps : List Parameter}
    (htypes : ∀ q ∈ p :: ps, q.type.base ≠ .void) :
    Yields (someParameters (tokensOfParameters (p :: ps) ++ .punctuation .rightParenthesis :: us))
      (p :: ps) (.punctuation .rightParenthesis :: us) := by
  -- a comma stands behind each parameter but the last one
  induction ps generalizing p with
  | nil =>
    obtain ⟨hp, -⟩ := List.forall_mem_cons.mp htypes
    have htokens : tokensOfParameters [p] ++ .punctuation .rightParenthesis :: us =
        p.type.tokens ++ .identifier p.name :: .punctuation .rightParenthesis :: us := by
      simp [tokensOfParameters, Parameter.tokens]
    have hmark : (Token.identifier p.name :: .punctuation .rightParenthesis :: us).head? ≠
        some (.punctuation .question) := by simp
    have hname : Yields (name (.identifier p.name :: .punctuation .rightParenthesis :: us))
        (some p.name) (.punctuation .rightParenthesis :: us) := .give
    rw [htokens, someParameters]
    refine (yields_type hp hmark).required.andThen fun _ => ?_
    exact hname.required.andThen fun _ => .give
  | cons q ps ih =>
    obtain ⟨hp, hps⟩ := List.forall_mem_cons.mp htypes
    have htokens : tokensOfParameters (p :: q :: ps) ++ .punctuation .rightParenthesis :: us =
        p.type.tokens ++ .identifier p.name :: .punctuation .comma ::
          (tokensOfParameters (q :: ps) ++ .punctuation .rightParenthesis :: us) := by
      simp [tokensOfParameters, Parameter.tokens]
    have hmark : (Token.identifier p.name :: .punctuation .comma ::
        (tokensOfParameters (q :: ps) ++ .punctuation .rightParenthesis :: us)).head? ≠
        some (.punctuation .question) := by simp
    have hname : Yields (name (.identifier p.name :: .punctuation .comma ::
        (tokensOfParameters (q :: ps) ++ .punctuation .rightParenthesis :: us)))
        (some p.name) (.punctuation .comma ::
          (tokensOfParameters (q :: ps) ++ .punctuation .rightParenthesis :: us)) := .give
    rw [htokens, someParameters]
    refine (yields_type hp hmark).required.andThen fun _ => ?_
    refine hname.required.andThen fun _ => ?_
    exact (ih hps).andThen fun _ => .give

/-- The parameters of a function are read back, also if there are none. -/
theorem yields_parameters {ps : List Parameter} (htypes : ∀ q ∈ ps, q.type.base ≠ .void) :
    Yields (parameters (tokensOfParameters ps ++ .punctuation .rightParenthesis :: us)) ps
      (.punctuation .rightParenthesis :: us) := by
  unfold parameters
  cases ps with
  | nil => exact .give
  | cons p ps =>
    -- a parameter starts with its type, so the list is not taken for an empty one
    have hhead : (tokensOfParameters (p :: ps) ++ .punctuation .rightParenthesis :: us).head? ≠
        some (.punctuation .rightParenthesis) := by
      obtain ⟨k, -, htokens⟩ := exists_type_tokens_eq_cons (htypes p List.mem_cons_self)
      simp [tokensOfParameters, Parameter.tokens, htokens]
    rw [if_neg hhead]
    exact yields_someParameters htypes

/-- The result of a function is read back, and is nothing if it is void. -/
theorem yields_resultType {t : Ty} (ht : t = .void ∨ t.base ≠ .void)
    (hus : us.head? = some (.punctuation .leftBrace)) :
    Yields (resultType (tokensOfResult t ++ us)) (if t = .void then .absent else .parsed t) us := by
  have hother (t : Token) (h : t ≠ .punctuation .leftBrace) : us.head? ≠ some t := by
    rw [hus]
    exact fun hhead => h (Option.some.inj hhead).symm
  by_cases hvoid : t = .void
  · rw [if_pos hvoid, tokensOfResult, if_pos hvoid]
    exact (yields_eat_other (hother .arrow nofun)).andThen fun _ => .give
  · have htype := yields_type (ht.resolve_left hvoid) (hother (.punctuation .question) nofun)
    rw [if_neg hvoid, tokensOfResult, if_neg hvoid]
    refine (yields_eat _ _).andThen fun _ => ?_
    exact htype.required.andThen fun _ => .give

/-- A function without a result gives void. -/
theorem functionOf_resultType {x : String} {ps : List Parameter} {t : Ty} {body : List Statement} :
    functionOf (some x) ps (if t = .void then .absent else .parsed t) body =
      some ⟨x, ps, t, body⟩ := by
  split
  · next hvoid => rw [hvoid, functionOf]
  · rw [functionOf]

/-- What stands behind the word of a function is read back. -/
theorem yields_functionRest {limits : Limits} {decimals : Decimals} {f : Function}
    (h : f.Printable limits decimals) :
    Yields (functionRest (.identifier f.name :: .punctuation .leftParenthesis ::
      (tokensOfParameters f.parameters ++ .punctuation .rightParenthesis ::
        (tokensOfResult f.returns ++ (braced (Statement.tokensOfBody f.body) ++ us)))))
      (some f) us := by
  have hname (ts : List Token) : Yields (name (.identifier f.name :: ts)) (some f.name) ts := .give
  have hbody : BodyReadBack f.body := fun _ _ _ => yields_statements h.body h.apart fun s hs =>
    statementReadBack_of_printable (h.body s hs)
  have hblock : Yields (functionBody (braced (Statement.tokensOfBody f.body) ++ us)) f.body us :=
    hbody.block
  unfold functionRest
  -- name, parameters, result and body, one after the other
  refine (hname _).required.andThen fun _ => ?_
  refine (yields_expect _ _ _).andThen fun _ => ?_
  refine (yields_parameters fun p hp => (h.parameters p hp).2).andThen fun _ => ?_
  refine (yields_expect _ _ _).andThen fun _ => ?_
  refine (yields_resultType h.returns rfl).andThen fun _ => ?_
  exact hblock.andThen fun _ => ⟨functionOf_resultType, rfl, rfl⟩

/-- Every function that can be printed is read back. -/
theorem yields_function {limits : Limits} {decimals : Decimals} {f : Function}
    (h : f.Printable limits decimals) : Yields (function (f.tokens ++ us)) (.parsed f) us := by
  have htokens : f.tokens ++ us =
      .keyword .fun_ :: .identifier f.name :: .punctuation .leftParenthesis ::
        (tokensOfParameters f.parameters ++ .punctuation .rightParenthesis ::
          (tokensOfResult f.returns ++ (braced (Statement.tokensOfBody f.body) ++ us))) := by
    simp [Function.tokens, enclosed]
  rw [htokens]
  unfold function
  exact yields_introduced (yields_functionRest h)

end

-- ---------------------------------------------------------------------------
-- Programs
-- ---------------------------------------------------------------------------

/-- Without its word no function is read. -/
theorem yields_function_none {ts : List Token} (h : ts.head? ≠ some (.keyword .fun_)) :
    Yields (function ts) .absent ts := by
  unfold function
  split
  · exact absurd rfl h
  · exact .give

/-- A printed statement is not read as a function. -/
theorem head?_tokens_ne {limits : Limits} {decimals : Decimals} {s : Statement}
    (h : s.Printable limits decimals) (us : List Token) :
    (s.tokens ++ us).head? ≠ some (.keyword .fun_) := by
  obtain ⟨t, ts, htokens, hstarts, -⟩ := exists_tokens_eq_cons h
  rw [htokens]
  rintro ⟨⟩
  cases hstarts

section

variable {limits : Limits} {decimals : Decimals} {items : List Item}
  (hstatements : ∀ s ∈ (programOf items).statements, s.Printable limits decimals)

include hstatements

/-- The items of a program are something new. -/
theorem anew_items : Anew (items.flatMap Item.tokens) := by
  cases items with
  | nil => exact anew_nil
  | cons item items =>
    rw [List.flatMap_cons]
    cases item with
    | function f => exact anew_cons rfl
    | statement s => exact anew_tokens (hstatements s List.mem_cons_self) _

/-- Behind a lone `return` at the top level no item starts an expression. -/
theorem silent_items (hapart : apart (.giveBack none :: (programOf items).statements)) :
    Silent (items.flatMap Item.tokens) := by
  cases items with
  | nil => exact nofun
  | cons item items =>
    rw [List.flatMap_cons]
    cases item with
    | function f =>
      rintro _ ⟨⟩
      rfl
    | statement s => exact silent_tokens (hstatements s List.mem_cons_self) hapart _

end

/-- The items of a program are read back one after the other, whatever names are known before. -/
theorem yields_program {limits : Limits} {decimals : Decimals} {items : List Item}
    (hstatements : ∀ s ∈ (programOf items).statements, s.Printable limits decimals)
    (hapart : apart (programOf items).statements)
    (hfunctions : ∀ f ∈ (programOf items).functions, f.Printable limits decimals)
    {known : List String} (hfresh : Fresh known (programOf items).functions) :
    Yields (program known (items.flatMap Item.tokens)) (programOf items) [] := by
  -- The names that are known grow with every function, and those that follow stay fresh.
  induction items generalizing known with
  | nil =>
    have hhead : ([] : List Token).head? ≠ some (.keyword .fun_) := nofun
    rw [List.flatMap_nil, program]
    refine (yields_function_none hhead).andThen fun _ => ?_
    exact yields_statement_nil.andThen fun _ => .give
  | cons item items ih =>
    rw [List.flatMap_cons, program]
    cases item with
    | function f =>
      obtain ⟨hf, hfunctions⟩ := List.forall_mem_cons.mp hfunctions
      obtain ⟨hknown, hfresh⟩ := fresh_cons.mp hfresh
      refine (yields_function hf).andThen fun _ => ?_
      simp only [if_neg hknown]
      exact (ih hstatements hapart hfunctions hfresh).andThen fun _ => .give
    | statement s =>
      obtain ⟨hs, hrest⟩ := List.forall_mem_cons.mp hstatements
      have hsilent : s = .giveBack none → Silent (items.flatMap Item.tokens) := by
        rintro rfl
        exact silent_items hrest hapart
      have hstatement := statementReadBack_of_printable hs _ _ rfl (anew_items hrest) hsilent
      -- a printed statement is not taken for a function
      refine (yields_function_none (head?_tokens_ne hs _)).andThen fun _ => ?_
      refine hstatement.andThen fun _ => ?_
      exact (ih hrest (apart_tail hapart) hfunctions hfresh).andThen fun _ => .give

/-- Every program that can be printed is read back. -/
theorem yields_wholeProgram {limits : Limits} {decimals : Decimals} {items : List Item}
    (h : (programOf items).Printable limits decimals) :
    Yields (wholeProgram (items.flatMap Item.tokens)) (programOf items) [] := by
  have hfresh : Fresh [] (programOf items).functions := ⟨h.names, fun _ _ => List.not_mem_nil⟩
  have hprogram := yields_program h.statements h.apart h.functions hfresh
  unfold wholeProgram
  dsimp only
  rw [if_pos (by rw [hprogram.rest]; rfl)]
  exact hprogram

end NullScript.Parsed
