import NullScript.Proofs.Lookahead

/-!
# NullScript — reading programs looks one token ahead

The routines for statements, functions and programs, by the rules for the composition of routines.

* `agrees_statement`, `agrees_function` — what is read of a statement and of a function.
* `agrees_program`, `agrees_wholeProgram` — the same program is read from tokens that differ only
  behind the one at which reading stops.
-/

namespace NullScript.Parsed

variable {k : Nat} {ts ts' : List Token}

-- ---------------------------------------------------------------------------
-- Statements
-- ---------------------------------------------------------------------------

/-- A condition is read alike: its parenthesis, its expression and the closing one in turn. -/
theorem agrees_condition (h : SameAbove k ts ts') :
    Agrees k ts (condition ts) (condition ts') := by
  refine (agrees_expect _ _ h).andThen h ?_
  intro _ us us' _ _ hus
  refine ((agrees_expression hus.above).orReport _).andThen hus.above ?_
  intro e vs vs' _ _ hvs
  exact (agrees_expect _ _ hvs.above).thenGive hvs.above

section

variable {base base' : List Token} {inner : Below base (Attempt Statement)}
  {inner' : Below base' (Attempt Statement)} (hinner : AgreeBelow k inner inner')

include hinner

/-- The statements of a block are read alike, if a single one is. -/
theorem agrees_statements : AgreeBelow k (statements inner) (statements inner') := by
  intro ts ts' h h' hts
  -- induction on the tokens left: each statement but an absent one consumes some
  induction hn : ts.length using Nat.strongRecOn generalizing ts ts' with
  | ind n ih =>
    subst hn
    rw [statements, statements]
    refine (hinner ts ts' h h' hts).andThen hts ?_
    intro s us us' hu hu' hus
    -- the rest of the block, to which the hypothesis of the induction applies once a token is gone
    have hrest (hlt : us.length < ts.length) (h : us.length < base.length)
        (h' : us'.length < base'.length) := ih us.length hlt us us' h h' hus.above rfl
    cases s with
    | absent => exact .give hus.above
    | malformed =>
      exact (hrest (Nat.lt_of_succ_le hu) _ _).thenGive hus.above
    | parsed s =>
      exact (hrest (Nat.lt_of_succ_le hu) _ _).thenGive hus.above

/-- A block is read alike, whatever a missing brace is reported as. -/
theorem agrees_block (cause : GrammarFault) :
    AgreeBelow k (block inner cause) (block inner' cause) := by
  intro ts ts' h h' hts
  refine (agrees_expect _ _ hts).andThen hts ?_
  intro _ us us' _ _ hus
  refine (agrees_statements hinner us us' _ _ hus.above).andThen hus.above ?_
  intro body vs vs' _ _ hvs
  exact (agrees_expect _ _ hvs.above).thenGive hvs.above

/-- What follows `else` is read alike, and so is its absence. -/
theorem agrees_elseBlock : AgreeBelow k (elseBlock inner) (elseBlock inner') := by
  intro ts ts' h h' hts
  refine (agrees_eat _ hts).andThen hts ?_
  intro found us us' _ _ hus
  cases found with
  | false => exact .give hus.above
  | true =>
    exact (agrees_block hinner _ us us' _ _ hus.above).thenGive hus.above

/-- A conditional is read alike: condition, block and the block of `else`. -/
theorem agrees_branch : AgreeBelow k (branch inner) (branch inner') := by
  intro ts ts' h h' hts
  refine (agrees_condition hts).andThen hts ?_
  intro c us us' _ _ hus
  refine (agrees_block hinner _ us us' _ _ hus.above).andThen hus.above ?_
  intro body vs vs' _ _ hvs
  exact (agrees_elseBlock hinner vs vs' _ _ hvs.above).thenGive hvs.above

theorem agrees_loop : AgreeBelow k (loop inner) (loop inner') := by
  intro ts ts' h h' hts
  refine (agrees_condition hts).andThen hts ?_
  intro c us us' _ _ hus
  exact (agrees_block hinner _ us us' _ _ hus.above).thenGive hus.above

end

/-- The initial value of a declaration is read alike, with or without the sign before it. -/
theorem agrees_initialValue (h : SameAbove k ts ts') :
    Agrees k ts (initialValue ts) (initialValue ts') := by
  refine (agrees_eat _ h).andThen h ?_
  intro found us us' _ _ hus
  -- the sign is the first token, so that its presence is seen with one token of lookahead
  cases found with
  | false => exact .give hus.above
  | true =>
    exact ((agrees_expression hus.above).orReport _).thenGive hus.above

/-- A declaration is read alike: type, name and initial value. -/
theorem agrees_declaration (isConst : Bool) (h : SameAbove k ts ts') :
    Agrees k ts (declaration isConst ts) (declaration isConst ts') := by
  refine ((agrees_type h).orReport _).andThen h ?_
  intro t us us' _ _ hus
  cases t with
  | none => exact .give hus.above
  | some t =>
    refine ((agrees_name hus.above).orReport _).andThen hus.above ?_
    intro x vs vs' _ _ hvs
    cases x with
    | none => exact .give hvs.above
    | some x =>
      exact (agrees_initialValue hvs.above).thenGive hvs.above

/-- An assignment is read alike. What stands on its left only decides about one more fault. -/
theorem agrees_assignment (target : Expr) (h : SameAbove k ts ts') :
    Agrees k ts (assignment target ts) (assignment target ts') := by
  have hvalue := (agrees_expression h).orReport .missingExpression
  unfold assignment
  split
  · exact hvalue.thenGive h
  · -- any other target is noted at the same token in both lists
    exact .noting (hvalue.thenGive h) h

/-- An expression or an assignment is read alike: the token behind the expression, at which reading
stops, tells them apart. -/
theorem agrees_expressionStatement (h : SameAbove k ts ts') :
    Agrees k ts (expressionStatement ts) (expressionStatement ts') := by
  refine (agrees_expression h).andThen h ?_
  intro e us us' hu hu' hus
  cases e with
  | none => exact .give hus.above
  | some e =>
    cases hus with
    -- nothing is left in either list
    | nil => exact .give (.refl k [])
    -- the token behind the expression is the same in both
    | @cons t vs vs' hvs =>
      cases t with
      | punctuation p =>
        cases p with
        | assign =>
          exact .behind ((agrees_assignment e hvs).thenGive hvs)
        | _ => exact .give (.cons hvs)
      | _ => exact .give (.cons hvs)

theorem agrees_introduced {α : Type} {t : Token} {r : Parsed ts (Option α)}
    {r' : Parsed ts' (Option α)} (hts : SameAbove k ts ts') (h : Agrees k ts r r') :
    Agrees k (t :: ts) (introduced r : Parsed (t :: ts) (Attempt α))
      (introduced r' : Parsed (t :: ts') (Attempt α)) := by
  exact .behind (h.thenGive hts)

/-- One statement is read alike, if those inside its blocks are: its first token decides which
routine reads it. -/
theorem agrees_statementWith {base base' : List Token} (hbase : base'.length = base.length)
    {inner : Below base (Attempt Statement)} {inner' : Below base' (Attempt Statement)}
    (hinner : AgreeBelow k inner inner') :
    AgreeWithin k (statementWith inner) (statementWith inner') := by
  intro ts ts' h h' hts
  -- the first token is within the lookahead, so both lists start with it or both are empty
  refine .of_ahead (P := (·.length ≤ base'.length)) hts h' (hbase ▸ h) fun us h' hahead => ?_
  have hexpression := agrees_expressionStatement hahead.above
  cases hahead with
  | nil => exact hexpression
  | @cons t ts us hus =>
    cases t with
    | keyword word =>
      cases word with
      | if_ => exact agrees_introduced hus (agrees_branch hinner ts us h h' hus)
      | while_ => exact agrees_introduced hus (agrees_loop hinner ts us h h' hus)
      | return_ =>
        unfold statementWith
        dsimp only
        exact .behind ((agrees_expression hus).thenGive hus)
      | var => exact agrees_introduced hus (agrees_declaration false hus)
      | const => exact agrees_introduced hus (agrees_declaration true hus)
      | _ => exact hexpression
    | _ => exact hexpression

/-- **A statement is read alike** from tokens that differ only behind the one at which reading
stops. -/
theorem agrees_statement (h : SameAbove k ts ts') :
    Agrees k ts (statement ts) (statement ts') := by
  -- induction on the tokens left: the blocks of a statement stand behind its first token
  induction hn : ts.length using Nat.strongRecOn generalizing ts ts' with
  | ind n ih =>
    subst hn
    rw [statement, statement]
    exact agrees_statementWith h.length_eq (fun us us' hu _ hus => ih us.length hu hus rfl)
      ts ts' _ _ h

-- ---------------------------------------------------------------------------
-- Functions
-- ---------------------------------------------------------------------------

/-- A list of parameters that is not empty is read alike. -/
theorem agrees_someParameters (h : SameAbove k ts ts') :
    Agrees k ts (someParameters ts) (someParameters ts') := by
  -- induction on the tokens left: a comma stands before each further parameter
  induction hn : ts.length using Nat.strongRecOn generalizing ts ts' with
  | ind n ih =>
    subst hn
    rw [someParameters, someParameters]
    refine ((agrees_type h).orReport _).andThen h ?_
    intro t us us' _ _ hus
    refine ((agrees_name hus.above).orReport _).andThen hus.above ?_
    intro x vs vs' hv hv' hvs
    -- the token behind the parameter is seen, and only a comma is consumed
    cases hvs with
    | nil => exact .give (.refl k [])
    | @cons next ws ws' hws =>
      cases next with
      | punctuation p =>
        cases p with
        | comma =>
          have hlt : ws.length < ts.length := by
            have : ws.length + 1 + cost x ≤ us.length := hv
            omega
          exact .behind ((ih ws.length hlt hws rfl).thenGive hws)
        | _ => exact .give (.cons hws)
      | _ => exact .give (.cons hws)

/-- The parameters of a function are read alike. Whether there are any is decided by the next token.
-/
theorem agrees_parameters (h : SameAbove k ts ts') :
    Agrees k ts (parameters ts) (parameters ts') := by
  refine agrees_of_ahead (fun {ts ts'} h => ?_) h
  unfold parameters
  rw [h.head?_eq]
  split
  · exact .give h.above
  · exact agrees_someParameters h.above

/-- The type of the result is read alike, with or without the arrow. -/
theorem agrees_resultType (h : SameAbove k ts ts') :
    Agrees k ts (resultType ts) (resultType ts') := by
  refine (agrees_eat _ h).andThen h ?_
  intro found us us' _ _ hus
  cases found with
  | false => exact .give hus.above
  | true =>
    exact ((agrees_type hus.above).orReport _).thenGive hus.above

/-- The body of a function is read alike, as a block of statements. -/
theorem agrees_functionBody (h : SameAbove k ts ts') :
    Agrees k ts (functionBody ts) (functionBody ts') :=
  agrees_block (fun _ _ _ _ hus => agrees_statement hus) _ ts ts' _ _ h

/-- What stands behind `fun` is read alike: name, parameters, type and body in turn. -/
theorem agrees_functionRest (h : SameAbove k ts ts') :
    Agrees k ts (functionRest ts) (functionRest ts') := by
  refine ((agrees_name h).orReport _).andThen h ?_
  intro x us us' _ _ hus
  refine (agrees_expect _ _ hus.above).andThen hus.above ?_
  intro _ vs vs' _ _ hvs
  refine (agrees_parameters hvs.above).andThen hvs.above ?_
  intro ps ws ws' _ _ hws
  refine (agrees_expect _ _ hws.above).andThen hws.above ?_
  intro _ xs xs' _ _ hxs
  refine (agrees_resultType hxs.above).andThen hxs.above ?_
  intro t ys ys' _ _ hys
  exact (agrees_functionBody hys.above).thenGive hys.above

/-- **A function is read alike** from tokens that differ only behind the one at which reading stops.
-/
theorem agrees_function (h : SameAbove k ts ts') :
    Agrees k ts (function ts) (function ts') := by
  refine agrees_of_ahead (fun {ts ts'} h => ?_) h
  -- the first token decides whether there is a function at all
  cases h with
  | nil => exact .give (.refl k [])
  | @cons t ts us hus =>
    cases t with
    | keyword word =>
      cases word with
      | fun_ => exact agrees_introduced hus (agrees_functionRest hus)
      | _ => exact .give (.cons hus)
    | _ => exact .give (.cons hus)

-- ---------------------------------------------------------------------------
-- Programs
-- ---------------------------------------------------------------------------

/-- Functions and statements up to the first that is neither are read alike, whatever names are
known already. -/
theorem agrees_program (known : List String) (h : SameAbove k ts ts') :
    Agrees k ts (program known ts) (program known ts') := by
  -- induction on the tokens left: each round but the last consumes some
  induction hn : ts.length using Nat.strongRecOn generalizing ts ts' known with
  | ind n ih =>
    subst hn
    have hrest {us us' : List Token} (known : List String) (hlt : us.length < ts.length)
        (hus : SameAbove k us us') := ih us.length hlt known hus rfl
    rw [program, program]
    refine (agrees_function h).andThen h ?_
    intro f us us' hu hu' hus
    cases f with
    -- a name that is known already is noted at the same token, and the function is left out
    | parsed f =>
      have hlt : us.length < ts.length := hu
      dsimp only
      split
      · exact .noting (.widen (hrest known hlt hus.above)) hus.above
      · exact (hrest (f.name :: known) hlt hus.above).thenGive hus.above
    | malformed =>
      have hlt : us.length < ts.length := hu
      exact .widen (hrest known hlt hus.above)
    | absent =>
      have hle : us.length ≤ ts.length := hu
      refine (agrees_statement hus.above).andThen hus.above ?_
      intro s vs vs' hv hv' hvs
      cases s with
      | parsed s =>
        have hlt : vs.length < us.length := hv
        exact (hrest known (by omega) hvs.above).thenGive hvs.above
      | malformed =>
        have hlt : vs.length < us.length := hv
        exact .widen (hrest known (by omega) hvs.above)
      | absent => exact .give hvs.above

/-- **The same program is read** from tokens that differ only behind the one at which reading
stops. -/
theorem agrees_wholeProgram (h : SameAbove k ts ts') :
    Agrees k ts (wholeProgram ts) (wholeProgram ts') := by
  have hp := agrees_program [] h
  unfold wholeProgram
  dsimp only
  by_cases hk : k < (program [] ts).rest.length
  · -- tokens are left in both lists, which is noted at the same one
    have hlength := (hp.rest hk).length_eq
    have hleft : ∀ {rest : List Token}, k < rest.length → ¬rest.isEmpty := by
      intro rest hk hempty
      rw [List.isEmpty_iff.mp hempty] at hk
      exact absurd hk (Nat.not_lt_zero k)
    rw [if_neg (hleft hk), if_neg (hleft (hlength ▸ hk))]
    refine ⟨hp.length_le, hp.value, fun _ => ?_, hp.rest⟩
    show (program [] ts').faults ++ [⟨_, (program [] ts').rest.length⟩] = _
    rw [hp.faults hk, hlength]
  · -- reading stops within what is not compared, and there is nothing to show
    have hle := Nat.le_of_not_lt hk
    split <;> exact .of_le hp.length_le hle

end NullScript.Parsed
