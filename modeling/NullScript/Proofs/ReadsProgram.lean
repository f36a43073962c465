import NullScript.Proofs.Reads

/-!
# NullScript — programs are derived or reported

The routines for statements, functions and programs, by the rules for the composition of routines.
Reading goes on behind most mistakes here, so the rule that nothing is derived once something was
reported does most of the work.

* `reads_statement`, `reads_function` — what a statement and a function consume.
* `reads_program`, `wholeProgram_derived` — a program read without a fault is all of the tokens.
-/

namespace NullScript.Parsed

-- ---------------------------------------------------------------------------
-- Statements
-- ---------------------------------------------------------------------------

/-- Nothing was consumed and nothing is there, or something was read from the consumed tokens. -/
def Attempted {α : Type} (P : List Token → α → Prop) : List Token → Attempt α → Prop
  | used, .absent => used = []
  | _, .malformed => False
  | used, .parsed a => P used a

/-- The tokens are a condition in its parentheses. -/
def IsCondition (ts : List Token) (e : Expr) : Prop :=
  ∃ cs, IsExpr .disjunction cs e ∧
    ts = .punctuation .leftParenthesis :: (cs ++ [.punctuation .rightParenthesis])

/-- A condition is read with its parentheses. -/
theorem reads_condition (ts : List Token) : Reads ts (condition ts) (Surely IsCondition) := by
  refine (reads_expect _ _ ts).andThen fun _ us hu => ?_
  refine ((reads_expression us).required _).andThen fun e vs hv => ?_
  refine (reads_expect _ _ vs).map ?_
  rintro close _ rfl cs ⟨e, rfl, he⟩ open_ rfl
  exact ⟨e, rfl, cs, he, rfl⟩

section

variable {base : List Token} {inner : Below base (Attempt Statement)}
  (hinner : ∀ us h, Reads us (inner us h) (Attempted IsStatement))

include hinner

/-- Statements are read until none follows. -/
theorem reads_statements (ts : List Token) (h : ts.length < base.length) :
    Reads ts (statements inner ts h) AreStatements := by
  -- on the number of tokens left: a statement that was read, malformed or not, has consumed one
  induction hn : ts.length using Nat.strongRecOn generalizing ts with
  | ind n ih =>
    subst hn
    rw [statements]
    refine (hinner ts h).andThen fun s us hu => ?_
    cases s with
    | absent =>
      refine .give fun used (hused : used = []) => ?_
      rw [hused]
      exact .nil
    | malformed =>
      exact (ih us.length (Nat.lt_of_succ_le hu) us _ rfl).map fun _ _ _ _ h => h.elim
    | parsed s =>
      refine (ih us.length (Nat.lt_of_succ_le hu) us _ rfl).map ?_
      exact fun used' body hbody used hs => .cons hs hbody

/-- A block is read with its braces. -/
theorem reads_block (cause : GrammarFault) (ts : List Token) (h : ts.length < base.length) :
    Reads ts (block inner cause ts h) IsBlock := by
  refine (reads_expect _ _ ts).andThen fun _ us hu => ?_
  refine (reads_statements hinner us _).andThen fun body vs hv => ?_
  refine (reads_expect _ _ vs).map ?_
  rintro close _ rfl used hbody open_ rfl
  exact .braces hbody

/-- Without the word `else` nothing is consumed. -/
theorem reads_elseBlock (ts : List Token) (h : ts.length < base.length) :
    Reads ts (elseBlock inner ts h)
      (Found fun used body => ∃ bs, IsBlock bs body ∧ used = .keyword .else_ :: bs) := by
  refine (reads_eat _ ts).andThen fun found us hu => ?_
  cases found with
  | false => exact .last fun used hused => hused
  | true =>
    refine (reads_block hinner _ us _).map ?_
    rintro bs body hbody used rfl
    exact ⟨bs, hbody, rfl⟩

/-- A branch is read behind its word. -/
theorem reads_branch (ts : List Token) (h : ts.length < base.length) :
    Reads ts (branch inner ts h)
      (Surely fun used => IsStatement (.keyword .if_ :: used)) := by
  refine (reads_condition ts).andThen fun c us hu => ?_
  refine (reads_block hinner _ us _).andThen fun body vs hv => ?_
  refine (reads_elseBlock hinner vs _).map ?_
  rintro os other hother bs hbody used ⟨c, rfl, cs, hc, rfl⟩
  refine ⟨_, rfl, ?_⟩
  -- with `else` or without, the tokens are those of the kind of branch
  cases other with
  | none =>
    rw [show os = [] from hother]
    simpa using IsStatement.branch hc hbody
  | some other =>
    obtain ⟨os, hos, rfl⟩ := hother
    simpa using IsStatement.branchElse hc hbody hos

/-- A loop is read behind its word. -/
theorem reads_loop (ts : List Token) (h : ts.length < base.length) :
    Reads ts (loop inner ts h)
      (Surely fun used => IsStatement (.keyword .while_ :: used)) := by
  refine (reads_condition ts).andThen fun c us hu => ?_
  refine (reads_block hinner _ us _).map ?_
  rintro bs body hbody used ⟨c, rfl, cs, hc, rfl⟩
  refine ⟨_, rfl, ?_⟩
  simpa using IsStatement.loop hc hbody

end

/-- Without the sign `=` nothing is consumed. -/
theorem reads_initialValue (ts : List Token) :
    Reads ts (initialValue ts) (Attempted fun used e =>
      ∃ es, IsExpr .disjunction es e ∧ used = .punctuation .assign :: es) := by
  refine (reads_eat _ ts).andThen fun found us hu => ?_
  cases found with
  | false => exact .last fun used hused => hused
  | true =>
    refine ((reads_expression us).required _).map ?_
    rintro es o ⟨e, rfl, he⟩ used rfl
    exact ⟨es, he, rfl⟩

/-- A declaration is read behind its word. -/
theorem reads_declaration (isConst : Bool) (ts : List Token) :
    Reads ts (declaration isConst ts) (Surely fun used =>
      IsStatement (.keyword (declarationWord isConst) :: used)) := by
  refine ((reads_type ts).required _).andThen fun t us hu => ?_
  -- without a type or a name nothing is derived, as the lack was reported
  cases t with
  | none => exact .give fun used ⟨_, hnone, _⟩ => nomatch hnone
  | some t =>
    refine ((reads_name us).required _).andThen fun x vs hv => ?_
    cases x with
    | none => exact .give fun used ⟨_, hnone, _⟩ => nomatch hnone
    | some x =>
      refine (reads_initialValue vs).map ?_
      rintro es e he name ⟨_, ⟨⟩, rfl⟩ used ⟨_, ⟨⟩, ht⟩
      cases e with
      | absent =>
        rw [show es = [] from he]
        exact ⟨_, rfl, .declare ht⟩
      | malformed => exact he.elim
      | parsed e =>
        obtain ⟨es, he, rfl⟩ := he
        exact ⟨_, rfl, .declareWith ht he⟩

/-- The target must be a name, or a fault is noticed. -/
theorem reads_assignment (target : Expr) (ts : List Token) :
    Reads ts (assignment target ts) (Surely fun used st => ∀ target',
      IsExpr .disjunction target' target →
      IsStatement (target' ++ .punctuation .assign :: used) st) := by
  have hvalue := (reads_expression ts).required .missingExpression
  unfold assignment
  split
  · refine hvalue.map ?_
    rintro es o ⟨e, rfl, he⟩
    exact ⟨_, rfl, fun target' htarget => .assign htarget he⟩
  · exact .noting (hvalue.map (Q := fun _ _ => True) fun _ _ _ => trivial) _ _

/-- A statement that starts with an expression is read. -/
theorem reads_expressionStatement (ts : List Token) :
    Reads ts (expressionStatement ts) (Attempted IsStatement) := by
  refine (reads_expression ts).andThen fun e us hu => ?_
  cases e with
  | none => exact .last fun used hused => hused
  | some e =>
    simp only
    split
    · next vs hu =>
      refine .behind ((reads_assignment e vs).map ?_)
      rintro used' o ⟨st, rfl, hst⟩ used he
      exact hst used he
    · exact .last fun used he => .perform he

/-- What was announced by a word is read or reported. -/
theorem reads_introduced {α : Type} {t : Token} {ts : List Token} {r : Parsed ts (Option α)}
    {P : List Token → α → Prop} (h : Reads ts r (Surely fun used => P (t :: used))) :
    Reads (t :: ts) (introduced r : Parsed (t :: ts) (Attempt α)) (Attempted P) := by
  refine .behind (h.map ?_)
  rintro used o ⟨a, rfl, ha⟩
  exact ha

/-- A statement is read, given how those in its blocks are. -/
theorem reads_statementWith {base : List Token} {inner : Below base (Attempt Statement)}
    (hinner : ∀ us h, Reads us (inner us h) (Attempted IsStatement))
    (ts : List Token) (h : ts.length ≤ base.length) :
    Reads ts (statementWith inner ts h) (Attempted IsStatement) := by
  unfold statementWith
  -- the first token decides the kind of statement
  split
  · next ts h => exact reads_introduced (reads_branch hinner ts h)
  · next ts h => exact reads_introduced (reads_loop hinner ts h)
  · next ts h =>
    refine .behind ((reads_expression ts).map fun used e he => ?_)
    cases e with
    | none =>
      rw [show used = [] from he]
      exact .giveBack
    | some e => exact .giveBackValue he
  · exact reads_introduced (reads_declaration false _)
  · exact reads_introduced (reads_declaration true _)
  · exact reads_expressionStatement _

/-- **A statement** is read from the tokens it consumes, or nothing is consumed, or a fault is
noticed. -/
theorem reads_statement (ts : List Token) :
    Reads ts (statement ts) (Attempted IsStatement) := by
  -- the statements in blocks have fewer tokens
  induction hn : ts.length using Nat.strongRecOn generalizing ts with
  | ind n ih =>
    subst hn
    rw [statement]
    exact reads_statementWith (fun us h => ih us.length h us rfl) ts _

-- ---------------------------------------------------------------------------
-- Functions
-- ---------------------------------------------------------------------------

/-- Parameters are read until no comma follows. -/
theorem reads_someParameters (ts : List Token) :
    Reads ts (someParameters ts) AreParameters := by
  induction hn : ts.length using Nat.strongRecOn generalizing ts with
  | ind n ih =>
    subst hn
    rw [someParameters]
    refine ((reads_type ts).required _).andThen fun t us hu => ?_
    refine ((reads_name us).required _).andThen fun x vs hv => ?_
    split
    · next ws hv =>
      have hws : ws.length < ts.length := by
        have : ws.length + 1 + cost x ≤ us.length := hv
        omega
      refine .behind ((ih ws.length hws ws rfl).map ?_)
      rintro used' ps hps _ ⟨x, rfl, rfl⟩ used ⟨t, rfl, ht⟩
      exact .cons ht hps
    · refine .give ?_
      rintro _ ⟨x, rfl, rfl⟩ used ⟨t, rfl, ht⟩
      exact .last ht

theorem reads_parameters (ts : List Token) : Reads ts (parameters ts) IsParameterList := by
  unfold parameters
  split
  · exact .give (.inl ⟨rfl, rfl⟩)
  · exact (reads_someParameters ts).imp fun _ _ => .inr

/-- Without an arrow nothing is consumed. -/
theorem reads_resultType (ts : List Token) :
    Reads ts (resultType ts) (Attempted fun used t =>
      ∃ us, IsType us t ∧ used = .arrow :: us) := by
  refine (reads_eat _ ts).andThen fun found us hu => ?_
  cases found with
  | false => exact .last fun used hused => hused
  | true =>
    refine ((reads_type us).required _).map ?_
    rintro us o ⟨t, rfl, ht⟩ used rfl
    exact ⟨us, ht, rfl⟩

theorem reads_functionBody (ts : List Token) : Reads ts (functionBody ts) IsBlock :=
  reads_block (fun us _ => reads_statement us) _ ts _

/-- A function is read behind its word. -/
theorem reads_functionRest (ts : List Token) :
    Reads ts (functionRest ts) (Surely fun used => IsFunction (.keyword .fun_ :: used)) := by
  -- the parts of a function, one after the other
  refine ((reads_name ts).required _).andThen fun x us hu => ?_
  refine (reads_expect _ _ us).andThen fun _ vs hv => ?_
  refine (reads_parameters vs).andThen fun ps ws hw => ?_
  refine (reads_expect _ _ ws).andThen fun _ xs hx => ?_
  refine (reads_resultType xs).andThen fun t ys hy => ?_
  refine (reads_functionBody ys).map ?_
  rintro bs body hbody rs ht _ rfl used hps _ rfl _ ⟨x, rfl, rfl⟩
  cases t with
  | absent =>
    rw [show rs = [] from ht]
    exact ⟨_, rfl, by simpa using IsFunction.declared hps .nothing hbody⟩
  | malformed => exact ht.elim
  | parsed t =>
    obtain ⟨ts, ht, rfl⟩ := ht
    exact ⟨_, rfl, by simpa using IsFunction.declared hps (.arrow ht) hbody⟩

/-- **A function** is read from the tokens it consumes, or nothing is consumed, or a fault is
noticed. -/
theorem reads_function (ts : List Token) : Reads ts (function ts) (Attempted IsFunction) := by
  unfold function
  split
  · exact reads_introduced (reads_functionRest _)
  · exact .give rfl

-- ---------------------------------------------------------------------------
-- Programs
-- ---------------------------------------------------------------------------

/-- No two functions have one name, and none has a name that is known before. -/
def Fresh (known : List String) (functions : FunctionTable) : Prop :=
  (functions.map Function.name).Nodup ∧ ∀ f ∈ functions, f.name ∉ known

/-- Functions are new if the first one is, and the others are, with its name known. -/
theorem fresh_cons {known : List String} {f : Function} {functions : FunctionTable} :
    Fresh known (f :: functions) ↔ f.name ∉ known ∧ Fresh (f.name :: known) functions := by
  unfold Fresh
  rw [List.map_cons, List.nodup_cons, List.mem_map, List.forall_mem_cons]
  constructor
  · rintro ⟨⟨hother, hnodup⟩, hf, hknown⟩
    refine ⟨hf, hnodup, fun g hg hmem => ?_⟩
    rcases List.mem_cons.mp hmem with hname | hmem
    · exact hother ⟨g, hg, hname⟩
    · exact hknown g hg hmem
  · rintro ⟨hf, hnodup, hknown⟩
    refine ⟨⟨?_, hnodup⟩, hf, fun g hg hmem => hknown g hg (List.mem_cons_of_mem _ hmem)⟩
    rintro ⟨g, hg, hname⟩
    exact hknown g hg (hname ▸ List.mem_cons_self)

/-- A program is read as functions and statements, and no two of its functions have one name. -/
theorem reads_program (known : List String) (ts : List Token) :
    Reads ts (program known ts) fun used p => IsProgram used p ∧ Fresh known p.functions := by
  -- A function or statement that was read, malformed or not, leaves fewer tokens. What was
  -- malformed has been reported, so nothing is to be derived there.
  induction hn : ts.length using Nat.strongRecOn generalizing ts known with
  | ind n ih =>
    subst hn
    have hrest (known : List String) (us : List Token) (h : us.length < ts.length) :=
      ih us.length h known us rfl
    rw [program]
    refine (reads_function ts).andThen fun f us hu => ?_
    cases f with
    | parsed f =>
      have hu : us.length < ts.length := hu
      simp only
      split
      · exact .noting (.widen (hrest known us hu)) _ _
      · next hf =>
        refine (hrest (f.name :: known) us hu).map ?_
        rintro used' p ⟨hp, hfresh⟩ used hused
        exact ⟨.function hused hp, fresh_cons.mpr ⟨hf, hfresh⟩⟩
    | malformed =>
      exact .widen ((hrest known us hu).imp fun _ _ _ _ h => h.elim)
    | absent =>
      refine (reads_statement us).andThen fun s vs hv => ?_
      have hu : us.length ≤ ts.length := hu
      cases s with
      | parsed s =>
        have hv : vs.length < us.length := hv
        refine (hrest known vs (by omega)).map ?_
        rintro used' p ⟨hp, hfresh⟩ used (hs : IsStatement used s) _ rfl
        rw [List.nil_append]
        exact ⟨.statement hs hp, hfresh⟩
      | malformed =>
        have hv : vs.length < us.length := hv
        exact .widen ((hrest known vs (by omega)).imp fun _ _ _ _ h => h.elim)
      | absent =>
        refine .give ?_
        rintro _ rfl _ rfl
        exact ⟨.empty, List.nodup_nil, nofun⟩

/-- A program is read in one walk, at the end of which what is left is reported. -/
theorem walk_wholeProgram (ts : List Token) :
    Walk ts (wholeProgram ts).faults (wholeProgram ts).rest := by
  have hwalk := (reads_program [] ts).walk
  unfold wholeProgram
  dsimp only
  split
  · exact hwalk
  · exact hwalk.trans (.notice .stop)

/-- Without a fault nothing is left and the program is all of the tokens. -/
theorem wholeProgram_derived {ts : List Token} (h : (wholeProgram ts).faults = []) :
    IsProgram ts (wholeProgram ts).value ∧ Fresh [] (wholeProgram ts).value.functions := by
  have hprogram := reads_program [] ts
  unfold wholeProgram at h ⊢
  dsimp only at h ⊢
  split at h
  · next hrest =>
    rw [if_pos hrest]
    obtain ⟨used, hused, hderived⟩ := hprogram.derived h
    rw [List.isEmpty_iff.mp hrest, List.append_nil] at hused
    exact hused ▸ hderived
  · exact absurd h (List.append_ne_nil_of_right_ne_nil _ (List.cons_ne_nil _ _))

end NullScript.Parsed
