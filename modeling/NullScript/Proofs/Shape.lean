import NullScript.Program.Source
import NullScript.Proofs.Invariant

/-!
# NullScript — the shape of what is read

Reading goes on behind mistakes, so a program comes out of every list of tokens. Whatever the
mistakes are, it is one that a text could say: no chain is without a further operand, only
variables are assigned to, and `void` is never written as a type.

* `Expr.Shaped`, `Statement.Shaped`, `Function.Shaped` — what holds at every depth.
* `Parsed.Gives` — what holds of a value that is read, with its rules of composition.
* `Parsed.gives_expression`, `Parsed.gives_statement`, `Parsed.gives_function` — the routines.

The routines for statements and functions notice no name that is declared twice; that is left to the
one for programs.
-/

namespace NullScript

-- ---------------------------------------------------------------------------
-- Shapes
-- ---------------------------------------------------------------------------

/-- A chain has at least one further operand, and nothing is converted to `void`. -/
def Expr.HasShape : Expr → Prop
  | .disjunction _ others => others ≠ []
  | .conjunction _ others => others ≠ []
  | .additive _ others => others ≠ []
  | .multiplicative _ others => others ≠ []
  | .cast _ target => target.base ≠ .void
  | _ => True

/-- The expression has its shape at every depth. -/
inductive Expr.Shaped : Expr → Prop
  | intro {e : Expr} : e.HasShape → (∀ e' ∈ e.parts, e'.Shaped) → e.Shaped

/-- An expression of two others. -/
theorem Expr.shaped_of_pair {e left right : Expr} (hshape : e.HasShape)
    (hparts : e.parts = [left, right]) (hleft : left.Shaped) (hright : right.Shaped) :
    e.Shaped := by
  refine .intro hshape ?_
  rw [hparts]
  exact List.forall_mem_cons.mpr ⟨hleft, List.forall_mem_singleton.mpr hright⟩

/-- Only a name is assigned to, and no variable is of type `void`. -/
def Statement.HasShape : Statement → Prop
  | .assign target _ => ∃ name, target = .identifier name
  | .declare _ _ type _ => type.base ≠ .void
  | _ => True

/-- The statement has its shape at every depth, and so have its expressions. -/
inductive Statement.Shaped : Statement → Prop
  | intro {st : Statement} : st.HasShape → (∀ e ∈ st.parts, e.Shaped) →
    (∀ body ∈ st.blocks, ∀ st' ∈ body, st'.Shaped) → st.Shaped

/-- No parameter is of type `void`, and the result is only if none is declared. -/
structure Function.Shaped (f : Function) : Prop where
  parameters : ∀ p ∈ f.parameters, p.type.base ≠ .void
  returns : f.returns.base ≠ .void ∨ f.returns = .void
  body : ∀ st ∈ f.body, st.Shaped

/-- The program is made of such statements and functions. -/
structure Program.Shaped (p : Program) : Prop where
  statements : ∀ st ∈ p.statements, st.Shaped
  functions : ∀ f ∈ p.functions, f.Shaped

/-- Is a second function of a name reported? -/
def GrammarFault.isDuplicate : GrammarFault → Bool
  | .duplicateFunction _ => true
  | _ => false

-- ---------------------------------------------------------------------------
-- Rules of composition
-- ---------------------------------------------------------------------------

namespace Parsed

variable {α β : Type} [Cost α] [Cost β] {ts us : List Token} {cause : GrammarFault}
  {P : α → Prop} {Q : β → Prop}

/-- The value has a property, and no name that is declared twice was noticed. -/
structure Gives (r : Parsed ts α) (P : α → Prop) : Prop where
  value : P r.value
  single : ∀ f ∈ r.faults, ¬f.cause.isDuplicate

namespace Gives

theorem give {a : α} {rest : List Token} {h : rest.length + cost a ≤ ts.length} (hP : P a) :
    Gives (.give a rest h : Parsed ts α) P :=
  ⟨hP, List.forall_mem_nil _⟩

/-- The second routine may rely on the property of what the first has read. -/
theorem andThen {r : Parsed us α}
    {f : (a : α) → (rest : List Token) → rest.length + cost a ≤ us.length → Parsed ts β}
    (hr : Gives r P) (hf : ∀ a rest h, P a → Gives (f a rest h) Q) : Gives (r.andThen f) Q := by
  have hbehind := hf r.value r.rest r.bounded hr.value
  exact ⟨hbehind.value, List.forall_mem_append.mpr ⟨hr.single, hbehind.single⟩⟩

/-- What has been read is made into something else. -/
theorem map {r : Parsed us α} {f : α → β}
    {h : ∀ a (rest : List Token), rest.length + cost a ≤ us.length →
      rest.length + cost (f a) ≤ ts.length}
    (hr : Gives r P) (hf : ∀ a, P a → Q (f a)) :
    Gives (r.andThen fun a rest hrest => .give (f a) rest (h a rest hrest)) Q :=
  hr.andThen fun a _ _ ha => .give (hf a ha)

/-- A fault in place of a missing value, of any kind but a repeated name. -/
theorem orReport {r : Parsed ts α} (h : Gives r P) (hcause : ¬cause.isDuplicate) :
    Gives (r.orReport cause) P := by
  unfold Parsed.orReport
  split
  · refine ⟨h.value, List.forall_mem_append.mpr ⟨h.single, ?_⟩⟩
    exact List.forall_mem_singleton.mpr hcause
  · exact h

theorem noting {r : Parsed ts α} (h : Gives r P) (hcause : ¬cause.isDuplicate) :
    Gives (r.noting cause us) P :=
  ⟨h.value, List.forall_mem_cons.mpr ⟨hcause, h.single⟩⟩

theorem widen {r : Parsed us α} {h : us.length ≤ ts.length} (hr : Gives r P) :
    Gives (r.widen h) P :=
  ⟨hr.value, hr.single⟩

end Gives

/-- If something was found, it has the property. -/
def IfFound {γ : Type} (P : γ → Prop) : Option γ → Prop
  | none => True
  | some a => P a

/-- What is found is made into something else. -/
theorem IfFound.map {γ δ : Type} {P : γ → Prop} {Q : δ → Prop} {f : γ → δ} {o : Option γ}
    (h : IfFound P o) (hf : ∀ a, P a → Q (f a)) : IfFound Q (o.map f) := by
  cases o with
  | none => trivial
  | some a => exact hf a h

/-- The property holds of every element of what is found, taken as a list. -/
theorem IfFound.forall_mem_toList {γ : Type} {P : γ → Prop} {o : Option γ} (h : IfFound P o) :
    ∀ a ∈ o.toList, P a := by
  cases o with
  | none => exact List.forall_mem_nil _
  | some a => exact List.forall_mem_singleton.mpr h

/-- If something was read and kept, it has the property. -/
def IfParsed {γ : Type} (P : γ → Prop) : Attempt γ → Prop
  | .parsed a => P a
  | _ => True

/-- What is found counts as read. -/
theorem IfParsed.ofOption {γ : Type} {P : γ → Prop} {o : Option γ} (h : IfFound P o) :
    IfParsed P (.ofOption o) := by
  cases o with
  | none => trivial
  | some a => exact h

-- ---------------------------------------------------------------------------
-- Tokens and types
-- ---------------------------------------------------------------------------

/-- One token carries nothing with it. -/
theorem gives_eat (t : Token) (ts : List Token) : Gives (eat t ts) fun _ => True := by
  unfold eat
  split
  · exact .give trivial
  · split
    · exact .give trivial
    · exact .give trivial

theorem gives_expect (p : Punctuation) (hcause : ¬cause.isDuplicate) (ts : List Token) :
    Gives (expect p cause ts) fun _ => True :=
  (gives_eat _ ts).orReport hcause

theorem gives_name (ts : List Token) : Gives (name ts) fun _ => True := by
  unfold name
  split
  · exact .give trivial
  · exact .give trivial

/-- No word names the base type `void`. -/
theorem baseOf_ne_void (k : Keyword) : baseOf k ≠ some .void := by
  cases k <;> exact nofun

/-- The base of a type that is read is not `void`. -/
theorem gives_type (ts : List Token) : Gives (type ts) (IfFound fun t => t.base ≠ .void) := by
  unfold type
  split
  · next k us =>
    split
    -- a word that names a base type, behind which only the question mark can follow
    · next b hb =>
      refine (gives_eat _ us).map fun nullable _ => ?_
      rintro rfl
      exact baseOf_ne_void k hb
    · exact .give trivial
  · exact .give trivial

-- ---------------------------------------------------------------------------
-- Expressions
-- ---------------------------------------------------------------------------

section

variable {base : List Token} {Op : Type} {op? : Token → Option Op}
  {operand : Within base (Option Expr)}
  (hoperand : ∀ us h, Gives (operand us h) (IfFound Expr.Shaped))

include hoperand

/-- The further operands of a chain are shaped, if a single one is. -/
theorem gives_operands (ts : List Token) (h : ts.length ≤ base.length) :
    Gives (operands op? operand ts h) fun others => ∀ x ∈ others, x.2.Shaped := by
  -- induction on the tokens left: each further operand consumes its operator at least
  induction hn : ts.length using Nat.strongRecOn generalizing ts with
  | ind n ih =>
    subst hn
    cases ts with
    | nil =>
      rw [operands]
      exact .give (List.forall_mem_nil _)
    | cons t ts =>
      rw [operands]
      split
      · exact .give (List.forall_mem_nil _)
      · refine ((hoperand ts _).orReport (by decide)).andThen fun e us hu he => ?_
        cases e with
        | none => exact .give (List.forall_mem_nil _)
        | some e =>
          have hu : us.length < ts.length := hu
          refine (ih us.length (Nat.lt_succ_of_lt hu) us _ rfl).map fun others hothers => ?_
          exact List.forall_mem_cons.mpr ⟨he, hothers⟩

/-- A chain that is read without a further operand is its first operand; any other has its shape. -/
theorem gives_chain {make : Expr → List (Op × Expr) → Expr}
    (hmake : ∀ first others, first.Shaped → (∀ x ∈ others, x.2.Shaped) → others ≠ [] →
      (make first others).Shaped)
    (ts : List Token) (h : ts.length ≤ base.length) :
    Gives (chain op? make operand ts h) (IfFound Expr.Shaped) := by
  refine (hoperand ts h).andThen fun first us hu hfirst => ?_
  cases first with
  | none => exact .give trivial
  | some first =>
    refine (gives_operands hoperand us _).map fun others hothers => ?_
    unfold chainOf
    -- only here does a chain arise, and it has a further operand
    cases others with
    | nil => exact hfirst
    | cons other others => exact hmake _ _ hfirst hothers (List.cons_ne_nil _ _)

end

theorem gives_closing (ts : List Token) : Gives (closing ts) fun _ => True :=
  (gives_eat _ ts).orReport (by decide)

section

variable {base : List Token} {inner : Below base (Option Expr)}
  (hinner : ∀ us h, Gives (inner us h) (IfFound Expr.Shaped))

include hinner

/-- The further arguments of a call are shaped; one that is missing is left out. -/
theorem gives_moreArguments (ts : List Token) (h : ts.length < base.length) :
    Gives (moreArguments inner ts h) fun es => ∀ e ∈ es, e.Shaped := by
  -- induction on the tokens left: each further argument consumes its comma at least
  induction hn : ts.length using Nat.strongRecOn generalizing ts with
  | ind n ih =>
    subst hn
    cases ts with
    | nil =>
      rw [moreArguments]
      exact .give (List.forall_mem_nil _)
    | cons t ts =>
      rw [moreArguments]
      split
      · refine ((hinner ts _).orReport (by decide)).andThen fun e us hu he => ?_
        have hu : us.length ≤ ts.length := Nat.le_of_add_right_le hu
        refine (ih us.length (Nat.lt_succ_of_le hu) us _ rfl).map fun es hes => ?_
        exact List.forall_mem_append.mpr ⟨he.forall_mem_toList, hes⟩
      · exact .give (List.forall_mem_nil _)

/-- The arguments of a call are shaped. -/
theorem gives_arguments (ts : List Token) (h : ts.length < base.length) :
    Gives (arguments inner ts h) fun es => ∀ e ∈ es, e.Shaped := by
  refine (hinner ts h).andThen fun first us hu hfirst => ?_
  cases first with
  | none => exact .give (List.forall_mem_nil _)
  | some first =>
    refine (gives_moreArguments hinner us _).map fun others hothers => ?_
    exact List.forall_mem_cons.mpr ⟨hfirst, hothers⟩

/-- A call that is closed is shaped, as its arguments are. -/
theorem gives_callRest (name : String) (ts : List Token) (h : ts.length < base.length) :
    Gives (callRest inner name ts h) (IfFound Expr.Shaped) := by
  refine (gives_arguments hinner ts h).andThen fun es us hu hes => ?_
  refine (gives_closing us).map fun closed _ => ?_
  cases closed with
  | false => trivial
  | true => exact .intro trivial hes

/-- Parentheses do not change the expression inside. -/
theorem gives_parenthesised (ts : List Token) (h : ts.length < base.length) :
    Gives (parenthesised inner ts h) (IfFound Expr.Shaped) := by
  refine ((hinner ts h).orReport (by decide)).andThen fun e us hu he => ?_
  refine (gives_closing us).map fun closed _ => ?_
  cases closed with
  | false => trivial
  | true => exact he

/-- A literal, a name, a call or an expression in parentheses is shaped. -/
theorem gives_simple (ts : List Token) (h : ts.length ≤ base.length) :
    Gives (simple inner ts h) (IfFound Expr.Shaped) := by
  unfold simple
  split
  -- the cases of the routine: literal, call, name, parenthesis, none of these
  · exact .give (.intro trivial (List.forall_mem_nil _))
  · exact (gives_callRest hinner _ _ _).widen
  · exact .give (.intro trivial (List.forall_mem_nil _))
  · exact (gives_parenthesised hinner _ _).widen
  · exact .give trivial

/-- An operand with or without a sign is shaped. -/
theorem gives_signed (ts : List Token) (h : ts.length ≤ base.length) :
    Gives (signed inner ts h) (IfFound Expr.Shaped) := by
  unfold signed
  split
  · refine ((gives_simple hinner _ _).orReport (by decide)).map fun e he => he.map ?_
    exact fun e he => .intro trivial (List.forall_mem_singleton.mpr he)
  · exact gives_simple hinner _ h

/-- An operand is converted to a type that can be written, which is not `void`. -/
theorem gives_conversion (ts : List Token) (h : ts.length ≤ base.length) :
    Gives (conversion inner ts h) (IfFound Expr.Shaped) := by
  refine (gives_signed hinner ts h).andThen fun e us hu he => ?_
  cases e with
  | none => exact .give trivial
  | some e =>
    simp only
    split
    · refine ((gives_type _).orReport (by decide)).map fun t ht => ht.map ?_
      exact fun t ht => .intro ht (List.forall_mem_singleton.mpr he)
    · exact .give he

theorem gives_product (ts : List Token) (h : ts.length ≤ base.length) :
    Gives (product inner ts h) (IfFound Expr.Shaped) := by
  refine gives_chain (gives_conversion hinner) (fun first others hfirst hothers hne => ?_) ts h
  exact .intro hne (List.forall_mem_cons.mpr ⟨hfirst, List.forall_mem_map.mpr hothers⟩)

theorem gives_sum (ts : List Token) (h : ts.length ≤ base.length) :
    Gives (sum inner ts h) (IfFound Expr.Shaped) := by
  refine gives_chain (gives_product hinner) (fun first others hfirst hothers hne => ?_) ts h
  exact .intro hne (List.forall_mem_cons.mpr ⟨hfirst, List.forall_mem_map.mpr hothers⟩)

/-- A replacement of null is made of two shaped expressions. -/
theorem gives_alternative (ts : List Token) (h : ts.length ≤ base.length) :
    Gives (alternative inner ts h) (IfFound Expr.Shaped) := by
  refine (gives_sum hinner ts h).andThen fun left us hu hleft => ?_
  cases left with
  | none => exact .give trivial
  | some left =>
    simp only
    split
    · refine ((hinner _ _).orReport (by decide)).map fun right hright => hright.map ?_
      exact fun right hright => Expr.shaped_of_pair trivial rfl hleft hright
    · exact .give hleft

/-- A comparison is made of two shaped expressions. -/
theorem gives_comparison (ts : List Token) (h : ts.length ≤ base.length) :
    Gives (comparison inner ts h) (IfFound Expr.Shaped) := by
  unfold comparison pair
  refine (gives_alternative hinner ts h).andThen fun left us hu hleft => ?_
  cases left with
  | none => exact .give trivial
  | some left =>
    cases us with
    | nil => exact .give hleft
    | cons t vs =>
      simp only
      split
      · exact .give hleft
      · refine ((gives_alternative hinner _ _).orReport (by decide)).map fun e he =>
          he.map ?_
        exact fun right hright => Expr.shaped_of_pair trivial rfl hleft hright

theorem gives_conjunction (ts : List Token) (h : ts.length ≤ base.length) :
    Gives (conjunction inner ts h) (IfFound Expr.Shaped) := by
  refine gives_chain (gives_comparison hinner) (fun first others hfirst hothers hne => ?_) ts h
  refine .intro (fun hnil => hne (List.map_eq_nil_iff.mp hnil)) ?_
  exact List.forall_mem_cons.mpr ⟨hfirst, List.forall_mem_map.mpr hothers⟩

theorem gives_disjunction (ts : List Token) (h : ts.length ≤ base.length) :
    Gives (disjunction inner ts h) (IfFound Expr.Shaped) := by
  refine gives_chain (gives_conjunction hinner) (fun first others hfirst hothers hne => ?_) ts h
  refine .intro (fun hnil => hne (List.map_eq_nil_iff.mp hnil)) ?_
  exact List.forall_mem_cons.mpr ⟨hfirst, List.forall_mem_map.mpr hothers⟩

end

/-- **An expression that is read has its shape**, whatever the tokens are. -/
theorem gives_expression (ts : List Token) : Gives (expression ts) (IfFound Expr.Shaped) := by
  -- induction on the tokens left, of which a parenthesis has fewer inside
  induction hn : ts.length using Nat.strongRecOn generalizing ts with
  | ind n ih =>
    subst hn
    rw [expression]
    exact gives_disjunction (fun us h => ih us.length h us rfl) ts _

-- ---------------------------------------------------------------------------
-- Statements
-- ---------------------------------------------------------------------------

theorem gives_condition (ts : List Token) : Gives (condition ts) (IfFound Expr.Shaped) := by
  refine (gives_expect _ (by decide) ts).andThen fun _ us hu _ => ?_
  refine ((gives_expression us).orReport (by decide)).andThen fun e vs hv he => ?_
  exact (gives_expect _ (by decide) vs).map fun _ _ => he

section

variable {base : List Token} {inner : Below base (Attempt Statement)}
  (hinner : ∀ us h, Gives (inner us h) (IfParsed Statement.Shaped))

include hinner

/-- The statements of a block are shaped, if a single one is; malformed ones are left out. -/
theorem gives_statements (ts : List Token) (h : ts.length < base.length) :
    Gives (statements inner ts h) fun body => ∀ st ∈ body, st.Shaped := by
  -- induction on the tokens left: each statement but an absent one consumes some
  induction hn : ts.length using Nat.strongRecOn generalizing ts with
  | ind n ih =>
    subst hn
    rw [statements]
    refine (hinner ts h).andThen fun st us hu hst => ?_
    cases st with
    | absent => exact .give (List.forall_mem_nil _)
    | malformed => exact (ih us.length (Nat.lt_of_succ_le hu) us _ rfl).map fun _ hbody => hbody
    | parsed st =>
      refine (ih us.length (Nat.lt_of_succ_le hu) us _ rfl).map fun body hbody => ?_
      exact List.forall_mem_cons.mpr ⟨hst, hbody⟩

/-- The statements between braces are shaped, whatever a missing brace is reported as. -/
theorem gives_block (hcause : ¬cause.isDuplicate) (ts : List Token)
    (h : ts.length < base.length) :
    Gives (block inner cause ts h) fun body => ∀ st ∈ body, st.Shaped := by
  refine (gives_expect _ hcause ts).andThen fun _ us hu _ => ?_
  refine (gives_statements hinner us _).andThen fun body vs hv hbody => ?_
  exact (gives_expect _ hcause vs).map fun _ _ => hbody

/-- The statements behind `else` are shaped. -/
theorem gives_elseBlock (ts : List Token) (h : ts.length < base.length) :
    Gives (elseBlock inner ts h) (IfFound fun body => ∀ st ∈ body, st.Shaped) := by
  refine (gives_eat _ ts).andThen fun found us hu _ => ?_
  cases found with
  | false => exact .give trivial
  | true => exact (gives_block hinner (by decide) us _).map fun _ hbody => hbody

/-- A conditional is shaped, as its condition and its blocks are. -/
theorem gives_branch (ts : List Token) (h : ts.length < base.length) :
    Gives (branch inner ts h) (IfFound Statement.Shaped) := by
  refine (gives_condition ts).andThen fun c us hu hc => ?_
  refine (gives_block hinner (by decide) us _).andThen fun body vs hv hbody => ?_
  refine (gives_elseBlock hinner vs _).map fun otherwise hotherwise => hc.map fun c hc => ?_
  refine .intro trivial (List.forall_mem_singleton.mpr hc) ?_
  exact List.forall_mem_cons.mpr ⟨hbody, hotherwise.forall_mem_toList⟩

/-- A loop is shaped, as its condition and its block are. -/
theorem gives_loop (ts : List Token) (h : ts.length < base.length) :
    Gives (loop inner ts h) (IfFound Statement.Shaped) := by
  refine (gives_condition ts).andThen fun c us hu hc => ?_
  refine (gives_block hinner (by decide) us _).map fun body hbody => hc.map fun c hc => ?_
  exact .intro trivial (List.forall_mem_singleton.mpr hc) (List.forall_mem_singleton.mpr hbody)

end

/-- The initial value of a declaration is shaped. -/
theorem gives_initialValue (ts : List Token) :
    Gives (initialValue ts) (IfParsed Expr.Shaped) := by
  refine (gives_eat _ ts).andThen fun found us hu _ => ?_
  cases found with
  | false => exact .give trivial
  | true => exact ((gives_expression us).orReport (by decide)).map fun _ he => .ofOption he

/-- The type of a variable that is declared is one that can be written. -/
theorem gives_declaration (isConst : Bool) (ts : List Token) :
    Gives (declaration isConst ts) (IfFound Statement.Shaped) := by
  refine ((gives_type ts).orReport (by decide)).andThen fun t us hu ht => ?_
  cases t with
  -- without a type or a name nothing is declared
  | none => exact .give trivial
  | some t =>
    refine ((gives_name us).orReport (by decide)).andThen fun name vs hv _ => ?_
    cases name with
    | none => exact .give trivial
    | some name =>
      refine (gives_initialValue vs).map fun e he => ?_
      cases e with
      | absent => exact .intro ht (List.forall_mem_nil _) (List.forall_mem_nil _)
      | malformed => trivial
      | parsed e =>
        exact .intro ht (List.forall_mem_singleton.mpr he) (List.forall_mem_nil _)

/-- The value is dropped if the target is no name. -/
theorem gives_assignment (target : Expr) (ts : List Token) :
    Gives (assignment target ts) (IfFound Statement.Shaped) := by
  have hvalue : Gives ((expression ts).orReport .missingExpression) (IfFound Expr.Shaped) :=
    (gives_expression ts).orReport (by decide)
  unfold assignment
  split
  · next name =>
    refine hvalue.map fun e he => he.map fun e he => ?_
    exact .intro ⟨name, rfl⟩ (List.forall_mem_singleton.mpr he) (List.forall_mem_nil _)
  · -- another target is reported, and there is no statement
    exact (hvalue.map fun _ _ => trivial).noting (by decide)

/-- An expression or an assignment is shaped. -/
theorem gives_expressionStatement (ts : List Token) :
    Gives (expressionStatement ts) (IfParsed Statement.Shaped) := by
  refine (gives_expression ts).andThen fun e us hu he => ?_
  cases e with
  | none => exact .give trivial
  | some e =>
    simp only
    split
    · exact (gives_assignment e _).map fun _ hst => .ofOption hst
    · refine .give (.intro trivial (List.forall_mem_singleton.mpr he) ?_)
      exact List.forall_mem_nil _

theorem gives_introduced {γ : Type} {t : Token} {r : Parsed ts (Option γ)} {P : γ → Prop}
    (h : Gives r (IfFound P)) :
    Gives (introduced r : Parsed (t :: ts) (Attempt γ)) (IfParsed P) :=
  h.map fun _ ha => .ofOption ha

/-- A statement is shaped, if those inside its blocks are. -/
theorem gives_statementWith {base : List Token} {inner : Below base (Attempt Statement)}
    (hinner : ∀ us h, Gives (inner us h) (IfParsed Statement.Shaped)) (ts : List Token)
    (h : ts.length ≤ base.length) :
    Gives (statementWith inner ts h) (IfParsed Statement.Shaped) := by
  unfold statementWith
  split
  -- by the first token: conditional, loop, return, two kinds of declaration, expression
  · exact gives_introduced (gives_branch hinner _ _)
  · exact gives_introduced (gives_loop hinner _ _)
  · refine (gives_expression _).map fun e he => ?_
    exact .intro trivial he.forall_mem_toList (List.forall_mem_nil _)
  · exact gives_introduced (gives_declaration false _)
  · exact gives_introduced (gives_declaration true _)
  · exact gives_expressionStatement _

/-- **A statement that is read has its shape**, whatever the tokens are. -/
theorem gives_statement (ts : List Token) :
    Gives (statement ts) (IfParsed Statement.Shaped) := by
  -- induction on the tokens left, of which a block has fewer inside
  induction hn : ts.length using Nat.strongRecOn generalizing ts with
  | ind n ih =>
    subst hn
    rw [statement]
    exact gives_statementWith (fun us h => ih us.length h us rfl) ts _

-- ---------------------------------------------------------------------------
-- Functions
-- ---------------------------------------------------------------------------

/-- A parameter that lacks its type is left out. -/
theorem gives_someParameters (ts : List Token) :
    Gives (someParameters ts) fun ps => ∀ p ∈ ps, p.type.base ≠ .void := by
  -- the parameter at hand, if it has its type and its name
  have hparameter : ∀ {t name}, IfFound (fun t : Ty => t.base ≠ .void) t →
      ∀ p ∈ (parameterOf t name).toList, p.type.base ≠ .void := by
    intro t name ht
    cases t with
    | none => exact List.forall_mem_nil _
    | some t =>
      cases name with
      | none => exact List.forall_mem_nil _
      | some name => exact List.forall_mem_singleton.mpr ht
  -- induction on the tokens left: a comma stands before each further parameter
  induction hn : ts.length using Nat.strongRecOn generalizing ts with
  | ind n ih =>
    subst hn
    rw [someParameters]
    refine ((gives_type ts).orReport (by decide)).andThen fun t us hu ht => ?_
    refine ((gives_name us).orReport (by decide)).andThen fun name vs hv _ => ?_
    split
    · next ws hv =>
      have hws : ws.length < ts.length := by
        have : ws.length + 1 + cost name ≤ us.length := hv
        omega
      refine (ih ws.length hws ws rfl).map fun ps hps => ?_
      exact List.forall_mem_append.mpr ⟨hparameter ht, hps⟩
    · exact .give (hparameter ht)

/-- No parameter of a function is of type `void`. -/
theorem gives_parameters (ts : List Token) :
    Gives (parameters ts) fun ps => ∀ p ∈ ps, p.type.base ≠ .void := by
  unfold parameters
  split
  · exact .give (List.forall_mem_nil _)
  · exact gives_someParameters ts

/-- A result type that is written is not `void`. -/
theorem gives_resultType (ts : List Token) :
    Gives (resultType ts) (IfParsed fun t => t.base ≠ .void) := by
  refine (gives_eat _ ts).andThen fun found us hu _ => ?_
  cases found with
  | false => exact .give trivial
  | true => exact ((gives_type us).orReport (by decide)).map fun _ ht => .ofOption ht

theorem gives_functionBody (ts : List Token) :
    Gives (functionBody ts) fun body => ∀ st ∈ body, st.Shaped :=
  gives_block (fun us _ => gives_statement us) (by decide) ts _

/-- What is read behind `fun` is a shaped function, if it has a name and its type is not malformed.
-/
theorem gives_functionRest (ts : List Token) :
    Gives (functionRest ts) (IfFound Function.Shaped) := by
  refine ((gives_name ts).orReport (by decide)).andThen fun name us hu _ => ?_
  refine (gives_expect _ (by decide) us).andThen fun _ vs hv _ => ?_
  refine (gives_parameters vs).andThen fun ps ws hw hps => ?_
  refine (gives_expect _ (by decide) ws).andThen fun _ xs hx _ => ?_
  refine (gives_resultType xs).andThen fun t ys hy ht => ?_
  refine (gives_functionBody ys).map fun body hbody => ?_
  -- the result is `void` only where no type is written
  cases name with
  | none => trivial
  | some name =>
    cases t with
    | absent => exact ⟨hps, .inr rfl, hbody⟩
    | malformed => trivial
    | parsed t => exact ⟨hps, .inl ht, hbody⟩

/-- **A function that is read has its shape**, whatever the tokens are. -/
theorem gives_function (ts : List Token) : Gives (function ts) (IfParsed Function.Shaped) := by
  unfold function
  split
  · exact gives_introduced (gives_functionRest _)
  · exact .give trivial

end Parsed

end NullScript
