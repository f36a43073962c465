import NullScript.Proofs.Layout
import NullScript.Proofs.ReadsBack

/-!
# NullScript — consumed tokens pay for the faults

Reading goes on behind most mistakes, and some routines notice several faults where they stand. But
the cascade is bounded: each token that is consumed pays for seven faults. The word `fun` needs all
of them, because behind it a name, two parentheses, a parameter's type and name, and two braces can
be missing.

* `Parsed.Owes` — how many faults no consumed token pays for, with its rules of composition.
* `owes_expression`, `owes_statement`, `owes_program` — those of the routines.
* `fault_cascade_is_bounded` — reading consumes the tokens in order, and reports few faults.
-/

namespace NullScript

namespace Parsed

-- ---------------------------------------------------------------------------
-- Rules of composition
-- ---------------------------------------------------------------------------

section

variable {α β : Type} [Cost α] [Cost β] {ts us start : List Token} {k l : Nat}

/-- The tokens that were consumed since `start` pay for all faults but `k`, each for seven. -/
structure Owes (start : List Token) (k : Nat) (r : Parsed ts α) : Prop where
  le : r.faults.length + 7 * r.rest.length ≤ 7 * start.length + k

namespace Owes

theorem mono {r : Parsed ts α} (h : Owes start k r) (hle : k ≤ l) : Owes start l r :=
  ⟨Nat.le_trans h.le (Nat.add_le_add_left hle _)⟩

/-- Where nothing is reported nothing is owed. -/
theorem give {a : α} {rest : List Token} {h : rest.length + cost a ≤ ts.length} :
    Owes rest k (.give a rest h : Parsed ts α) := by
  constructor
  show 0 + 7 * rest.length ≤ 7 * rest.length + k
  omega

/-- What is read behind a value may rely on which value it is. -/
theorem andThenFrom {r : Parsed us α} {a : α}
    {f : (a : α) → (rest : List Token) → rest.length + cost a ≤ us.length → Parsed ts β}
    (hr : Owes start k r) (ha : r.value = a) (hf : ∀ rest h, Owes rest l (f a rest h)) :
    Owes start (k + l) (r.andThen f) := by
  subst ha
  have hfirst := hr.le
  have hthen := (hf r.rest r.bounded).le
  constructor
  show (r.faults ++ (f r.value r.rest r.bounded).faults).length +
    7 * (f r.value r.rest r.bounded).rest.length ≤ 7 * start.length + (k + l)
  rw [List.length_append]
  omega

/-- What two routines owe adds up. -/
theorem andThen {r : Parsed us α}
    {f : (a : α) → (rest : List Token) → rest.length + cost a ≤ us.length → Parsed ts β}
    (hr : Owes start k r) (hf : ∀ a rest h, Owes rest l (f a rest h)) :
    Owes start (k + l) (r.andThen f) :=
  hr.andThenFrom rfl (hf r.value)

/-- Nothing more is read. -/
theorem map {r : Parsed us α} {f : α → β}
    {h : ∀ a (rest : List Token), rest.length + cost a ≤ us.length →
      rest.length + cost (f a) ≤ ts.length}
    (hr : Owes start k r) :
    Owes start k (r.andThen fun a rest hrest => .give (f a) rest (h a rest hrest)) :=
  hr.andThen (l := 0) fun _ _ _ => .give

/-- A fault that is reported is owed. -/
theorem report {r : Parsed ts α} (hr : Owes start k r) (f : Fault) :
    Owes start (k + 1) { r with faults := r.faults ++ [f] } := by
  have hle := hr.le
  constructor
  show (r.faults ++ [f]).length + 7 * r.rest.length ≤ 7 * start.length + (k + 1)
  rw [List.length_append, List.length_singleton]
  omega

/-- One more fault may be owed for a value that is missing. -/
theorem orReport {r : Parsed ts α} (hr : Owes start k r) (cause : GrammarFault) :
    Owes start (k + 1) (r.orReport cause) := by
  unfold Parsed.orReport
  split
  · exact hr.report _
  · exact hr.mono (Nat.le_succ k)

/-- A fault that is noted in front is owed. -/
theorem noting {r : Parsed ts α} (hr : Owes start k r) (cause : GrammarFault) :
    Owes start (k + 1) (r.noting cause us) := by
  have hle := hr.le
  constructor
  show r.faults.length + 1 + 7 * r.rest.length ≤ 7 * start.length + (k + 1)
  omega

theorem widen {r : Parsed us α} {h : us.length ≤ ts.length} (hr : Owes start k r) :
    Owes start k (r.widen h) :=
  ⟨hr.le⟩

/-- A token that is consumed before pays for seven. -/
theorem behind {t : Token} {r : Parsed ts α} (hr : Owes start (k + 7) r) :
    Owes (t :: start) k r := by
  have hle := hr.le
  constructor
  rw [List.length_cons]
  omega

/-- As long as less than seven are owed, no more than the first tokens are left. -/
theorem length_rest_le {r : Parsed ts α} (hr : Owes start k r) (hk : k < 7) :
    r.rest.length ≤ start.length := by
  have hle := hr.le
  omega

end Owes

-- ---------------------------------------------------------------------------
-- Tokens and types
-- ---------------------------------------------------------------------------

/-- Behind a token that was there, seven more may be owed. -/
theorem owes_eat_andThen {t : Token} {f : (found : Bool) → (rest : List Token) →
      rest.length + cost found ≤ us.length → Parsed ts β}
    (hfound : ∀ rest h, Owes rest (k + 7) (f true rest h))
    (hother : ∀ h, Owes us k (f false us h)) : Owes us k ((eat t us).andThen f) := by
  -- the token is there and pays, or nothing is consumed
  cases us with
  | nil => exact hother _
  | cons u us =>
    unfold eat
    dsimp only
    by_cases hu : u = t
    · rw [if_pos hu]
      exact .behind (hfound us _)
    · rw [if_neg hu]
      exact hother _

end

section

variable (ts : List Token)

/-- One token owes nothing, be it there or not. -/
theorem owes_eat (t : Token) : Owes ts 0 (eat t ts) := by
  unfold eat
  split
  · exact .give
  · split
    · exact .behind .give
    · exact .give

/-- A token that must stand there owes one fault: that it does not. -/
theorem owes_expect (p : Punctuation) (cause : GrammarFault) : Owes ts 1 (expect p cause ts) :=
  (owes_eat ts _).orReport cause

theorem owes_name : Owes ts 0 (name ts) := by
  unfold name
  split
  · exact .behind .give
  · exact .give

/-- A type owes nothing. -/
theorem owes_type : Owes ts 0 (type ts) := by
  unfold type
  split
  · split
    · exact .behind ((owes_eat _ _).map.mono (Nat.zero_le _))
    · exact .give
  · exact .give

end

-- ---------------------------------------------------------------------------
-- Expressions
-- ---------------------------------------------------------------------------

section

variable {base ts start : List Token} {k : Nat} {Op : Type} {op? : Token → Option Op}
  {operand : Within base (Option Expr)}

/-- The further operands of a chain owe nothing, since the operators pay for those that are missing.
-/
theorem owes_operands (hoperand : ∀ us h, Owes us 0 (operand us h)) (h : ts.length ≤ base.length) :
    Owes ts 0 (operands op? operand ts h) := by
  -- induction on the tokens left, behind an operator
  induction hn : ts.length using Nat.strongRecOn generalizing ts with
  | ind n ih =>
    subst hn
    cases ts with
    | nil =>
      rw [operands]
      exact .give
    | cons t ts =>
      rw [operands]
      split
      · exact .give
      · -- the operator pays for the operand that may be missing, and nothing else is owed
        refine .behind (((hoperand ts _).orReport _).andThen (l := 6) fun e us hu => ?_)
        cases e with
        | none => exact .give
        | some e =>
          have hu : us.length < ts.length := hu
          exact (ih us.length (Nat.lt_succ_of_lt hu) _ rfl).map.mono (Nat.zero_le _)

/-- A chain owes what its first operand owes. -/
theorem owes_chain {make : Expr → List (Op × Expr) → Expr} {h : ts.length ≤ base.length}
    (hoperand : ∀ us h, Owes us 0 (operand us h)) (hfirst : Owes start k (operand ts h)) :
    Owes start k (chain op? make operand ts h) := by
  refine hfirst.andThen (l := 0) fun first us hu => ?_
  cases first with
  | none => exact .give
  | some first => exact (owes_operands hoperand _).map

/-- A pair of operands owes what its first one owes. -/
theorem owes_pair {make : Expr → Op → Expr → Expr} {left right : Within base (Option Expr)}
    {h : ts.length ≤ base.length} (hright : ∀ us h, Owes us 0 (right us h))
    (hleft : Owes start k (left ts h)) : Owes start k (pair op? make left right ts h) := by
  refine hleft.andThen (l := 0) fun first us hu => ?_
  cases first with
  | none => exact .give
  | some first =>
    -- the operator pays for the right operand, if it is missing
    cases us with
    | nil => exact .give
    | cons t us =>
      dsimp only
      split
      · exact .give
      · exact .behind (((hright us _).orReport _).map.mono (by decide))

variable {inner : Below base (Option Expr)} (hinner : ∀ us h, Owes us 0 (inner us h))

include hinner

/-- The further arguments owe nothing, since the commas pay for those that are missing. -/
theorem owes_moreArguments (h : ts.length < base.length) :
    Owes ts 0 (moreArguments inner ts h) := by
  -- induction on the tokens left, behind a comma
  induction hn : ts.length using Nat.strongRecOn generalizing ts with
  | ind n ih =>
    subst hn
    cases ts with
    | nil =>
      rw [moreArguments]
      exact .give
    | cons t ts =>
      rw [moreArguments]
      split
      · refine .behind (((hinner ts _).orReport _).andThen (l := 6) fun e us hu => ?_)
        have hu : us.length ≤ ts.length := Nat.le_of_add_right_le hu
        exact (ih us.length (Nat.lt_succ_of_le hu) _ rfl).map.mono (Nat.zero_le _)
      · exact .give

theorem owes_arguments (h : ts.length < base.length) : Owes ts 0 (arguments inner ts h) := by
  refine (hinner ts h).andThen (l := 0) fun first us hu => ?_
  cases first with
  | none => exact .give
  | some first => exact (owes_moreArguments hinner _).map

omit hinner in
/-- The closing parenthesis owes one fault. -/
theorem owes_closing (ts : List Token) : Owes ts 1 (closing ts) :=
  (owes_eat ts _).orReport _

/-- A call owes its closing parenthesis. -/
theorem owes_callRest (x : String) (h : ts.length < base.length) :
    Owes ts 1 (callRest inner x ts h) :=
  (owes_arguments hinner h).andThen fun _ us _ => (owes_closing us).map

/-- Parentheses owe the expression inside and their end. -/
theorem owes_parenthesised (h : ts.length < base.length) :
    Owes ts 2 (parenthesised inner ts h) :=
  ((hinner ts h).orReport _).andThen fun _ us _ => (owes_closing us).map

/-- An operand owes nothing, since its first token pays. -/
theorem owes_simple (h : ts.length ≤ base.length) : Owes ts 0 (simple inner ts h) := by
  unfold simple
  -- the cases of the routine: literal, call, name, parenthesis, none of these
  split
  · exact .behind .give
  · exact .behind (.behind ((owes_callRest hinner _ _).widen.mono (by decide)))
  · exact .behind .give
  · exact .behind ((owes_parenthesised hinner _).widen.mono (by decide))
  · exact .give

/-- Where an expression can start a token is consumed, and of those behind it at most two faults are
owed: there may be nothing in the parentheses and no end of them. -/
theorem owes_simple_of_starts {t : Token} (ht : starts t) (hunary : ∀ op, t ≠ .unary op)
    (h : (t :: ts).length ≤ base.length) : Owes ts 2 (simple inner (t :: ts) h) := by
  generalize hus : t :: ts = us at h
  unfold simple
  split
  · cases hus
    exact .give
  · cases hus
    exact .behind ((owes_callRest hinner _ _).widen.mono (by decide))
  · cases hus
    exact .give
  · cases hus
    exact (owes_parenthesised hinner _).widen
  -- no other token starts an operand
  · next hliteral hcall hname hparenthesis =>
    cases hus
    cases t with
    | literal d => exact (hliteral d ts h rfl HEq.rfl).elim
    | identifier x => exact (hname x ts h rfl HEq.rfl).elim
    | unary op => exact absurd rfl (hunary op)
    | punctuation p =>
      cases p with
      | leftParenthesis => exact (hparenthesis ts h rfl HEq.rfl).elim
      | _ => cases ht
    | _ => cases ht

theorem owes_signed (h : ts.length ≤ base.length) : Owes ts 0 (signed inner ts h) := by
  unfold signed
  split
  · exact .behind (((owes_simple hinner _).orReport _).map.mono (by decide))
  · exact owes_simple hinner _

theorem owes_signed_of_starts {t : Token} (ht : starts t) (h : (t :: ts).length ≤ base.length) :
    Owes ts 2 (signed inner (t :: ts) h) := by
  cases t with
  | unary op => exact ((owes_simple hinner _).orReport _).map.mono (by decide)
  | _ => exact owes_simple_of_starts hinner ht nofun h

omit hinner in
/-- A conversion owes what its operand owes: the word pays for a type that is missing. -/
theorem owes_conversion {h : ts.length ≤ base.length} (hfirst : Owes start k (signed inner ts h)) :
    Owes start k (conversion inner ts h) := by
  refine hfirst.andThen (l := 0) fun e us hu => ?_
  cases e with
  | none => exact .give
  | some e =>
    dsimp only
    split
    · exact .behind (((owes_type _).orReport _).map.mono (by decide))
    · exact .give

theorem owes_product {h : ts.length ≤ base.length} (hfirst : Owes start k (signed inner ts h)) :
    Owes start k (product inner ts h) :=
  owes_chain (fun _ _ => owes_conversion (owes_signed hinner _)) (owes_conversion hfirst)

theorem owes_sum {h : ts.length ≤ base.length} (hfirst : Owes start k (signed inner ts h)) :
    Owes start k (sum inner ts h) :=
  owes_chain (fun _ _ => owes_product hinner (owes_signed hinner _)) (owes_product hinner hfirst)

/-- A replacement of null owes what its first operand owes. -/
theorem owes_alternative {h : ts.length ≤ base.length} (hfirst : Owes start k (signed inner ts h)) :
    Owes start k (alternative inner ts h) := by
  refine (owes_sum hinner hfirst).andThen (l := 0) fun left us hu => ?_
  cases left with
  | none => exact .give
  | some left =>
    dsimp only
    split
    · exact .behind (((hinner _ _).orReport _).map.mono (by decide))
    · exact .give

theorem owes_comparison {h : ts.length ≤ base.length} (hfirst : Owes start k (signed inner ts h)) :
    Owes start k (comparison inner ts h) :=
  owes_pair (fun _ _ => owes_alternative hinner (owes_signed hinner _))
    (owes_alternative hinner hfirst)

theorem owes_conjunction {h : ts.length ≤ base.length} (hfirst : Owes start k (signed inner ts h)) :
    Owes start k (conjunction inner ts h) :=
  owes_chain (fun _ _ => owes_comparison hinner (owes_signed hinner _))
    (owes_comparison hinner hfirst)

theorem owes_disjunction {h : ts.length ≤ base.length} (hfirst : Owes start k (signed inner ts h)) :
    Owes start k (disjunction inner ts h) :=
  owes_chain (fun _ _ => owes_conjunction hinner (owes_signed hinner _))
    (owes_conjunction hinner hfirst)

end

/-- **An expression owes nothing**: the tokens that it consumes pay for all its faults. -/
theorem owes_expression (ts : List Token) : Owes ts 0 (expression ts) := by
  -- induction on the tokens left, of which a parenthesis has fewer inside
  induction hn : ts.length using Nat.strongRecOn generalizing ts with
  | ind n ih =>
    subst hn
    have hinner : ∀ us, us.length < ts.length → Owes us 0 (expression us) :=
      fun us hus => ih us.length hus us rfl
    rw [expression]
    exact owes_disjunction hinner (owes_signed hinner _)

/-- Where an expression can start a token is consumed, be there an expression or not. -/
theorem owes_expression_of_starts {t : Token} (ht : starts t) (ts : List Token) :
    Owes ts 2 (expression (t :: ts)) := by
  have hinner (us : List Token) (_ : us.length < (t :: ts).length) : Owes us 0 (expression us) :=
    owes_expression us
  rw [expression]
  exact owes_disjunction hinner (owes_signed_of_starts hinner ht _)

-- ---------------------------------------------------------------------------
-- Statements
-- ---------------------------------------------------------------------------

/-- A condition owes three faults: two parentheses and the expression between them. -/
theorem owes_condition (ts : List Token) : Owes ts 3 (condition ts) := by
  refine (owes_expect ts _ _).andThen (l := 2) fun _ us hu => ?_
  refine ((owes_expression us).orReport _).andThen (l := 1) fun e vs hv => ?_
  exact (owes_expect vs _ _).map

section

variable {base ts : List Token} {inner : Below base (Attempt Statement)}
  (hinner : ∀ us h, Owes us 0 (inner us h))

include hinner

/-- The statements of a block owe nothing. -/
theorem owes_statements (h : ts.length < base.length) : Owes ts 0 (statements inner ts h) := by
  -- induction on the tokens left, behind a statement
  induction hn : ts.length using Nat.strongRecOn generalizing ts with
  | ind n ih =>
    subst hn
    rw [statements]
    refine (hinner ts h).andThen (l := 0) fun s us hu => ?_
    cases s with
    | absent => exact .give
    | malformed => exact (ih us.length (Nat.lt_of_succ_le hu) _ rfl).map
    | parsed s => exact (ih us.length (Nat.lt_of_succ_le hu) _ rfl).map

theorem owes_block (cause : GrammarFault) (h : ts.length < base.length) :
    Owes ts 2 (block inner cause ts h) := by
  refine (owes_expect ts _ _).andThen (l := 1) fun _ us hu => ?_
  refine (owes_statements hinner _).andThen (l := 1) fun body vs hv => ?_
  exact (owes_expect vs _ _).map

/-- What follows `else` owes nothing, since the word pays for the braces. -/
theorem owes_elseBlock (h : ts.length < base.length) : Owes ts 0 (elseBlock inner ts h) := by
  refine owes_eat_andThen (fun us hu => ?_) fun _ => .give
  exact (owes_block hinner _ _).map.mono (by decide)

/-- A conditional owes its condition and its block. -/
theorem owes_branch (h : ts.length < base.length) : Owes ts 5 (branch inner ts h) := by
  refine (owes_condition ts).andThen (l := 2) fun c us hu => ?_
  refine (owes_block hinner _ _).andThen (l := 0) fun body vs hv => ?_
  exact (owes_elseBlock hinner _).map

/-- A loop owes its condition and its block. -/
theorem owes_loop (h : ts.length < base.length) : Owes ts 5 (loop inner ts h) := by
  refine (owes_condition ts).andThen (l := 2) fun c us hu => ?_
  exact (owes_block hinner _ _).map

end

/-- An initial value owes nothing, since the sign before it pays. -/
theorem owes_initialValue (ts : List Token) : Owes ts 0 (initialValue ts) := by
  refine owes_eat_andThen (fun us hu => ?_) fun _ => .give
  exact ((owes_expression us).orReport _).map.mono (by decide)

/-- A declaration owes its type and its name, one of which stops it. -/
theorem owes_declaration (isConst : Bool) (ts : List Token) :
    Owes ts 2 (declaration isConst ts) := by
  refine ((owes_type ts).orReport _).andThen (l := 1) fun t us hu => ?_
  cases t with
  | none => exact .give
  | some t =>
    refine ((owes_name us).orReport _).andThen (l := 0) fun n vs hv => ?_
    cases n with
    | none => exact .give
    | some n => exact (owes_initialValue vs).map

/-- An assignment owes its value, and its target if that is no name. -/
theorem owes_assignment (target : Expr) (ts : List Token) : Owes ts 2 (assignment target ts) := by
  have hvalue := (owes_expression ts).orReport .missingExpression
  unfold assignment
  split
  · exact hvalue.map.mono (by decide)
  · exact hvalue.map.noting _

/-- An expression or an assignment owes nothing. -/
theorem owes_expressionStatement (ts : List Token) : Owes ts 0 (expressionStatement ts) := by
  refine (owes_expression ts).andThen (l := 0) fun e us hu => ?_
  cases e with
  | none => exact .give
  | some e =>
    dsimp only
    split
    · exact .behind ((owes_assignment _ _).map.mono (by decide))
    · exact .give

/-- The token by which something was recognised pays for seven faults in it. -/
theorem owes_introduced {α : Type} {t : Token} {ts start : List Token} {k : Nat}
    {r : Parsed ts (Option α)} (h : Owes start k r) :
    Owes start k (introduced r : Parsed (t :: ts) (Attempt α)) :=
  h.map

/-- A statement owes nothing, since its first word pays. -/
theorem owes_statementWith {base ts : List Token} {inner : Below base (Attempt Statement)}
    (hinner : ∀ us h, Owes us 0 (inner us h)) (h : ts.length ≤ base.length) :
    Owes ts 0 (statementWith inner ts h) := by
  unfold statementWith
  split
  -- by the first token: conditional, loop, return, two kinds of declaration, expression
  · exact .behind (owes_introduced ((owes_branch hinner _).mono (by decide)))
  · exact .behind (owes_introduced ((owes_loop hinner _).mono (by decide)))
  · exact .behind ((owes_expression _).map.mono (Nat.zero_le _))
  · exact .behind (owes_introduced ((owes_declaration _ _).mono (by decide)))
  · exact .behind (owes_introduced ((owes_declaration _ _).mono (by decide)))
  · exact owes_expressionStatement _

/-- **A statement owes nothing.** -/
theorem owes_statement (ts : List Token) : Owes ts 0 (statement ts) := by
  -- induction on the tokens left, of which a block has fewer inside
  induction hn : ts.length using Nat.strongRecOn generalizing ts with
  | ind n ih =>
    subst hn
    rw [statement]
    exact owes_statementWith (fun us hus => ih us.length hus us rfl) _

-- ---------------------------------------------------------------------------
-- Functions
-- ---------------------------------------------------------------------------

/-- A list of parameters owes the type and the name of its last one. -/
theorem owes_someParameters (ts : List Token) : Owes ts 2 (someParameters ts) := by
  -- induction on the tokens left, behind a comma, which pays for the parameter behind it
  induction hn : ts.length using Nat.strongRecOn generalizing ts with
  | ind n ih =>
    subst hn
    rw [someParameters]
    refine ((owes_type ts).orReport _).andThen (l := 1) fun t us hu => ?_
    refine ((owes_name us).orReport _).andThen (l := 0) fun n vs hv => ?_
    split
    · next ws hv =>
      have hlt : ws.length < ts.length := by
        have : ws.length + 1 ≤ us.length := Nat.le_of_add_right_le hv
        have : us.length ≤ ts.length := Nat.le_of_add_right_le hu
        omega
      exact .behind ((ih ws.length hlt ws rfl).map.mono (by decide))
    · exact .give

theorem owes_parameters (ts : List Token) : Owes ts 2 (parameters ts) := by
  unfold parameters
  split
  · exact .give
  · exact owes_someParameters ts

/-- The type of the result owes nothing, since the arrow pays for it. -/
theorem owes_resultType (ts : List Token) : Owes ts 0 (resultType ts) := by
  refine owes_eat_andThen (fun us hu => ?_) fun _ => .give
  exact ((owes_type us).orReport _).map.mono (by decide)

/-- The body of a function owes its two braces. -/
theorem owes_functionBody (ts : List Token) : Owes ts 2 (functionBody ts) :=
  owes_block (fun us _ => owes_statement us) _ _

/-- Behind the name six faults can be owed: two parentheses, the type and the name of a parameter,
and two braces. -/
theorem owes_functionRest_of_name {ts : List Token} {k : Nat}
    (hname : Owes ts k ((name ts).orReport .invalidFunction)) :
    Owes ts (k + 6) (functionRest ts) := by
  refine hname.andThen (l := 6) fun n us hu => ?_
  refine (owes_expect us _ _).andThen (l := 5) fun _ vs hv => ?_
  refine (owes_parameters vs).andThen (l := 3) fun ps ws hw => ?_
  refine (owes_expect ws _ _).andThen (l := 2) fun _ xs hx => ?_
  refine (owes_resultType xs).andThen (l := 2) fun t ys hy => ?_
  exact (owes_functionBody ys).map

theorem owes_functionRest (ts : List Token) : Owes ts 7 (functionRest ts) :=
  owes_functionRest_of_name ((owes_name ts).orReport _)

/-- **A function owes nothing**: the word `fun` pays for all that is missing. -/
theorem owes_function (ts : List Token) : Owes ts 0 (function ts) := by
  unfold function
  split
  · exact .behind (owes_introduced (owes_functionRest _))
  · exact .give

/-- Without a name there is no function. -/
theorem cost_functionRest_le (ts : List Token) :
    cost (functionRest ts).value ≤ cost (name ts).value := by
  have hname : ((name ts).orReport .invalidFunction).value = (name ts).value := by
    unfold Parsed.orReport
    split <;> rfl
  rw [← hname]
  exact cost_functionOf_le _ _ _ _

/-- A function that is kept has a name, so the lack of one is not owed. -/
theorem owes_function_of_parsed {ts : List Token} {f : Function}
    (h : (function ts).value = .parsed f) :
    ∃ us, ts = .keyword .fun_ :: us ∧ Owes us 6 (function ts) := by
  unfold function at h ⊢
  split at h
  · next us =>
    -- a function is there, so its name was there, and is not reported as missing
    have hfound : (functionRest us).value ≠ none := by
      intro hnone
      have hmalformed : (.ofOption (functionRest us).value : Attempt Function) = .parsed f := h
      rw [hnone] at hmalformed
      cases hmalformed
    have hcost : cost (name us).value ≠ 0 := by
      have hle := cost_functionRest_le us
      have hpos : cost (functionRest us).value = 1 := by
        obtain ⟨g, hg⟩ := Option.ne_none_iff_exists'.mp hfound
        rw [hg]
        rfl
      omega
    have hname : Owes us 0 ((name us).orReport .invalidFunction) := by
      unfold Parsed.orReport
      rw [if_neg hcost]
      exact owes_name us
    exact ⟨us, rfl, owes_introduced (owes_functionRest_of_name hname)⟩
  · cases h

-- ---------------------------------------------------------------------------
-- Programs
-- ---------------------------------------------------------------------------

/-- **A program owes nothing** up to where reading stops. -/
theorem owes_program (known : List String) (ts : List Token) : Owes ts 0 (program known ts) := by
  -- A function that is kept may turn out to be a duplicate. It owes one fault less than the others,
  -- so its first word pays for that, too.
  induction hn : ts.length using Nat.strongRecOn generalizing known ts with
  | ind n ih =>
    subst hn
    rw [program]
    cases hvalue : (function ts).value with
    | parsed f =>
      obtain ⟨us, rfl, hf⟩ := owes_function_of_parsed hvalue
      refine .behind (hf.andThenFrom (l := 1) hvalue fun vs hv => ?_)
      dsimp only
      split
      · exact (ih _ hv known vs rfl).widen.noting _
      · exact (ih _ hv _ vs rfl).map.mono (Nat.zero_le 1)
    | malformed =>
      refine (owes_function ts).andThenFrom (l := 0) hvalue fun us hu => ?_
      exact (ih _ hu known us rfl).widen
    | absent =>
      refine (owes_function ts).andThenFrom (l := 0) hvalue fun us hu => ?_
      have hus : us.length ≤ ts.length := hu
      refine (owes_statement us).andThen (l := 0) fun s vs hv => ?_
      cases s with
      | parsed s => exact (ih _ (Nat.lt_of_lt_of_le hv hus) known vs rfl).map
      | malformed => exact (ih _ (Nat.lt_of_lt_of_le hv hus) known vs rfl).widen
      | absent => exact .give

/-- The last fault is owed: nothing is consumed behind the token at which reading stopped. -/
theorem owes_wholeProgram (ts : List Token) : Owes ts 1 (wholeProgram ts) := by
  have h := owes_program [] ts
  unfold wholeProgram
  dsimp only
  split
  · exact h.mono (Nat.zero_le 1)
  · exact h.report _

/-- An attempt at something that is there leaves fewer tokens. -/
theorem length_rest_lt_of_attempt {α : Type} {ts : List Token} {r : Parsed ts (Attempt α)}
    (h : r.value ≠ .absent) : r.rest.length < ts.length := by
  have hbounded := r.bounded
  have hcost : cost r.value = 1 := by
    cases hvalue : r.value with
    | absent => exact absurd hvalue h
    | malformed => rfl
    | parsed a => rfl
  omega

end Parsed

-- ---------------------------------------------------------------------------
-- Texts
-- ---------------------------------------------------------------------------

/-- What is left behind a walk is the end of what was there. -/
theorem Walk.exists_used {ts us : List Token} {fs : List Fault} (h : Walk ts fs us) :
    ∃ used, used ++ us = ts := by
  -- induction on the walk
  induction h with
  | stop => exact ⟨[], rfl⟩
  | @consume t _ _ _ _ ih =>
    obtain ⟨used, rfl⟩ := ih
    exact ⟨t :: used, rfl⟩
  | notice _ ih => exact ih

/-- One reading is taken for each token that is consumed, and one more to look ahead. -/
theorem interleave_take {last left : Nat} (rs : List Reading) (faults : List Fault)
    (h : last ≤ left) :
    interleave last left (rs.take (left - last + 1)) faults = interleave last left rs faults := by
  -- induction on the readings, one for each token that is consumed
  induction rs generalizing left faults with
  | nil => rfl
  | cons r rs ih =>
    rw [List.take_succ_cons, interleave, interleave]
    split
    · rfl
    · next hmore =>
      have hcount : left - last = left - 1 - last + 1 := by omega
      rw [hcount, ih _ (by omega)]

/-- **Reading makes progress, and its cascade of faults is bounded.** A program is read from every
text. Every attempt that lets a loop go on leaves fewer tokens. The tokens of the text other than
comments are consumed one after the other, from the first on, and one reading is taken for each and
one more to look ahead. At most seven faults for each consumed token are reported, and one more. -/
theorem fault_cascade_is_bounded (limits : Limits) (source : String) :
    (∀ ts, ((Parsed.function ts).value ≠ .absent → (Parsed.function ts).rest.length < ts.length) ∧
      ((Parsed.statement ts).value ≠ .absent → (Parsed.statement ts).rest.length < ts.length)) ∧
    let tokens := codeTokens limits source.toList
    let parsed := Parsed.wholeProgram tokens
    (parseSource limits source).program = parsed.value ∧
      Walk tokens parsed.faults parsed.rest ∧
      ∃ used, used ++ parsed.rest = tokens ∧
        (parseSource limits source).errors = interleave parsed.rest.length tokens.length
          ((significant (readings limits source.toList)).take (used.length + 1)) parsed.faults ∧
        (grammarErrors limits source).length ≤ 7 * used.length + 1 ∧
        (grammarErrors limits source).length ≤ 7 * tokens.length + 1 := by
  refine ⟨fun ts => ⟨Parsed.length_rest_lt_of_attempt, Parsed.length_rest_lt_of_attempt⟩, ?_⟩
  intro tokens parsed
  have hwalk : Walk tokens parsed.faults parsed.rest := Parsed.walk_wholeProgram tokens
  obtain ⟨used, hused⟩ := hwalk.exists_used
  have hlength : used.length + parsed.rest.length = tokens.length := by
    rw [← List.length_append, hused]
  -- the errors of the grammar are the faults of the tokens, one by one
  have hcount : (grammarErrors limits source).length = parsed.faults.length := by
    have hnoticed := (noticed_noticedIn limits source).length_eq
    rw [noticedIn, List.length_map] at hnoticed
    exact hnoticed.symm
  have howed : parsed.faults.length + 7 * parsed.rest.length ≤ 7 * tokens.length + 1 :=
    (Parsed.owes_wholeProgram tokens).le
  refine ⟨by rw [parseSource_eq], hwalk, used, hused, ?_, by omega, by omega⟩
  have htaken : used.length + 1 = tokens.length - parsed.rest.length + 1 := by omega
  rw [htaken, interleave_take _ _ hwalk.length_le, parseSource_eq]

/-- One token consumed, with all that can be missing behind it, and one token left. -/
example : (grammarErrors .default "fun else").length = 7 * 1 + 1 := by decide +kernel

end NullScript
