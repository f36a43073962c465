import NullScript.Program.Source

/-!
# NullScript — reading looks one token ahead

What is read from a list of tokens depends on the tokens that are consumed and on the next one, and
otherwise only on how many there are. So the same is read from another list that differs further
behind. Both lists are followed by one relation, with a rule for each way to put routines together.

* `SameAbove`, `SameAhead` — tokens that differ in the last ones only.
* `Parsed.Agrees` — the same is read if that ends before the difference.
* `agrees_expression` — the routines for expressions.
-/

namespace NullScript

-- ---------------------------------------------------------------------------
-- Tokens that differ in the last ones
-- ---------------------------------------------------------------------------

/-- As many tokens, and the same ones except for the last `k`. -/
inductive SameAbove (k : Nat) : List Token → List Token → Prop
  | last {ts us : List Token} : us.length = ts.length → ts.length ≤ k → SameAbove k ts us
  | cons {t : Token} {ts us : List Token} : SameAbove k ts us → SameAbove k (t :: ts) (t :: us)

/-- The first tokens are also the same, if there are any. -/
inductive SameAhead (k : Nat) : List Token → List Token → Prop
  | nil : SameAhead k [] []
  | cons {t : Token} {ts us : List Token} : SameAbove k ts us → SameAhead k (t :: ts) (t :: us)

section

variable {k : Nat} {ts us : List Token}

/-- Tokens are the same as themselves, whatever may differ. -/
theorem SameAbove.refl (k : Nat) (ts : List Token) : SameAbove k ts ts := by
  induction ts with
  | nil => exact .last rfl (Nat.zero_le k)
  | cons t ts ih => exact .cons ih

theorem SameAhead.refl (k : Nat) (ts : List Token) : SameAhead k ts ts := by
  cases ts with
  | nil => exact .nil
  | cons t ts => exact .cons (.refl k ts)

/-- The other list has as many tokens. -/
theorem SameAbove.length_eq (h : SameAbove k ts us) : us.length = ts.length := by
  induction h with
  | last hlength _ => exact hlength
  | cons _ ih => exact congrArg Nat.succ ih

/-- If none may differ, then the tokens are the same. -/
theorem SameAbove.eq (h : SameAbove 0 ts us) : us = ts := by
  induction h with
  | last hlength hle =>
    have hts := List.length_eq_zero_iff.mp (Nat.le_zero.mp hle)
    rw [hts] at hlength ⊢
    exact List.length_eq_zero_iff.mp hlength
  | cons _ ih => rw [ih]

/-- The next token is the same if more than the last ones are left. -/
theorem SameAbove.ahead (h : SameAbove k ts us) (hk : k < ts.length) : SameAhead k ts us := by
  cases h with
  | last _ hle => exact absurd hle (Nat.not_le_of_lt hk)
  | cons h => exact .cons h

/-- Tokens whose first are the same are the same above the last ones. -/
theorem SameAhead.above (h : SameAhead k ts us) : SameAbove k ts us := by
  cases h with
  | nil => exact .refl k []
  | cons h => exact .cons h

theorem SameAhead.head?_eq (h : SameAhead k ts us) : us.head? = ts.head? := by
  cases h <;> rfl

end

-- ---------------------------------------------------------------------------
-- Rules of composition
-- ---------------------------------------------------------------------------

namespace Parsed

variable {α β : Type} [Cost α] [Cost β] {k : Nat} {ts ts' us us' start : List Token}
  {cause : GrammarFault}

/-- No more than the first tokens are left. If more than the last `k` are, then the second reading
is the first one. -/
structure Agrees (k : Nat) (start : List Token) (r : Parsed ts α) (r' : Parsed ts' α) : Prop where
  length_le : r.rest.length ≤ start.length
  value : k < r.rest.length → r'.value = r.value
  faults : k < r.rest.length → r'.faults = r.faults
  rest : k < r.rest.length → SameAbove k r.rest r'.rest

namespace Agrees

/-- Readings that end at once agree if they leave the same tokens. -/
theorem give {a : α} {rest rest' : List Token} {h : rest.length + cost a ≤ ts.length}
    {h' : rest'.length + cost a ≤ ts'.length} (hrest : SameAbove k rest rest') :
    Agrees k rest (.give a rest h : Parsed ts α) (.give a rest' h' : Parsed ts' α) :=
  ⟨Nat.le_refl _, fun _ => rfl, fun _ => rfl, fun _ => hrest⟩

/-- Nothing is said if no more than the last tokens are left. -/
theorem of_le {r : Parsed ts α} {r' : Parsed ts' α} (hlength : r.rest.length ≤ start.length)
    (hk : r.rest.length ≤ k) : Agrees k start r r' where
  length_le := hlength
  value := fun h => absurd hk (Nat.not_le_of_lt h)
  faults := fun h => absurd hk (Nat.not_le_of_lt h)
  rest := fun h => absurd hk (Nat.not_le_of_lt h)

/-- It may be assumed that the next token is the same. Otherwise no more than the last tokens are
left, which is seen from reading the first list in the second way. -/
theorem of_ahead {P : List Token → Prop} {base : List Token → List Token} {r : Parsed ts α}
    {f : (us : List Token) → P us → Parsed (base us) α} {us : List Token}
    (h : SameAbove k start us) (hus : P us) (hstart : P start)
    (hahead : ∀ us hus, SameAhead k start us → Agrees k start r (f us hus)) :
    Agrees k start r (f us hus) := by
  by_cases hk : k < start.length
  · exact hahead us hus (h.ahead hk)
  · have hself := (hahead start hstart (.refl k start)).length_le
    exact .of_le hself (Nat.le_trans hself (Nat.le_of_not_lt hk))

/-- What is read next may rely on the next token. -/
theorem andThen {r : Parsed us α} {r' : Parsed us' α}
    {f : (a : α) → (rest : List Token) → rest.length + cost a ≤ us.length → Parsed ts β}
    {f' : (a : α) → (rest : List Token) → rest.length + cost a ≤ us'.length → Parsed ts' β}
    (hr : Agrees k start r r') (hus : SameAbove k us us')
    (hf : ∀ a rest rest' h h', SameAhead k rest rest' →
      Agrees k rest (f a rest h) (f' a rest' h')) :
    Agrees k start (r.andThen f) (r'.andThen f') := by
  by_cases hk : k < r.rest.length
  · -- more than the last tokens are left: the same was read, and what follows starts alike
    obtain ⟨value', faults', rest', bounded'⟩ := r'
    have hvalue : value' = r.value := hr.value hk
    have hfaults : faults' = r.faults := hr.faults hk
    subst hvalue hfaults
    have hx := hf r.value r.rest rest' r.bounded bounded' ((hr.rest hk).ahead hk)
    exact ⟨Nat.le_trans hx.length_le hr.length_le, hx.value,
      fun hk => congrArg (r.faults ++ ·) (hx.faults hk), hx.rest⟩
  · -- the first reading has come too far already, and what follows only goes further
    have hx := hf r.value r.rest r.rest r.bounded (hus.length_eq ▸ r.bounded) (.refl k _)
    have hle := Nat.le_trans hx.length_le (Nat.le_of_not_lt hk)
    exact .of_le (Nat.le_trans hx.length_le hr.length_le) hle

/-- Nothing more is read. -/
theorem thenGive {r : Parsed us α} {r' : Parsed us' α} (hr : Agrees k start r r')
    (hus : SameAbove k us us') {f : α → β}
    {h : ∀ a (rest : List Token), rest.length + cost a ≤ us.length →
      rest.length + cost (f a) ≤ ts.length}
    {h' : ∀ a (rest : List Token), rest.length + cost a ≤ us'.length →
      rest.length + cost (f a) ≤ ts'.length} :
    Agrees k start (r.andThen fun a rest hrest => .give (f a) rest (h a rest hrest))
      (r'.andThen fun a rest hrest => .give (f a) rest (h' a rest hrest)) :=
  hr.andThen hus fun _ _ _ _ _ hrest => .give hrest.above

/-- A fault reported in place of a value is reported at the same token. -/
theorem orReport {r : Parsed ts α} {r' : Parsed ts' α} (h : Agrees k start r r')
    (cause : GrammarFault) : Agrees k start (r.orReport cause) (r'.orReport cause) := by
  by_cases hk : k < r.rest.length
  · obtain ⟨value', faults', rest', bounded'⟩ := r'
    have hvalue : value' = r.value := h.value hk
    have hfaults : faults' = r.faults := h.faults hk
    have hrest : SameAbove k r.rest rest' := h.rest hk
    subst hvalue hfaults
    unfold Parsed.orReport
    dsimp only
    rw [hrest.length_eq]
    split
    · exact ⟨h.length_le, fun _ => rfl, fun _ => rfl, fun _ => hrest⟩
    · exact h
  · -- no more than the last tokens are left, with or without the fault
    have hle := Nat.le_of_not_lt hk
    unfold Parsed.orReport
    split <;> exact .of_le h.length_le hle

/-- A fault noted at a token is noted at the same one. -/
theorem noting {r : Parsed ts α} {r' : Parsed ts' α} (h : Agrees k start r r')
    (hus : SameAbove k us us') :
    Agrees k start (r.noting cause us) (r'.noting cause us') := by
  refine ⟨h.length_le, h.value, fun hk => ?_, h.rest⟩
  show ⟨cause, us'.length⟩ :: r'.faults = _
  rw [hus.length_eq, h.faults hk]
  rfl

theorem widen {r : Parsed us α} {r' : Parsed us' α} {h : us.length ≤ ts.length}
    {h' : us'.length ≤ ts'.length} (hr : Agrees k start r r') :
    Agrees k start (r.widen h) (r'.widen h') :=
  ⟨hr.length_le, hr.value, hr.faults, hr.rest⟩

/-- A token is consumed before. -/
theorem behind {t : Token} {r : Parsed ts α} {r' : Parsed ts' α} (h : Agrees k start r r') :
    Agrees k (t :: start) r r' :=
  ⟨Nat.le_succ_of_le h.length_le, h.value, h.faults, h.rest⟩

end Agrees

-- ---------------------------------------------------------------------------
-- Tokens and types
-- ---------------------------------------------------------------------------

/-- It may be assumed that the next token is the same. -/
theorem agrees_of_ahead {f : (ts : List Token) → Parsed ts α}
    (hf : ∀ {ts ts'}, SameAhead k ts ts' → Agrees k ts (f ts) (f ts'))
    (h : SameAbove k ts ts') : Agrees k ts (f ts) (f ts') :=
  .of_ahead (P := fun _ => True) h trivial trivial fun _ _ hahead => hf hahead

/-- One token is consumed or left alike. -/
theorem agrees_eat (t : Token) (h : SameAbove k ts ts') : Agrees k ts (eat t ts) (eat t ts') := by
  refine agrees_of_ahead (fun {ts ts'} h => ?_) h
  -- the token of the lookahead is in both lists or in none
  cases h with
  | nil => exact .give (.refl k [])
  | cons h =>
    unfold eat
    dsimp only
    split
    · exact .behind (.give h)
    · exact .give (.cons h)

theorem agrees_expect (p : Punctuation) (cause : GrammarFault) (h : SameAbove k ts ts') :
    Agrees k ts (expect p cause ts) (expect p cause ts') :=
  (agrees_eat _ h).orReport cause

/-- A name is read alike. -/
theorem agrees_name (h : SameAbove k ts ts') : Agrees k ts (name ts) (name ts') := by
  refine agrees_of_ahead (fun {ts ts'} h => ?_) h
  cases h with
  | nil => exact .give (.refl k [])
  | @cons t ts us h =>
    cases t with
    | identifier x => exact .behind (.give h)
    | _ => exact .give (.cons h)

/-- A type is read alike. Behind its word it is the next token that tells whether it is nullable. -/
theorem agrees_type (h : SameAbove k ts ts') : Agrees k ts (type ts) (type ts') := by
  refine agrees_of_ahead (fun {ts ts'} h => ?_) h
  cases h with
  | nil => exact .give (.refl k [])
  | @cons t ts us h =>
    cases t with
    | keyword word =>
      unfold type
      dsimp only
      cases baseOf word with
      | none => exact .give (.cons h)
      | some base =>
        exact .behind ((agrees_eat _ h).thenGive h)
    | _ => exact .give (.cons h)

-- ---------------------------------------------------------------------------
-- Chains
-- ---------------------------------------------------------------------------

section

variable {base base' : List Token}

/-- The same is read from tokens that are not more than given ones. -/
def AgreeWithin (k : Nat) (f : Within base α) (f' : Within base' α) : Prop :=
  ∀ ts ts' h h', SameAbove k ts ts' → Agrees k ts (f ts h) (f' ts' h')

/-- The same is read from tokens that are fewer than given ones. -/
def AgreeBelow (k : Nat) (f : Below base α) (f' : Below base' α) : Prop :=
  ∀ ts ts' h h', SameAbove k ts ts' → Agrees k ts (f ts h) (f' ts' h')

variable (hbase : base'.length = base.length) {Op : Type} {op? : Token → Option Op}
  {operand : Within base (Option Expr)} {operand' : Within base' (Option Expr)}
  (hoperand : AgreeWithin k operand operand')

include hbase hoperand

/-- The operands behind the first of a chain are read alike, if a single one is. -/
theorem agrees_operands : AgreeWithin k (operands op? operand) (operands op? operand') := by
  intro ts ts' h h' hts
  -- by induction on the number of tokens, since behind an operand there are fewer
  induction hn : ts.length using Nat.strongRecOn generalizing ts ts' with
  | ind n ih =>
    subst hn
    refine .of_ahead (P := (·.length ≤ base'.length)) hts h' (hbase ▸ h) fun us h' hahead => ?_
    cases hahead with
    | nil =>
      rw [operands, operands]
      exact .give (.refl k [])
    | @cons t ts us hus =>
      rw [operands, operands]
      -- the token of the lookahead tells whether another operand follows
      cases op? t with
      | none => exact .give (.cons hus)
      | some op =>
        refine .behind (((hoperand ts us _ _ hus).orReport _).andThen hus ?_)
        intro e vs vs' hv hv' hvs
        cases e with
        | none => exact .give hvs.above
        | some e =>
          have hlt : vs.length < ts.length := hv
          exact (ih vs.length (Nat.lt_succ_of_lt hlt) vs vs' _ _ hvs.above rfl).thenGive
            hvs.above

/-- A chain is read alike, if its operands are. -/
theorem agrees_chain (make : Expr → List (Op × Expr) → Expr) :
    AgreeWithin k (chain op? make operand) (chain op? make operand') := by
  intro ts ts' h h' hts
  refine (hoperand ts ts' h h' hts).andThen hts ?_
  intro first us us' hu hu' hus
  cases first with
  | none => exact .give hus.above
  | some first =>
    exact (agrees_operands hbase hoperand us us' _ _ hus.above).thenGive hus.above

omit hbase in
/-- Two operands with an operator between them are read alike, if the operands are. -/
theorem agrees_pair (make : Expr → Op → Expr → Expr) {right : Within base (Option Expr)}
    {right' : Within base' (Option Expr)} (hright : AgreeWithin k right right') :
    AgreeWithin k (pair op? make operand right) (pair op? make operand' right') := by
  intro ts ts' h h' hts
  refine (hoperand ts ts' h h' hts).andThen hts ?_
  intro first us us' hu hu' hus
  cases first with
  | none => exact .give hus.above
  | some first =>
    -- the token behind the first operand is the same, and only an operator is consumed
    cases hus with
    | nil => exact .give (.refl k [])
    | @cons t vs vs' hvs =>
      dsimp only
      cases op? t with
      | none => exact .give (.cons hvs)
      | some op =>
        exact .behind (((hright vs vs' _ _ hvs).orReport _).thenGive hvs)

end

-- ---------------------------------------------------------------------------
-- Expressions
-- ---------------------------------------------------------------------------

theorem agrees_closing (h : SameAbove k ts ts') : Agrees k ts (closing ts) (closing ts') :=
  (agrees_eat _ h).orReport _

section

variable {base base' : List Token} (hbase : base'.length = base.length)
  {inner : Below base (Option Expr)} {inner' : Below base' (Option Expr)}
  (hinner : AgreeBelow k inner inner')

include hbase hinner

/-- The further arguments of a call are read alike. -/
theorem agrees_moreArguments : AgreeBelow k (moreArguments inner) (moreArguments inner') := by
  intro ts ts' h h' hts
  -- induction on the tokens left: a comma stands before each argument
  induction hn : ts.length using Nat.strongRecOn generalizing ts ts' with
  | ind n ih =>
    subst hn
    refine .of_ahead (P := (·.length < base'.length)) hts h' (hbase ▸ h) fun us h' hahead => ?_
    cases hahead with
    | nil =>
      rw [moreArguments, moreArguments]
      exact .give (.refl k [])
    | @cons t ts us hus =>
      rw [moreArguments, moreArguments]
      split
      · refine .behind (((hinner ts us _ _ hus).orReport _).andThen hus ?_)
        intro e vs vs' hv hv' hvs
        have hle : vs.length ≤ ts.length := Nat.le_of_add_right_le hv
        exact (ih vs.length (Nat.lt_succ_of_le hle) vs vs' _ _ hvs.above rfl).thenGive
          hvs.above
      · exact .give (.cons hus)

/-- The arguments of a call are read alike. -/
theorem agrees_arguments : AgreeBelow k (arguments inner) (arguments inner') := by
  intro ts ts' h h' hts
  refine (hinner ts ts' h h' hts).andThen hts ?_
  intro first us us' hu hu' hus
  cases first with
  | none => exact .give hus.above
  | some first =>
    exact (agrees_moreArguments hbase hinner us us' _ _ hus.above).thenGive hus.above

/-- What stands behind the opening parenthesis of a call is read alike. -/
theorem agrees_callRest (name : String) :
    AgreeBelow k (callRest inner name) (callRest inner' name) := by
  intro ts ts' h h' hts
  refine (agrees_arguments hbase hinner ts ts' h h' hts).andThen hts ?_
  intro es us us' _ _ hus
  exact (agrees_closing hus.above).thenGive hus.above

omit hbase in
/-- What stands behind any other opening parenthesis is read alike. -/
theorem agrees_parenthesised : AgreeBelow k (parenthesised inner) (parenthesised inner') := by
  intro ts ts' h h' hts
  refine ((hinner ts ts' h h' hts).orReport _).andThen hts ?_
  intro e us us' _ _ hus
  exact (agrees_closing hus.above).thenGive hus.above

/-- Behind a name it is the next token that tells whether the name is called. -/
theorem agrees_simple_name (x : String) (h : (.identifier x :: ts).length ≤ base.length)
    (h' : (.identifier x :: ts').length ≤ base'.length) (hts : SameAbove k ts ts') :
    Agrees k (.identifier x :: ts) (simple inner (.identifier x :: ts) h)
      (simple inner' (.identifier x :: ts') h') := by
  refine .behind (.of_ahead (f := fun us h' => simple inner' (.identifier x :: us) h') hts h'
    (hbase ▸ h) fun us h' hahead => ?_)
  cases hahead with
  | nil => exact .give (.refl k [])
  | @cons t vs vs' hvs =>
    cases t with
    | punctuation p =>
      cases p with
      | leftParenthesis =>
        unfold simple
        dsimp only
        exact .behind (.widen (agrees_callRest hbase hinner x vs vs' _ _ hvs))
      | _ => exact .give (.cons hvs)
    | _ => exact .give (.cons hvs)

/-- A literal, a name, a call or an expression in parentheses is read alike: the next token tells
which it is. -/
theorem agrees_simple : AgreeWithin k (simple inner) (simple inner') := by
  intro ts ts' h h' hts
  refine .of_ahead (P := (·.length ≤ base'.length)) hts h' (hbase ▸ h) fun us h' hahead => ?_
  cases hahead with
  | nil => exact .give (.refl k [])
  | @cons t ts us hus =>
    cases t with
    | literal d => exact .behind (.give hus)
    | identifier x =>
      exact agrees_simple_name hbase hinner x h h' hus
    | punctuation p =>
      cases p with
      | leftParenthesis =>
        unfold simple
        dsimp only
        exact .behind (.widen (agrees_parenthesised hinner ts us _ _ hus))
      | _ => exact .give (.cons hus)
    | _ => exact .give (.cons hus)

/-- An operand with or without a sign is read alike. -/
theorem agrees_signed : AgreeWithin k (signed inner) (signed inner') := by
  intro ts ts' h h' hts
  refine .of_ahead (P := (·.length ≤ base'.length)) hts h' (hbase ▸ h) fun us h' hahead => ?_
  -- without a sign it is the operand that is read, from the same tokens
  have hsimple := agrees_simple hbase hinner ts us h h' hahead.above
  cases hahead with
  | nil => exact hsimple
  | @cons t ts us hus =>
    cases t with
    | unary op =>
      unfold signed
      dsimp only
      exact .behind (((agrees_simple hbase hinner ts us _ _ hus).orReport _).thenGive hus)
    | _ => exact hsimple

/-- An operand with or without a conversion is read alike. -/
theorem agrees_conversion : AgreeWithin k (conversion inner) (conversion inner') := by
  intro ts ts' h h' hts
  refine (agrees_signed hbase hinner ts ts' h h' hts).andThen hts ?_
  intro e us us' hu hu' hus
  cases e with
  | none => exact .give hus.above
  | some e =>
    -- the token behind the operand is the same, and only the word of a conversion is consumed
    cases hus with
    | nil => exact .give (.refl k [])
    | @cons t vs vs' hvs =>
      cases t with
      | keyword word =>
        cases word with
        | as_ =>
          exact .behind (((agrees_type hvs).orReport _).thenGive hvs)
        | _ => exact .give (.cons hvs)
      | _ => exact .give (.cons hvs)

theorem agrees_product : AgreeWithin k (product inner) (product inner') :=
  agrees_chain hbase (agrees_conversion hbase hinner) _

theorem agrees_sum : AgreeWithin k (sum inner) (sum inner') :=
  agrees_chain hbase (agrees_product hbase hinner) _

/-- An operand with or without a replacement of null is read alike. -/
theorem agrees_alternative : AgreeWithin k (alternative inner) (alternative inner') := by
  intro ts ts' h h' hts
  refine (agrees_sum hbase hinner ts ts' h h' hts).andThen hts ?_
  intro left us us' hu hu' hus
  cases left with
  | none => exact .give hus.above
  | some left =>
    -- the token behind the operand is the same, and only the operator is consumed
    cases hus with
    | nil => exact .give (.refl k [])
    | @cons t vs vs' hvs =>
      cases t with
      | orElse =>
        exact .behind (((hinner vs vs' _ _ hvs).orReport _).thenGive hvs)
      | _ => exact .give (.cons hvs)

theorem agrees_comparison : AgreeWithin k (comparison inner) (comparison inner') :=
  agrees_pair (agrees_alternative hbase hinner) _ (agrees_alternative hbase hinner)

theorem agrees_conjunction : AgreeWithin k (conjunction inner) (conjunction inner') :=
  agrees_chain hbase (agrees_comparison hbase hinner) _

theorem agrees_disjunction : AgreeWithin k (disjunction inner) (disjunction inner') :=
  agrees_chain hbase (agrees_conjunction hbase hinner) _

end

/-- **An expression is read alike** from tokens that differ only behind the one at which reading
stops. -/
theorem agrees_expression (h : SameAbove k ts ts') :
    Agrees k ts (expression ts) (expression ts') := by
  -- induction on the tokens left, of which a parenthesis has fewer inside
  induction hn : ts.length using Nat.strongRecOn generalizing ts ts' with
  | ind n ih =>
    subst hn
    rw [expression, expression]
    -- expressions inside of this one are read from fewer tokens
    exact agrees_disjunction h.length_eq (fun us us' hu _ hus => ih us.length hu hus rfl)
      ts ts' _ _ h

end Parsed

end NullScript
