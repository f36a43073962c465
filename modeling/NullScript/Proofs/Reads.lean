import NullScript.Program.Source
import NullScript.Proofs.Grammar

/-!
# NullScript — what is read is derived or reported

Reading a construct consumes tokens one after the other and notices faults where it stands. If it
notices none, then the tokens that it consumed are the construct that it gives, and if it gives
nothing, it consumed nothing. Both hold of the routine for each construct, given that they hold of
the routines that it calls.

* `Walk` — consuming tokens and noticing faults.
* `Parsed.Reads` — what a routine does, with its rules of composition.
* `reads_expression`, `reads_statement`, `reads_function`, `reads_program` — the routines.
-/

namespace NullScript

-- ---------------------------------------------------------------------------
-- Walks
-- ---------------------------------------------------------------------------

/-- From the first tokens on, tokens are consumed and faults noticed until the last ones are left.
-/
inductive Walk : List Token → List Fault → List Token → Prop
  | stop {ts : List Token} : Walk ts [] ts
  | consume {t : Token} {ts us : List Token} {fs : List Fault} :
    Walk ts fs us → Walk (t :: ts) fs us
  | notice {cause : GrammarFault} {ts us : List Token} {fs : List Fault} :
    Walk ts fs us → Walk ts (⟨cause, ts.length⟩ :: fs) us

namespace Walk

variable {ts us vs : List Token} {fs gs : List Fault}

/-- One walk and then another. -/
theorem trans (h : Walk ts fs us) (h' : Walk us gs vs) : Walk ts (fs ++ gs) vs := by
  induction h with
  | stop => exact h'
  | consume _ ih => exact .consume (ih h')
  | notice _ ih => exact .notice (ih h')

/-- A walk leaves no more tokens than there were. -/
theorem length_le (h : Walk ts fs us) : us.length ≤ ts.length := by
  induction h with
  | stop => exact Nat.le_refl _
  | consume _ ih => exact Nat.le_succ_of_le ih
  | notice _ ih => exact ih

/-- Faults are noticed between the first and the last tokens. -/
theorem left_le (h : Walk ts fs us) : ∀ f ∈ fs, us.length ≤ f.left ∧ f.left ≤ ts.length := by
  induction h with
  | stop => exact fun f hf => nomatch hf
  | consume _ ih => exact fun f hf => ⟨(ih f hf).1, Nat.le_succ_of_le (ih f hf).2⟩
  | notice h ih => exact List.forall_mem_cons.mpr ⟨⟨h.length_le, Nat.le_refl _⟩, ih⟩

end Walk

-- ---------------------------------------------------------------------------
-- Rules of composition
-- ---------------------------------------------------------------------------

namespace Parsed

variable {α β : Type} [Cost α] [Cost β] {ts us start : List Token} {cause : GrammarFault}
  {P : List Token → α → Prop} {Q : List Token → β → Prop}

/-- What is read from the first tokens on: the faults were noticed on the way to the tokens that
are left, and if there are none then the consumed tokens and the value belong together. -/
structure Reads (start : List Token) (r : Parsed ts α) (P : List Token → α → Prop) : Prop where
  walk : Walk start r.faults r.rest
  derived : r.faults = [] → ∃ used, used ++ r.rest = start ∧ P used r.value

namespace Reads

theorem imp {r : Parsed ts α} {P' : List Token → α → Prop} (h : Reads start r P)
    (hP : ∀ used a, P used a → P' used a) : Reads start r P' :=
  ⟨h.walk, fun hclean => (h.derived hclean).imp fun _ hused => ⟨hused.1, hP _ _ hused.2⟩⟩

theorem give {a : α} {rest : List Token} {h : rest.length + cost a ≤ ts.length} (hP : P [] a) :
    Reads rest (.give a rest h : Parsed ts α) P :=
  ⟨.stop, fun _ => ⟨[], rfl, hP⟩⟩

/-- What is read behind an `a` may rely on how the `a` was read. -/
theorem andThen {r : Parsed us α}
    {f : (a : α) → (rest : List Token) → rest.length + cost a ≤ us.length → Parsed ts β}
    (hr : Reads start r P)
    (hf : ∀ a rest h, Reads rest (f a rest h) fun used' b =>
      ∀ used, P used a → Q (used ++ used') b) :
    Reads start (r.andThen f) Q := by
  obtain ⟨hwalk, hderived⟩ := hr
  obtain ⟨hwalk', hderived'⟩ := hf r.value r.rest r.bounded
  refine ⟨hwalk.trans hwalk', fun hclean => ?_⟩
  obtain ⟨hclean, hclean'⟩ := List.append_eq_nil_iff.mp hclean
  obtain ⟨used, hused, hP⟩ := hderived hclean
  obtain ⟨used', hused', hQ⟩ := hderived' hclean'
  refine ⟨used ++ used', ?_, hQ used hP⟩
  rw [List.append_assoc]
  exact (congrArg (used ++ ·) hused').trans hused

/-- What has been read is made into something else. -/
theorem map {r : Parsed us α} {f : α → β}
    {h : ∀ a (rest : List Token), rest.length + cost a ≤ us.length →
      rest.length + cost (f a) ≤ ts.length}
    (hr : Reads start r P) (hf : ∀ used a, P used a → Q used (f a)) :
    Reads start (r.andThen fun a rest hrest => .give (f a) rest (h a rest hrest)) Q := by
  refine hr.andThen fun a rest hrest => .give fun used hused => ?_
  rw [List.append_nil]
  exact hf used a hused

omit [Cost α] in
/-- Nothing more is read behind an `a`. -/
theorem last {a : α} {b : β} {rest : List Token} {h : rest.length + cost b ≤ ts.length}
    (hQ : ∀ used, P used a → Q used b) :
    Reads rest (.give b rest h : Parsed ts β) fun used' b =>
      ∀ used, P used a → Q (used ++ used') b :=
  .give fun used hused => by rw [List.append_nil]; exact hQ used hused

/-- Something was found if its lack was not reported. -/
theorem orReport {r : Parsed ts α} (h : Reads start r P) (cause : GrammarFault) :
    Reads start (r.orReport cause) fun used a => P used a ∧ cost a ≠ 0 := by
  unfold Parsed.orReport
  split
  · refine ⟨h.walk.trans (.notice .stop), fun hclean => ?_⟩
    exact absurd hclean (List.append_ne_nil_of_right_ne_nil _ (List.cons_ne_nil _ _))
  · next hcost =>
    exact ⟨h.walk, fun hclean =>
      (h.derived hclean).imp fun _ hused => ⟨hused.1, hused.2, hcost⟩⟩

theorem noting {r : Parsed ts α} (h : Reads start r P) (cause : GrammarFault)
    (Q : List Token → α → Prop) : Reads start (r.noting cause start) Q :=
  ⟨.notice h.walk, fun hclean => nomatch hclean⟩

theorem widen {r : Parsed us α} {h : us.length ≤ ts.length} (hr : Reads start r P) :
    Reads start (r.widen h) P :=
  ⟨hr.walk, hr.derived⟩

/-- A token is consumed before. -/
theorem behind {t : Token} {r : Parsed ts α}
    (h : Reads start r fun used a => P (t :: used) a) : Reads (t :: start) r P := by
  refine ⟨.consume h.walk, fun hclean => ?_⟩
  obtain ⟨used, hused, hP⟩ := h.derived hclean
  exact ⟨t :: used, congrArg (t :: ·) hused, hP⟩

end Reads

/-- Nothing was consumed and nothing found, or something was found in the consumed tokens. -/
def Found {γ : Type} (P : List Token → γ → Prop) : List Token → Option γ → Prop
  | used, none => used = []
  | used, some a => P used a

/-- Something was found in the consumed tokens. -/
def Surely {γ : Type} (P : List Token → γ → Prop) (used : List Token) (o : Option γ) : Prop :=
  ∃ a, o = some a ∧ P used a

/-- If an expected construct was not reported as missing, it is there. -/
theorem Reads.required {γ : Type} {P : List Token → γ → Prop} {r : Parsed ts (Option γ)}
    (h : Reads start r (Found P)) (cause : GrammarFault) :
    Reads start (r.orReport cause) (Surely P) := by
  refine (h.orReport cause).imp fun used o ho => ?_
  cases o with
  | none => exact absurd rfl ho.2
  | some a => exact ⟨a, rfl, ho.1⟩

-- ---------------------------------------------------------------------------
-- Tokens and types
-- ---------------------------------------------------------------------------

/-- A token that may stand here is consumed if it does. -/
theorem reads_eat (t : Token) (ts : List Token) :
    Reads ts (eat t ts) fun used found => used = if found then [t] else [] := by
  unfold eat
  split
  · exact .give rfl
  · split
    · next h => rw [h]; exact .behind (.give rfl)
    · exact .give rfl

/-- A sign that must stand here is consumed, or its lack is reported. -/
theorem reads_expect (p : Punctuation) (cause : GrammarFault) (ts : List Token) :
    Reads ts (expect p cause ts) fun used _ => used = [.punctuation p] := by
  refine ((reads_eat (.punctuation p) ts).orReport cause).imp ?_
  rintro used found ⟨rfl, hcost⟩
  cases found with
  | true => rfl
  | false => exact absurd rfl hcost

/-- A name is consumed if one stands here. -/
theorem reads_name (ts : List Token) :
    Reads ts (name ts) (Found fun used x => used = [.identifier x]) := by
  unfold name
  split
  · exact .behind (.give rfl)
  · exact .give rfl

/-- A word names a base type if and only if it is the word of that type. -/
theorem baseOf_eq_some {k : Keyword} {b : Base} : baseOf k = some b ↔ b.word? = some k := by
  cases k <;> cases b <;> decide

/-- A type is read with its question mark, if there is one. -/
theorem reads_type (ts : List Token) : Reads ts (type ts) (Found IsType) := by
  unfold type
  split
  · next k us =>
    split
    · next b hb =>
      have hword := baseOf_eq_some.mp hb
      refine .behind ((reads_eat _ us).map ?_)
      rintro used nullable rfl
      cases nullable with
      | true => exact .nullable hword
      | false => exact .plain hword
    · exact .give rfl
  · exact .give rfl

-- ---------------------------------------------------------------------------
-- Chains
-- ---------------------------------------------------------------------------

/-- Only the token of an additive operator is read as that operator. -/
theorem eq_of_additiveOp {t : Token} {op : AdditiveOp} (h : additiveOp t = some op) :
    t = op.token := by
  unfold additiveOp at h
  split at h
  · cases h
    rfl
  · cases h
    rfl
  · cases h

/-- Only the token of a multiplicative operator is read as that operator. -/
theorem eq_of_multiplicativeOp {t : Token} {op : MultiplicativeOp}
    (h : multiplicativeOp t = some op) : t = .multiplicative op := by
  unfold multiplicativeOp at h
  split at h
  · cases h
    rfl
  · cases h

/-- Only the token of a comparison is read as that comparison. -/
theorem eq_of_comparisonOp {t : Token} {op : ComparisonOp} (h : comparisonOp t = some op) :
    t = .comparison op := by
  unfold comparisonOp at h
  split at h
  · cases h
    rfl
  · cases h

/-- Only the given token is read as the operator of a chain with one operator. -/
theorem eq_of_only {t u : Token} {a : Unit} (h : only t u = some a) : u = t := by
  unfold only at h
  split at h
  · assumption
  · cases h

section

variable {base : List Token} {level weaker : Level} {Op : Type} {op? : Token → Option Op}
  {token : Op → Token} {operand : Within base (Option Expr)}
  (hoperand : ∀ us h, Reads us (operand us h) (Found (IsExpr level)))
  (hop : ∀ t op, op? t = some op → t = token op)

include hoperand hop

/-- The operators of a chain are read with their operands, as long as one follows. -/
theorem reads_operands (ts : List Token) (h : ts.length ≤ base.length) :
    Reads ts (operands op? operand ts h) (AreOperands token level) := by
  -- on the number of tokens left: each operator is one fewer
  induction hn : ts.length using Nat.strongRecOn generalizing ts with
  | ind n ih =>
    subst hn
    cases ts with
    | nil =>
      rw [operands]
      exact .give .nil
    | cons t ts =>
      rw [operands]
      split
      · exact .give .nil
      · next op hopt =>
        rw [hop t op hopt]
        refine .behind (((hoperand ts _).required _).andThen fun e us hu => ?_)
        cases e with
        -- the operand is missing, which was reported
        | none =>
          refine .give ?_
          rintro used ⟨_, hnone, _⟩
          cases hnone
        | some e =>
          have hu : us.length < ts.length := hu
          refine (ih us.length (Nat.lt_succ_of_lt hu) us _ rfl).map ?_
          rintro used' rest hrest used ⟨_, ⟨⟩, he⟩
          exact .cons he hrest

/-- A chain is read with all its operands, and is its operand alone if no operator follows. -/
theorem reads_chain {make : Expr → List (Op × Expr) → Expr} (hnext : weaker.next? = some level)
    (hmake : ∀ ts us e es, IsExpr level ts e → AreOperands token level us es → es ≠ [] →
      IsExpr weaker (ts ++ us) (make e es))
    (ts : List Token) (h : ts.length ≤ base.length) :
    Reads ts (chain op? make operand ts h) (Found (IsExpr weaker)) := by
  unfold chain
  refine (hoperand ts h).andThen fun first us hu => ?_
  cases first with
  | none => exact .last fun used hused => hused
  | some first =>
    refine (reads_operands hoperand hop us _).map ?_
    intro used' others hothers used hfirst
    unfold chainOf
    cases others with
    | nil =>
      -- no operator was consumed
      cases hothers
      rw [List.append_nil]
      exact .stronger hnext hfirst
    | cons other others => exact hmake _ _ _ _ hfirst hothers (List.cons_ne_nil _ _)

end

-- ---------------------------------------------------------------------------
-- Expressions
-- ---------------------------------------------------------------------------

/-- A closing parenthesis is consumed, or its lack is reported. -/
theorem reads_closing (ts : List Token) :
    Reads ts (closing ts) fun used closed =>
      used = [.punctuation .rightParenthesis] ∧ closed = true := by
  refine ((reads_eat (.punctuation .rightParenthesis) ts).orReport _).imp ?_
  rintro used closed ⟨rfl, hcost⟩
  cases closed with
  | true => exact ⟨rfl, rfl⟩
  | false => exact absurd rfl hcost

section

variable {base : List Token} {inner : Below base (Option Expr)}
  (hinner : ∀ us h, Reads us (inner us h) (Found (IsExpr .disjunction)))

include hinner

/-- Further arguments are read, each behind a comma. -/
theorem reads_moreArguments (ts : List Token) (h : ts.length < base.length) :
    Reads ts (moreArguments inner ts h) fun used es => ∃ others : List (Unit × Expr),
      AreOperands (fun _ => .punctuation .comma) .disjunction used others ∧
        es = others.map Prod.snd := by
  induction hn : ts.length using Nat.strongRecOn generalizing ts with
  | ind n ih =>
    subst hn
    cases ts with
    | nil =>
      rw [moreArguments]
      exact .give ⟨[], .nil, rfl⟩
    | cons t ts =>
      rw [moreArguments]
      split
      · next hcomma =>
        rw [hcomma]
        refine .behind (((hinner ts _).required _).andThen fun e us hu => ?_)
        have hu : us.length ≤ ts.length := Nat.le_of_add_right_le hu
        refine (ih us.length (Nat.lt_succ_of_le hu) us _ rfl).map ?_
        rintro used' es ⟨others, hothers, rfl⟩ used ⟨e, rfl, he⟩
        exact ⟨((), e) :: others, .cons he hothers, rfl⟩
      · exact .give ⟨[], .nil, rfl⟩

/-- The arguments and the parenthesis behind them. -/
theorem reads_arguments (name : String) (ts : List Token) (h : ts.length < base.length) :
    Reads ts (arguments inner ts h) fun used es =>
      IsExpr .simple (.identifier name :: .punctuation .leftParenthesis ::
        (used ++ [.punctuation .rightParenthesis])) (.call name es) := by
  refine (hinner ts h).andThen fun first us hu => ?_
  cases first with
  | none =>
    refine .give fun used (hused : used = []) => ?_
    rw [hused]
    exact .emptyCall
  | some first =>
    refine (reads_moreArguments hinner us _).map ?_
    rintro used' others ⟨es, hes, rfl⟩ used hfirst
    exact .call hfirst hes

/-- A call is read behind its name and the opening parenthesis. -/
theorem reads_callRest (name : String) (ts : List Token) (h : ts.length < base.length) :
    Reads ts (callRest inner name ts h) (Surely fun used =>
      IsExpr .simple (.identifier name :: .punctuation .leftParenthesis :: used)) := by
  refine (reads_arguments hinner name ts h).andThen fun es us hu => ?_
  refine (reads_closing us).map ?_
  rintro used' closed ⟨rfl, rfl⟩ used hcall
  exact ⟨_, rfl, hcall⟩

/-- An expression in parentheses is read behind the opening one. -/
theorem reads_parenthesised (ts : List Token) (h : ts.length < base.length) :
    Reads ts (parenthesised inner ts h) (Surely fun used =>
      IsExpr .simple (.punctuation .leftParenthesis :: used)) := by
  refine ((hinner ts h).required _).andThen fun e us hu => ?_
  refine (reads_closing us).map ?_
  rintro used' closed ⟨rfl, rfl⟩ used ⟨e, rfl, he⟩
  exact ⟨e, rfl, .parenthesised he⟩

/-- A simple expression is read. -/
theorem reads_simple (ts : List Token) (h : ts.length ≤ base.length) :
    Reads ts (simple inner ts h) (Found (IsExpr .simple)) := by
  unfold simple
  -- a literal, a call, a name, an expression in parentheses, or nothing
  split
  · exact .behind (.give .literal)
  · next name ts h =>
    refine .behind (.behind (.widen ((reads_callRest hinner name ts _).imp ?_)))
    rintro used o ⟨e, rfl, he⟩
    exact he
  · exact .behind (.give .name)
  · next ts h =>
    refine .behind (.widen ((reads_parenthesised hinner ts h).imp ?_))
    rintro used o ⟨e, rfl, he⟩
    exact he
  · exact .give rfl

/-- A simple expression is read with the sign before it, if there is one. -/
theorem reads_signed (ts : List Token) (h : ts.length ≤ base.length) :
    Reads ts (signed inner ts h) (Found (IsExpr .signed)) := by
  unfold signed
  split
  · next op ts h =>
    refine .behind (((reads_simple hinner ts _).required _).map ?_)
    rintro used o ⟨e, rfl, he⟩
    exact .signed he
  · refine (reads_simple hinner _ h).imp fun used e hfound => ?_
    cases e with
    | none => exact hfound
    | some e => exact .stronger rfl hfound

/-- A signed expression is read with the type it is converted to, if there is one. -/
theorem reads_conversion (ts : List Token) (h : ts.length ≤ base.length) :
    Reads ts (conversion inner ts h) (Found (IsExpr .conversion)) := by
  unfold conversion
  refine (reads_signed hinner ts h).andThen fun e us hu => ?_
  cases e with
  | none => exact .last fun used hused => hused
  | some e =>
    simp only
    split
    · next vs hu =>
      refine .behind (((reads_type vs).required _).map ?_)
      rintro used' o ⟨t, rfl, ht⟩ used he
      exact .conversion he ht
    · exact .last fun used he => .stronger rfl he

theorem reads_product (ts : List Token) (h : ts.length ≤ base.length) :
    Reads ts (product inner ts h) (Found (IsExpr .product)) :=
  reads_chain (reads_conversion hinner) (fun _ _ => eq_of_multiplicativeOp) rfl
    (fun _ _ _ _ => .product) ts h

theorem reads_sum (ts : List Token) (h : ts.length ≤ base.length) :
    Reads ts (sum inner ts h) (Found (IsExpr .sum)) :=
  reads_chain (reads_product hinner) (fun _ _ => eq_of_additiveOp) rfl
    (fun _ _ _ _ => .sum) ts h

/-- A sum is read with what stands in for its `null`, if there is anything. -/
theorem reads_alternative (ts : List Token) (h : ts.length ≤ base.length) :
    Reads ts (alternative inner ts h) (Found (IsExpr .alternative)) := by
  unfold alternative
  refine (reads_sum hinner ts h).andThen fun left us hu => ?_
  cases left with
  | none => exact .last fun used hused => hused
  | some left =>
    simp only
    split
    · next vs hu =>
      refine .behind (((hinner vs _).required _).map ?_)
      rintro used' o ⟨right, rfl, hright⟩ used hleft
      exact .orElse hleft hright
    · exact .last fun used hleft => .stronger rfl hleft

/-- An alternative is read with what it is compared to, if there is anything. -/
theorem reads_comparison (ts : List Token) (h : ts.length ≤ base.length) :
    Reads ts (comparison inner ts h) (Found (IsExpr .comparison)) := by
  unfold comparison pair
  refine (reads_alternative hinner ts h).andThen fun left us hu => ?_
  cases left with
  | none => exact .last fun used hused => hused
  | some left =>
    cases us with
    | nil => exact .last fun used hleft => .stronger rfl hleft
    | cons t vs =>
      simp only
      split
      · exact .last fun used hleft => .stronger rfl hleft
      · next op hop =>
        rw [eq_of_comparisonOp hop]
        refine .behind (((reads_alternative hinner vs _).required _).map ?_)
        rintro used' o ⟨right, rfl, hright⟩ used hleft
        exact .comparison hleft hright

theorem reads_conjunction (ts : List Token) (h : ts.length ≤ base.length) :
    Reads ts (conjunction inner ts h) (Found (IsExpr .conjunction)) :=
  reads_chain (reads_comparison hinner) (fun _ _ => eq_of_only) rfl
    (fun _ _ _ _ => .conjunction) ts h

theorem reads_disjunction (ts : List Token) (h : ts.length ≤ base.length) :
    Reads ts (disjunction inner ts h) (Found (IsExpr .disjunction)) :=
  reads_chain (reads_conjunction hinner) (fun _ _ => eq_of_only) rfl
    (fun _ _ _ _ => .disjunction) ts h

end

/-- **An expression** is read from the tokens it consumes, or nothing is consumed, or a fault is
noticed. -/
theorem reads_expression (ts : List Token) :
    Reads ts (expression ts) (Found (IsExpr .disjunction)) := by
  -- The levels only need to know what stands in parentheses, which has fewer tokens.
  induction hn : ts.length using Nat.strongRecOn generalizing ts with
  | ind n ih =>
    subst hn
    rw [expression]
    exact reads_disjunction (fun us h => ih us.length h us rfl) ts _

end Parsed

end NullScript
