import NullScript.Proofs.FaultBudget
import NullScript.Proofs.ReadsBackProgram

/-!
# NullScript — what an attempt promises

An attempt at a function or statement is absent if nothing was consumed, and malformed if something
was consumed, reported and dropped. Functions keep this promise. Statements break it in one case: an
expression that is given up behind its first token is an absent statement, though tokens are gone
and faults have been reported. Reading then stops there, even if a statement follows.

* `Parsed.Honours` — the promise.
* `Parsed.GivenUp` — the tokens from which a statement breaks it.
* `honours_function`, `honours_statement_iff` — functions and statements.
* `attempts_honour_promise` — both, and where reading stops.
-/

namespace NullScript

/-- Some tokens were consumed, from the first on. -/
def Consumed (ts us : List Token) : Prop := ∃ used, used ≠ [] ∧ used ++ us = ts

/-- If fewer tokens are left, then some were consumed from the first on. -/
theorem Walk.consumed {ts us : List Token} {fs : List Fault} (h : Walk ts fs us)
    (hlt : us.length < ts.length) : Consumed ts us := by
  obtain ⟨used, rfl⟩ := h.exists_used
  refine ⟨used, ?_, rfl⟩
  rintro rfl
  exact Nat.lt_irrefl _ hlt

namespace Parsed

variable {α β : Type} [Cost α] [Cost β] {ts us start : List Token}

/-- What an attempt promises. -/
structure Honours {γ : Type} (r : Parsed ts (Attempt γ)) : Prop where
  absent : r.value = .absent → r.rest = ts ∧ r.faults = []
  malformed : r.value = .malformed → Consumed ts r.rest ∧ r.faults ≠ []
  parsed : ∀ a, r.value = .parsed a → Consumed ts r.rest

/-- What was recognised has consumed tokens, and if it was dropped then faults were reported. -/
theorem honours_of_reads {γ : Type} {P : List Token → γ → Prop} {r : Parsed ts (Attempt γ)}
    (hr : Reads ts r (Attempted P)) (habsent : r.value = .absent → r.rest = ts ∧ r.faults = []) :
    Honours r where
  absent := habsent
  malformed := by
    intro hvalue
    -- an attempt that is not absent has consumed a token
    have hlt : r.rest.length < ts.length :=
      length_rest_lt_of_attempt (by rw [hvalue]; exact nofun)
    refine ⟨hr.walk.consumed hlt, fun hclean => ?_⟩
    -- without a fault something would have been derived, but nothing was kept
    obtain ⟨used, -, hused⟩ := hr.derived hclean
    rw [hvalue] at hused
    exact hused
  parsed := by
    intro a hvalue
    exact hr.walk.consumed (length_rest_lt_of_attempt (by rw [hvalue]; exact nofun))

theorem ofOption_ne_absent {γ : Type} (o : Option γ) : Attempt.ofOption o ≠ .absent := by
  cases o <;> exact nofun

/-- An attempt at something that was introduced by its first token is not absent. -/
theorem introduced_ne_absent {γ : Type} {t : Token} {r : Parsed ts (Option γ)} :
    (introduced r : Parsed (t :: ts) (Attempt γ)).value ≠ .absent :=
  ofOption_ne_absent r.value

-- ---------------------------------------------------------------------------
-- Functions
-- ---------------------------------------------------------------------------

/-- Functions keep the promise. -/
theorem honours_function (ts : List Token) : Honours (function ts) := by
  refine honours_of_reads (reads_function ts) fun hvalue => ?_
  unfold function at hvalue ⊢
  split at hvalue
  · exact absurd hvalue introduced_ne_absent
  · exact ⟨rfl, rfl⟩

-- ---------------------------------------------------------------------------
-- Statements
-- ---------------------------------------------------------------------------

/-- Words that start a statement. -/
def introducesStatement : Token → Bool
  | .keyword .if_ | .keyword .while_ | .keyword .return_ | .keyword .var | .keyword .const => true
  | _ => false

/-- A statement that its word introduces is not absent. -/
theorem statement_ne_absent_of_introduces {t : Token} (ht : introducesStatement t)
    (ts : List Token) : (statement (t :: ts)).value ≠ .absent := by
  unfold introducesStatement at ht
  rw [statement]
  split at ht
  · exact introduced_ne_absent
  · exact introduced_ne_absent
  · exact ofOption_ne_absent (some _)
  · exact introduced_ne_absent
  · exact introduced_ne_absent
  · cases ht

/-- Without such a word it is an expression or an assignment. -/
theorem statement_eq_expressionStatement
    (hts : ∀ t ∈ ts.head?, introducesStatement t = false) :
    statement ts = expressionStatement ts := by
  rw [statement]
  unfold statementWith
  split
  · exact absurd (hts _ rfl) (by decide)
  · exact absurd (hts _ rfl) (by decide)
  · exact absurd (hts _ rfl) (by decide)
  · exact absurd (hts _ rfl) (by decide)
  · exact absurd (hts _ rfl) (by decide)
  · rfl

/-- Without an expression there is no statement, and nothing else happens. -/
theorem expressionStatement_of_none (h : (expression ts).value = none) :
    (expressionStatement ts).value = .absent ∧
      (expressionStatement ts).faults = (expression ts).faults ∧
      (expressionStatement ts).rest = (expression ts).rest := by
  unfold expressionStatement andThen
  dsimp only
  split
  · exact ⟨rfl, List.append_nil _, rfl⟩
  · next heq _ =>
    rw [h] at heq
    cases heq

/-- An expression without a statement has been given up. -/
theorem expression_of_absent (h : (expressionStatement ts).value = .absent) :
    (expression ts).value = none := by
  unfold expressionStatement andThen at h
  dsimp only at h
  split at h
  · next heq _ => exact heq
  · split at h
    · exact absurd h (ofOption_ne_absent _)
    · cases h

/-- An expression starts with the next token, but what was read of it is dropped. -/
structure GivenUp (ts : List Token) : Prop where
  starts : ∃ t us, ts = t :: us ∧ Parsed.starts t
  value : (expression ts).value = none

/-- A statement that was given up is absent, but tokens were consumed and faults reported. -/
theorem statement_of_givenUp (h : GivenUp ts) :
    (statement ts).value = .absent ∧ (statement ts).rest = (expression ts).rest ∧
      Consumed ts (statement ts).rest ∧ (statement ts).faults ≠ [] := by
  -- the token is none of the words that introduce a statement
  obtain ⟨t, us, rfl, ht⟩ := h.starts
  have hword : introducesStatement t = false := by
    cases t with
    | keyword k => cases ht
    | _ => rfl
  have hstatement : statement (t :: us) = expressionStatement (t :: us) :=
    statement_eq_expressionStatement fun _ hu => by cases hu; exact hword
  obtain ⟨hvalue, -, hrest⟩ := expressionStatement_of_none h.value
  rw [← hstatement] at hvalue hrest
  -- the expression has consumed its first token at least, and without a fault it would be there
  have hread := reads_statement (t :: us)
  have hlt : (statement (t :: us)).rest.length < us.length + 1 := by
    rw [hrest]
    exact Nat.lt_succ_of_le ((owes_expression_of_starts ht us).length_rest_le (by decide))
  refine ⟨hvalue, hrest, hread.walk.consumed hlt, fun hclean => ?_⟩
  obtain ⟨used, hused, hattempt⟩ := hread.derived hclean
  rw [hvalue] at hattempt
  obtain rfl : used = [] := hattempt
  have hlength : (statement (t :: us)).rest.length = us.length + 1 := congrArg List.length hused
  exact Nat.ne_of_lt hlt hlength

/-- No statement starts with the token. -/
def StartsNone (t : Token) : Prop := introducesStatement t = false ∧ starts t = false

/-- Where no statement starts, it is absent: nothing is consumed or reported. -/
theorem statement_of_startsNone (h : ∀ t ∈ ts.head?, StartsNone t) :
    Yields (statement ts) .absent ts := by
  rw [statement_eq_expressionStatement fun t ht => (h t ht).1]
  exact yields_expressionStatement_absent fun t ht => (h t ht).2

/-- Where a statement is absent it was given up, or none starts there. -/
theorem startsNone_of_absent (h : (statement ts).value = .absent) (hts : ¬GivenUp ts) :
    ∀ t ∈ ts.head?, StartsNone t := by
  intro t ht
  cases ts with
  | nil => cases ht
  -- the token introduces no statement, so an expression was tried, and it was not given up
  | cons u us =>
    cases ht
    have hword : introducesStatement t = false := by
      by_contra hword
      exact statement_ne_absent_of_introduces (eq_true_of_ne_false hword) us h
    rw [statement_eq_expressionStatement fun _ hu => by cases hu; exact hword] at h
    refine ⟨hword, eq_false_of_ne_true fun ht => hts ?_⟩
    exact ⟨⟨t, us, rfl, ht⟩, expression_of_absent h⟩

/-- Statements keep the promise unless an expression is given up. -/
theorem honours_statement (hts : ¬GivenUp ts) : Honours (statement ts) := by
  refine honours_of_reads (reads_statement ts) fun hvalue => ?_
  have hyields := statement_of_startsNone (startsNone_of_absent hvalue hts)
  exact ⟨hyields.rest, hyields.faults⟩

-- ---------------------------------------------------------------------------
-- Where reading stops
-- ---------------------------------------------------------------------------

/-- Some function or statement starts with the token, perhaps one that comes out malformed. -/
def CanStart (t : Token) : Prop :=
  ∃ us, (function (t :: us)).value ≠ .absent ∨ (statement (t :: us)).value ≠ .absent

/-- A token that neither introduces a statement nor starts an expression starts nothing. -/
theorem not_canStart {t : Token} (hword : t ≠ .keyword .fun_) (ht : StartsNone t) :
    ¬CanStart t := by
  rintro ⟨us, hfunction | hstatement⟩
  · refine hfunction (yields_function_none fun hhead => hword ?_).value
    exact Option.some.inj hhead
  · refine hstatement (statement_of_startsNone fun u hu => ?_).value
    cases hu
    exact ht

/-- Where a function is absent its word does not stand. -/
theorem head?_ne_of_function_absent (h : (function ts).value = .absent) :
    ts.head? ≠ some (.keyword .fun_) := by
  intro hhead
  unfold function at h
  split at h
  · exact introduced_ne_absent h
  · next hother =>
    cases ts with
    | nil => cases hhead
    | cons t us =>
      cases hhead
      exact hother us rfl

/-- Reading stops behind the last statement that was tried, which is absent like the function there.
What it reported is reported last. -/
def StopsBehind (ts : List Token) (r : Parsed us α) : Prop :=
  ∃ last, last <:+ ts ∧ (function last).value = .absent ∧ (statement last).value = .absent ∧
    r.rest = (statement last).rest ∧ (statement last).faults <:+ r.faults

namespace StopsBehind

/-- Reading stops where the second routine stops, which goes on behind the first. -/
theorem andThenFrom {r : Parsed us α} {a : α}
    {f : (a : α) → (rest : List Token) → rest.length + cost a ≤ us.length → Parsed ts β}
    (hr : r.rest <:+ start) (ha : r.value = a) (hf : ∀ h, StopsBehind r.rest (f a r.rest h)) :
    StopsBehind start (r.andThen f) := by
  subst ha
  obtain ⟨last, hlast, hfunction, hstatement, hrest, hfaults⟩ := hf r.bounded
  exact ⟨last, hlast.trans hr, hfunction, hstatement, hrest,
    hfaults.trans (List.suffix_append _ _)⟩

/-- What has been read is made into something else. -/
theorem map {r : Parsed us α} {f : α → β}
    {h : ∀ a (rest : List Token), rest.length + cost a ≤ us.length →
      rest.length + cost (f a) ≤ ts.length}
    (hr : StopsBehind start r) :
    StopsBehind start (r.andThen fun a rest hrest => .give (f a) rest (h a rest hrest)) := by
  obtain ⟨last, hlast, hfunction, hstatement, hrest, hfaults⟩ := hr
  refine ⟨last, hlast, hfunction, hstatement, hrest, ?_⟩
  show (statement last).faults <:+ r.faults ++ []
  rwa [List.append_nil]

theorem widen {r : Parsed us α} {h : us.length ≤ ts.length} (hr : StopsBehind start r) :
    StopsBehind start (r.widen h) :=
  hr

/-- A fault noted in front does not change which fault is the last. -/
theorem noting {r : Parsed ts α} (hr : StopsBehind start r) (cause : GrammarFault) :
    StopsBehind start (r.noting cause us) := by
  obtain ⟨last, hlast, hfunction, hstatement, hrest, hfaults⟩ := hr
  exact ⟨last, hlast, hfunction, hstatement, hrest, hfaults.trans (List.suffix_cons _ _)⟩

/-- There is nothing more to try. -/
theorem stop {a : Attempt Statement}
    {f : (a : Attempt Statement) → (rest : List Token) →
      rest.length + cost a ≤ ts.length → Parsed us β}
    (hfunction : (function ts).value = .absent) (ha : (statement ts).value = a)
    (habsent : a = .absent)
    (hf : ∀ rest h, (f a rest h).rest = rest ∧ (f a rest h).faults = []) :
    StopsBehind ts ((statement ts).andThen f) := by
  subst ha
  obtain ⟨hrest, hfaults⟩ := hf (statement ts).rest (statement ts).bounded
  refine ⟨ts, List.suffix_refl ts, hfunction, habsent, hrest, ?_⟩
  show (statement ts).faults <:+ (statement ts).faults ++ _
  simp [hfaults]

end StopsBehind

/-- **The top-level loop stops behind an attempt** at a function and a statement that are both
absent. -/
theorem stopsBehind_program (known : List String) (ts : List Token) :
    StopsBehind ts (program known ts) := by
  -- What is read before the last attempt only adds faults in front and leaves fewer tokens.
  induction hn : ts.length using Nat.strongRecOn generalizing known ts with
  | ind n ih =>
    subst hn
    have hrest (known : List String) (us : List Token) (h : us.length < ts.length) :=
      ih us.length h known us rfl
    have hsuffix : (function ts).rest <:+ ts := (reads_function ts).walk.exists_used
    rw [program]
    -- a function was read, or dropped, or is absent; then a statement is tried at the same tokens
    cases hvalue : (function ts).value with
    | parsed f =>
      refine .andThenFrom hsuffix hvalue fun hu => ?_
      dsimp only
      split
      · exact (hrest known _ hu).widen.noting _
      · exact (hrest _ _ hu).map
    | malformed =>
      exact .andThenFrom hsuffix hvalue fun hu => (hrest known _ hu).widen
    | absent =>
      have hsame := ((honours_function ts).absent hvalue).1
      refine .andThenFrom hsuffix hvalue fun hu => ?_
      have hsuffix' := (reads_statement (function ts).rest).walk.exists_used
      cases hvalue' : (statement (function ts).rest).value with
      | parsed s =>
        refine .andThenFrom hsuffix' hvalue' fun hv => ?_
        exact (hrest known _ (Nat.lt_of_lt_of_le hv hu)).map
      | malformed =>
        refine .andThenFrom hsuffix' hvalue' fun hv => ?_
        exact (hrest known _ (Nat.lt_of_lt_of_le hv hu)).widen
      -- neither is there, so this was the last attempt
      | absent =>
        exact .stop (by rw [hsame]; exact hvalue) hvalue' rfl fun _ _ => ⟨rfl, rfl⟩

-- ---------------------------------------------------------------------------
-- Both kinds of attempts
-- ---------------------------------------------------------------------------

/-- Statements break the promise if an expression is given up. -/
theorem honours_statement_iff : Honours (statement ts) ↔ ¬GivenUp ts := by
  refine ⟨fun h hgiven => ?_, honours_statement⟩
  obtain ⟨hvalue, -, -, hfaults⟩ := statement_of_givenUp hgiven
  exact hfaults (h.absent hvalue).2

/-- **Attempts keep their promise, but for expressions that are given up.** Functions always keep
it, statements do unless an expression starts and is dropped; then the statement is absent though
tokens were consumed and faults reported. Reading stops at a token with which neither a function nor
a statement can start, or behind such a statement. -/
theorem attempts_honour_promise (known : List String) (ts : List Token) :
    Honours (function ts) ∧ (Honours (statement ts) ↔ ¬GivenUp ts) ∧
      (GivenUp ts → (statement ts).value = .absent ∧
        Consumed ts (statement ts).rest ∧ (statement ts).faults ≠ []) ∧
      ((∀ t ∈ (program known ts).rest.head?, ¬CanStart t) ∨
        ∃ last, last <:+ ts ∧ GivenUp last ∧ (program known ts).rest = (expression last).rest ∧
          (statement last).faults <:+ (program known ts).faults) := by
  refine ⟨honours_function ts, honours_statement_iff, fun hts => ?_, ?_⟩
  · -- what a statement reports though it is absent
    obtain ⟨hvalue, -, hconsumed, hfaults⟩ := statement_of_givenUp hts
    exact ⟨hvalue, hconsumed, hfaults⟩
  · -- where the loop stops: behind a statement that was given up, or where nothing can start
    obtain ⟨last, hlast, hfunction, hstatement, hrest, hfaults⟩ := stopsBehind_program known ts
    by_cases hgiven : GivenUp last
    · obtain ⟨-, hexpression, -, -⟩ := statement_of_givenUp hgiven
      exact .inr ⟨last, hlast, hgiven, hrest.trans hexpression, hfaults⟩
    · have hnone := startsNone_of_absent hstatement hgiven
      rw [hrest, (statement_of_startsNone hnone).rest]
      refine .inl fun t ht => not_canStart ?_ (hnone t ht)
      rintro rfl
      exact head?_ne_of_function_absent hfunction ht

end Parsed

/-- Parentheses without an expression, and a statement behind them. -/
def emptyParentheses : String := "() 1"

/-- There is no statement at the first token, but two tokens are consumed and a fault is reported.
Reading stops there, at a token with which a statement can start. -/
theorem absent_behind_empty_parentheses :
    let tokens := codeTokens .default emptyParentheses.toList
    (Parsed.statement tokens).value = .absent ∧
      Consumed tokens (Parsed.statement tokens).rest ∧ (Parsed.statement tokens).faults ≠ [] ∧
      ∃ t ∈ (Parsed.wholeProgram tokens).rest.head?, Parsed.CanStart t := by
  intro tokens
  have htokens : tokens =
      [.punctuation .leftParenthesis, .punctuation .rightParenthesis, .literal (.int 1)] := by
    decide +kernel
  -- the parenthesis starts an expression, which is missing inside
  have hgiven : Parsed.GivenUp tokens := by
    rw [htokens]
    exact ⟨⟨_, _, rfl, rfl⟩, Option.isNone_iff_eq_none.mp (by decide +kernel)⟩
  obtain ⟨hvalue, -, hconsumed, hfaults⟩ := Parsed.statement_of_givenUp hgiven
  refine ⟨hvalue, hconsumed, hfaults, .literal (.int 1), ?_, [], .inr fun habsent => ?_⟩
  · rw [htokens]
    decide +kernel
  · rw [Parsed.statement_eq_expressionStatement (by decide)] at habsent
    have hnone := Parsed.expression_of_absent habsent
    exact absurd (Option.isNone_iff_eq_none.mpr hnone) (by decide +kernel)

end NullScript
