import NullScript.Proofs.Simulation

/-!
# NullScript — evaluation that comes to its end

What an expression means does not depend on the bound on the number of steps. `Evaluates` says how
an expression ends if the bound is large enough, and `EvaluatesAll` with which values expressions
end that are evaluated one after the other.

* `Evaluates.unique` — an expression ends in one way at most.
* `Expr.SameEffect` — in every state two expressions end in the same way, or neither of them ends.
* `sameEffect_of_follows` — so they do if each of them does, with one step more, what the other
  one does.
-/

namespace NullScript

open NullScript.Action (Follows)

variable {α : Type} {setting : Setting} {e e' : Expr} {s t u : State} {r r' : Answer Value}

/-- Evaluated in the state `s`, the expression ends with the answer `r` if the bound on the number
of steps is large enough. -/
def Evaluates (setting : Setting) (e : Expr) (s : State) (r : Answer Value) : Prop :=
  r ≠ .unfinished ∧ ∃ steps, evaluate setting steps e s = r

/-- In every state the expressions end with the same value or failure and leave the same state, or
neither of them ends. -/
def Expr.SameEffect (setting : Setting) (e e' : Expr) : Prop :=
  ∀ s r, Evaluates setting e s r ↔ Evaluates setting e' s r

/-- Evaluated one after the other from the state `s`, the expressions end with these values, and
the last one leaves the state `t`. -/
inductive EvaluatesAll (setting : Setting) : List Expr → State → List Value → State → Prop where
  | nil {s : State} : EvaluatesAll setting [] s [] s
  | cons {e : Expr} {es : List Expr} {s t u : State} {v : Value} {vs : List Value} :
    Evaluates setting e s (.done v t) → EvaluatesAll setting es t vs u →
      EvaluatesAll setting (e :: es) s (v :: vs) u

-- ---------------------------------------------------------------------------
-- One expression
-- ---------------------------------------------------------------------------

theorem evaluates_literal (d : Datum) (s : State) :
    Evaluates setting (.literal d) s (.done (.ofDatum d) s) :=
  ⟨nofun, 1, rfl⟩

/-- From some bound on, every evaluation ends with the answer. -/
theorem Evaluates.eventually (h : Evaluates setting e s r) :
    ∃ enough, ∀ steps, enough ≤ steps → evaluate setting steps e s = r := by
  obtain ⟨hr, enough, rfl⟩ := h
  refine ⟨enough, fun steps hle => ?_⟩
  exact ((follows_more_steps setting hle).1 e s s rfl).eq hr

/-- **An expression ends in one way at most.** -/
theorem Evaluates.unique (h : Evaluates setting e s r) (h' : Evaluates setting e s r') :
    r = r' := by
  obtain ⟨n, hn⟩ := h.eventually
  obtain ⟨n', hn'⟩ := h'.eventually
  exact (hn (max n n') (Nat.le_max_left n n')).symm.trans (hn' _ (Nat.le_max_right n n'))

/-- The numbers say how many steps more each of the expressions is given. -/
theorem Evaluates.of_follows {k l : Nat}
    (hfollows : ∀ n, Follows (· = none) Eq (evaluate setting (n + k) e)
      (evaluate setting (n + l) e')) (h : Evaluates setting e s r) :
    Evaluates setting e' s r := by
  obtain ⟨n, hn⟩ := h.eventually
  have hr := hn (n + k) (Nat.le_add_right n k)
  refine ⟨h.1, n + l, ?_⟩
  rw [(hfollows n s s rfl).eq (hr ▸ h.1), hr]

/-- Each of the expressions does what the other one does, with some steps more. -/
theorem sameEffect_of_follows {i j k l : Nat}
    (hto : ∀ n, Follows (· = none) Eq (evaluate setting (n + i) e) (evaluate setting (n + j) e'))
    (hfrom : ∀ n, Follows (· = none) Eq (evaluate setting (n + k) e')
      (evaluate setting (n + l) e)) :
    e.SameEffect setting e' :=
  fun _ _ => ⟨Evaluates.of_follows hto, Evaluates.of_follows hfrom⟩

/-- It is enough that both do the same with enough steps. -/
theorem sameEffect_of_eq {k l : Nat}
    (h : ∀ n, evaluate setting (n + k) e = evaluate setting (n + l) e') :
    e.SameEffect setting e' := by
  refine sameEffect_of_follows (i := k) (j := l) (k := l) (l := k) (fun n => ?_) (fun n => ?_)
  · rw [h n]
    exact Action.follows_refl _
  · rw [h n]
    exact Action.follows_refl _

-- ---------------------------------------------------------------------------
-- Actions made of evaluations
-- ---------------------------------------------------------------------------

/-- What is made of evaluations ends in the same way when these are given more steps. -/
def Steady (setting : Setting) (m : (Expr → Action Value) → Action α) : Prop :=
  ∀ ⦃n n' : Nat⦄, n ≤ n' →
    Follows (· = none) Eq (m (evaluate setting n)) (m (evaluate setting n'))

theorem steady_evaluate (setting : Setting) (e : Expr) : Steady setting fun eval => eval e :=
  fun _ _ hle => (follows_more_steps setting hle).1 e

theorem steady_evaluateLogical (setting : Setting) (decisive : Bool) (es : List Expr) :
    Steady setting fun eval => evaluateLogical eval decisive es :=
  fun _ _ hle => follows_evaluateLogical decisive fun e _ => steady_evaluate setting e hle

theorem steady_evaluateChain {Op : Type} (setting : Setting)
    (apply : Value → Op → Value → Except Failure Value) (v : Value) (rest : List (Op × Expr)) :
    Steady setting fun eval => evaluateChain eval apply v rest :=
  fun _ _ hle => follows_evaluateChain apply v fun e _ => steady_evaluate setting e hle

/-- An expression that evaluates a first part of its operands with one step less than the others
has the same effect as one that does not. -/
theorem sameEffect_of_start (start : (Expr → Action Value) → Action Value)
    (rest : (Expr → Action Value) → Value → Action Value) (hstart : Steady setting start)
    (hrest : ∀ v, Steady setting fun eval => rest eval v)
    (hnested : ∀ n, evaluate setting (n + 2) e =
      start (evaluate setting n) >>= rest (evaluate setting (n + 1)))
    (hflat : ∀ n, evaluate setting (n + 1) e' =
      start (evaluate setting n) >>= rest (evaluate setting n)) :
    e.SameEffect setting e' := by
  refine sameEffect_of_follows (i := 2) (j := 2) (k := 1) (l := 2) (fun n => ?_) (fun n => ?_)
  · -- the rest of the nested expression has one step more already
    rw [hnested, hflat]
    exact (hstart (Nat.le_succ n)).bind fun v => Action.follows_refl _
  · -- the rest of the flat expression is given one step more
    rw [hnested, hflat]
    exact (Action.follows_refl _).bind fun v => hrest v (Nat.le_succ n)

-- ---------------------------------------------------------------------------
-- Expressions one after the other
-- ---------------------------------------------------------------------------

/-- If all expressions end with a value, then the first one does, and the others behind it. -/
theorem evaluateAll_cons_eq_done {eval : Expr → Action Value} {es : List Expr}
    {vs : List Value} (h : evaluateAll eval (e :: es) s = .done vs u) :
    ∃ v t ws, eval e s = .done v t ∧ evaluateAll eval es t = .done ws u ∧ vs = v :: ws := by
  rw [evaluateAll, Action.bind_apply] at h
  -- neither the first expression nor the others are stuck or fail
  cases hv : eval e s with
  | unfinished => rw [hv] at h; cases h
  | failed why t => rw [hv] at h; cases h
  | done v t =>
    rw [hv] at h
    dsimp only at h
    rw [Action.bind_apply] at h
    cases hws : evaluateAll eval es t with
    | unfinished => rw [hws] at h; cases h
    | failed why u => rw [hws] at h; cases h
    | done ws u =>
      rw [hws] at h
      cases h
      exact ⟨v, t, ws, rfl, hws, rfl⟩

/-- There are as many values as expressions. -/
theorem EvaluatesAll.length_eq {es : List Expr} {vs : List Value}
    (h : EvaluatesAll setting es s vs t) : es.length = vs.length := by
  induction h with
  | nil => rfl
  | cons _ _ ih => exact congrArg Nat.succ ih

/-- From some bound on, all of the expressions end with these values. -/
theorem EvaluatesAll.eventually {es : List Expr} {vs : List Value}
    (h : EvaluatesAll setting es s vs t) :
    ∃ enough, ∀ steps, enough ≤ steps →
      evaluateAll (evaluate setting steps) es s = .done vs t := by
  -- induction on the expressions, with a bound that is enough for the first and for the others
  induction h with
  | nil => exact ⟨0, fun _ _ => rfl⟩
  | cons he _ ih =>
    obtain ⟨n, hn⟩ := he.eventually
    obtain ⟨n', hn'⟩ := ih
    refine ⟨max n n', fun steps hle => ?_⟩
    rw [evaluateAll, Action.bind_apply, hn steps (by omega)]
    dsimp only
    rw [Action.bind_apply, hn' steps (by omega)]
    rfl

end NullScript
