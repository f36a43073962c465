import NullScript.Proofs.Evaluates
import NullScript.Proofs.Reachable

/-!
# NullScript — chains of operators

A chain is kept flat and means what nested operators mean: its operands are evaluated from left to
right, an operator is applied as soon as its right operand is there, and the first failure ends the
chain. So a chain may as well start with a chain of its first operands.

* `evaluateLogical_append`, `evaluateChain_append` — a chain goes on with the value that its first
  operands have by themselves.
* `logical_chains` — `||` and `&&` associate, stop at the operand that decides, and obey De
  Morgan's laws, effects included.
* `operators_associate` — sums and products associate to the left, and `?:` associates.
-/

namespace NullScript

open NullScript.Action (Follows)

variable {setting : Setting} {s t u : State}

-- ---------------------------------------------------------------------------
-- Logical operators
-- ---------------------------------------------------------------------------

/-- A chain of the operator that `true` decides, which is `||`, or of the one that `false` decides,
which is `&&`. -/
def Expr.logical : Bool → Expr → List Expr → Expr
  | true => .disjunction
  | false => .conjunction

/-- How a chain of logical operators goes on behind an operand with the value `v`. -/
def continueLogical (eval : Expr → Action Value) (decisive : Bool) (es : List Expr) (v : Value) :
    Action Value := do
  let b ← .lift v.asBool
  if b = decisive then pure (.bool decisive) else evaluateLogical eval decisive es

section

variable {eval eval' : Expr → Action Value} {decisive : Bool} {e : Expr} {es : List Expr}
  {v : Value} {b : Bool}

/-- A chain of a logical operator is evaluated operand by operand. -/
theorem evaluate_logical (decisive : Bool) (first : Expr) (others : List Expr) (steps : Nat) :
    evaluate setting (steps + 1) (.logical decisive first others) =
      evaluateLogical (evaluate setting steps) decisive (first :: others) := by
  cases decisive <;> rfl

theorem evaluateLogical_cons :
    evaluateLogical eval decisive (e :: es) = eval e >>= continueLogical eval decisive es := rfl

/-- Behind a truth value the chain ends or goes on. -/
theorem continueLogical_of_ok (hv : v.asBool = .ok b) :
    continueLogical eval decisive es v =
      if b = decisive then pure (.bool decisive) else evaluateLogical eval decisive es := by
  rw [continueLogical, hv]
  rfl

theorem continueLogical_decisive (hv : v.asBool = .ok decisive) :
    continueLogical eval decisive es v = pure (.bool decisive) := by
  rw [continueLogical_of_ok hv, if_pos rfl]

theorem continueLogical_undecided (hv : v.asBool = .ok (!decisive)) :
    continueLogical eval decisive es v = evaluateLogical eval decisive es := by
  rw [continueLogical_of_ok hv, if_neg (by simp)]

/-- Behind anything but a truth value the chain fails. -/
theorem continueLogical_of_error {why : Failure} (hv : v.asBool = .error why) :
    continueLogical eval decisive es v = .fail why := by
  rw [continueLogical, hv]
  rfl

/-- A chain goes on with the value that its first operands have by themselves. -/
theorem evaluateLogical_append (es more : List Expr) :
    evaluateLogical eval decisive (es ++ more) =
      evaluateLogical eval decisive es >>= continueLogical eval decisive more := by
  -- induction on the first operands
  induction es with
  | nil =>
    rw [evaluateLogical, pure_bind, continueLogical_undecided rfl]
    rfl
  | cons e es ih =>
    rw [List.cons_append, evaluateLogical_cons, evaluateLogical_cons, bind_assoc]
    refine bind_congr fun v => ?_
    cases hv : v.asBool with
    | error why =>
      rw [continueLogical_of_error hv, continueLogical_of_error hv]
      rfl
    | ok b =>
      rw [continueLogical_of_ok hv, continueLogical_of_ok hv]
      split
      · -- an operand that decides ends both chains
        rw [pure_bind, continueLogical_decisive rfl]
      · -- the others pass the chain on
        exact ih

/-- Negated operands have the negated value, and the other operator stops at the same one. -/
theorem evaluateLogical_not
    (hnot : ∀ e, eval' (.unary .not e) = eval e >>= fun v => .lift (v.unary .not))
    (es : List Expr) :
    evaluateLogical eval' (!decisive) (es.map (.unary .not)) =
      evaluateLogical eval decisive es >>= fun v => .lift (v.unary .not) := by
  -- induction on the operands, which stop at the same one
  induction es with
  | nil => rfl
  | cons e es ih =>
    rw [List.map_cons, evaluateLogical_cons, evaluateLogical_cons, hnot, bind_assoc, bind_assoc]
    refine bind_congr fun v => ?_
    cases hv : v.asBool with
    | error why =>
      rw [continueLogical_of_error hv, Value.unary, hv]
      rfl
    | ok b =>
      rw [continueLogical_of_ok hv, Value.unary, hv]
      -- the negated operand decides the other operator if the operand decides this one
      show continueLogical eval' (!decisive) (es.map (.unary .not)) (.bool !b) = _
      rw [continueLogical_of_ok rfl]
      by_cases hb : b = decisive
      · rw [if_pos hb, if_pos (congrArg _ hb)]
        rfl
      · rw [if_neg hb, if_neg fun h => hb (Bool.not_inj h), ih]

/-- Operands that do not decide are passed over. -/
theorem evaluateLogical_of_undecided {before : List Expr} {vs : List Value}
    (h : evaluateAll eval before s = .done vs t) (hvs : ∀ v ∈ vs, v.asBool = .ok (!decisive)) :
    evaluateLogical eval decisive (before ++ es) s = evaluateLogical eval decisive es t := by
  -- induction on the operands that are passed over
  induction before generalizing s vs with
  | nil =>
    cases h
    rfl
  | cons e before ih =>
    obtain ⟨v, s', ws, hv, hws, rfl⟩ := evaluateAll_cons_eq_done h
    rw [List.forall_mem_cons] at hvs
    rw [List.cons_append, evaluateLogical_cons, Action.bind_apply, hv, ← ih hws hvs.2]
    exact congrFun (continueLogical_undecided hvs.1) s'

/-- An operand that decides ends the chain. -/
theorem evaluateLogical_of_decisive (h : eval e s = .done v t)
    (hv : v.asBool = .ok decisive) :
    evaluateLogical eval decisive (e :: es) s = .done (.bool decisive) t := by
  rw [evaluateLogical_cons, Action.bind_apply, h]
  exact congrFun (continueLogical_decisive hv) t

end

/-- What chains of logical operators mean. -/
structure LogicalChains (setting : Setting) : Prop where
  /-- A chain may start with a chain of its first operands. -/
  nested : ∀ decisive first others more,
    (Expr.logical decisive (.logical decisive first others) more).SameEffect setting
      (.logical decisive first (others ++ more))
  /-- A negated chain is the chain of the other operator with negated operands. -/
  negated : ∀ decisive first others,
    (Expr.unary .not (.logical decisive first others)).SameEffect setting
      (.logical (!decisive) (.unary .not first) (others.map (.unary .not)))
  /-- The first operand that decides ends the chain, whatever stands behind it. -/
  decided : ∀ decisive first others before e after s vs t v u,
    first :: others = before ++ e :: after →
    EvaluatesAll setting before s vs t → (∀ w ∈ vs, w.asBool = .ok (!decisive)) →
    Evaluates setting e t (.done v u) → v.asBool = .ok decisive →
    Evaluates setting (.logical decisive first others) s (.done (.bool decisive) u)

/-- **Chains of logical operators** mean nested operators, effects included. -/
theorem logical_chains (setting : Setting) : LogicalChains setting where
  nested decisive first others more := by
    refine sameEffect_of_start
      (fun eval => evaluateLogical eval decisive (first :: others))
      (fun eval => continueLogical eval decisive more)
      (steady_evaluateLogical setting decisive _) ?_ ?_ ?_
    · -- what stands behind the nested chain needs no more steps than before
      intro v n n' hle
      refine (Action.follows_lift _).bind fun b => ?_
      split
      · exact Action.follows_refl _
      · exact steady_evaluateLogical setting decisive more hle
    · -- the outer chain starts with the inner one
      intro n
      rw [evaluate_logical, evaluateLogical_cons, evaluate_logical]
    · -- the flat chain goes on with the value of its first operands
      intro n
      rw [evaluate_logical, ← List.cons_append, evaluateLogical_append]
  negated decisive first others := by
    refine sameEffect_of_eq (k := 2) (l := 2) fun n => ?_
    rw [evaluate_logical, ← List.map_cons, evaluateLogical_not fun _ => rfl, ← evaluate_logical]
    rfl
  decided decisive first others before e after s vs t v u := by
    intro hsplit hbefore hvs he hv
    -- with the steps that the operands need, the chain comes to the deciding one and ends
    obtain ⟨n, hn⟩ := hbefore.eventually
    obtain ⟨n', hn'⟩ := he.eventually
    refine ⟨nofun, max n n' + 1, ?_⟩
    rw [evaluate_logical, hsplit, evaluateLogical_of_undecided (hn _ (Nat.le_max_left n n')) hvs]
    exact evaluateLogical_of_decisive (hn' _ (Nat.le_max_right n n')) hv

/-- `n == 3` decides where `n` is `3`. The operands behind it are no truth value and a variable
that does not exist. -/
theorem logical_chains_midCall :
    Evaluates ⟨[.addBase], 2⟩
      (.logical true (.literal (.bool false))
        [.comparison (.identifier "n") .equal (.literal (.int 3)), .identifier "n",
          .identifier "missing"])
      Session.midCall.state (.done (.bool true) Session.midCall.state) :=
  (logical_chains _).decided true _ _ [.literal (.bool false)] _ _ _ [.bool false] _ (.bool true) _
    rfl (.cons (evaluates_literal _ _) .nil) (List.forall_mem_singleton.mpr rfl) ⟨nofun, 2, rfl⟩ rfl

-- ---------------------------------------------------------------------------
-- Sums and products
-- ---------------------------------------------------------------------------

/-- Expressions that are chains whose operators do what `apply` does. -/
def IsChain {Op : Type} (setting : Setting) (chain : Expr → List (Op × Expr) → Expr)
    (apply : Value → Op → Value → Except Failure Value) : Prop :=
  ∀ steps first others, evaluate setting (steps + 1) (chain first others) =
    evaluate setting steps first >>= fun v =>
      evaluateChain (evaluate setting steps) apply v others

theorem isChain_additive (setting : Setting) : IsChain setting .additive Value.additive :=
  fun _ _ _ => rfl

theorem isChain_multiplicative (setting : Setting) :
    IsChain setting .multiplicative Value.multiplicative :=
  fun _ _ _ => rfl

section

variable {Op : Type} {eval : Expr → Action Value} {chain : Expr → List (Op × Expr) → Expr}
  {apply : Value → Op → Value → Except Failure Value} {e x y : Expr} {v w r : Value}

/-- The operator is applied as soon as its right operand is there. -/
theorem evaluateChain_of_ok {op : Op} {rest : List (Op × Expr)} (hw : eval e s = .done w t)
    (hr : apply v op w = .ok r) :
    evaluateChain eval apply v ((op, e) :: rest) s = evaluateChain eval apply r rest t := by
  rw [evaluateChain, Action.bind_apply, hw]
  dsimp only
  rw [hr]
  rfl

/-- A chain goes on with the value that its first operands have by themselves. -/
theorem evaluateChain_append (v : Value) (rest more : List (Op × Expr)) :
    evaluateChain eval apply v (rest ++ more) =
      evaluateChain eval apply v rest >>= fun w => evaluateChain eval apply w more := by
  -- induction on the first operands, with the value so far
  induction rest generalizing v with
  | nil => rfl
  | cons p rest ih =>
    obtain ⟨op, e⟩ := p
    rw [List.cons_append, evaluateChain, evaluateChain, bind_assoc]
    refine bind_congr fun w => ?_
    rw [bind_assoc]
    exact bind_congr fun u => ih u

/-- The first operands may be evaluated with one step less. -/
theorem IsChain.nested (h : IsChain setting chain apply) (first : Expr)
    (others more : List (Op × Expr)) :
    (chain (chain first others) more).SameEffect setting (chain first (others ++ more)) := by
  refine sameEffect_of_start
    (fun eval => eval first >>= fun v => evaluateChain eval apply v others)
    (fun eval v => evaluateChain eval apply v more) ?_
    (fun v => steady_evaluateChain setting apply v more) ?_ ?_
  · intro n n' hle
    exact (steady_evaluate setting first hle).bind
      fun v => steady_evaluateChain setting apply v others hle
  · intro n
    rw [h, h]
  · intro n
    rw [h, bind_assoc]
    exact bind_congr fun v => evaluateChain_append v others more

/-- A chain of two operands ends as its operator says. -/
theorem IsChain.evaluates_pair (h : IsChain setting chain apply) (op : Op)
    (hoperands : EvaluatesAll setting [x, y] s [v, w] t) :
    Evaluates setting (chain x [(op, y)]) s (Action.lift (apply v op w) t) := by
  obtain ⟨n, hn⟩ := hoperands.eventually
  -- the two operands end one after the other
  obtain ⟨_, s', _, hv, hrest, heq⟩ := evaluateAll_cons_eq_done (hn n (Nat.le_refl n))
  cases heq
  obtain ⟨_, _, _, hw, hnil, heq⟩ := evaluateAll_cons_eq_done hrest
  cases heq
  cases hnil
  refine ⟨?_, n + 1, ?_⟩
  · cases apply v op w <;> nofun
  · rw [h, Action.bind_apply, hv]
    dsimp only
    rw [evaluateChain, Action.bind_apply, hw]
    exact congrFun (bind_pure (Action.lift (apply v op w))) t

end

-- ---------------------------------------------------------------------------
-- Alternatives to null
-- ---------------------------------------------------------------------------

/-- What `?:` does with the evaluations of its operands. -/
def evaluateOrElse (left right : Action Value) : Action Value := do
  let v ← left
  if v.isNull then right else pure v.present

/-- The mark of presence that the inner operator leaves is the one that the outer operator would
leave. -/
theorem evaluateOrElse_assoc (a b c : Action Value) :
    evaluateOrElse (evaluateOrElse a b) c = evaluateOrElse a (evaluateOrElse b c) := by
  simp only [evaluateOrElse]
  rw [bind_assoc]
  refine bind_congr fun v => ?_
  -- the left operand is null, or marked as present by the inner operator already
  by_cases hv : v.isNull = true
  · rw [if_pos hv, if_pos hv]
  · have hpresent : v.present.isNull = v.isNull := rfl
    rw [if_neg hv, if_neg hv, pure_bind, hpresent, if_neg hv]
    rfl

/-- A replacement of null follows another one if its operands do. -/
theorem follows_evaluateOrElse {excused : Option Failure → Prop} {R : State → State → Prop}
    {a a' b b' : Action Value} (ha : Follows excused R a a') (hb : Follows excused R b b') :
    Follows excused R (evaluateOrElse a b) (evaluateOrElse a' b') := by
  refine ha.bind fun v => ?_
  split
  · exact hb
  · exact Action.follows_pure _

theorem evaluate_orElse (left right : Expr) (steps : Nat) :
    evaluate setting (steps + 1) (.orElse left right) =
      evaluateOrElse (evaluate setting steps left) (evaluate setting steps right) := rfl

/-- How operators associate. -/
structure OperatorsAssociate (setting : Setting) : Prop where
  additive : ∀ first others more,
    (Expr.additive (.additive first others) more).SameEffect setting
      (.additive first (others ++ more))
  multiplicative : ∀ first others more,
    (Expr.multiplicative (.multiplicative first others) more).SameEffect setting
      (.multiplicative first (others ++ more))
  orElse : ∀ a b c,
    (Expr.orElse (.orElse a b) c).SameEffect setting (.orElse a (.orElse b c))

/-- **Sums and products** associate to the left, and **`?:`** associates. -/
theorem operators_associate (setting : Setting) : OperatorsAssociate setting where
  additive := (isChain_additive setting).nested
  multiplicative := (isChain_multiplicative setting).nested
  orElse a b c := by
    refine sameEffect_of_follows (i := 2) (j := 3) (k := 2) (l := 3) (fun n => ?_) (fun n => ?_)
    · simp only [evaluate_orElse]
      rw [evaluateOrElse_assoc]
      exact follows_evaluateOrElse (steady_evaluate setting a (by omega))
        (follows_evaluateOrElse (steady_evaluate setting b (by omega)) (Action.follows_refl _))
    · simp only [evaluate_orElse]
      rw [evaluateOrElse_assoc]
      exact follows_evaluateOrElse (Action.follows_refl _)
        (follows_evaluateOrElse (steady_evaluate setting b (by omega))
          (steady_evaluate setting c (by omega)))

end NullScript
