import NullScript.Proofs.RenamedScopes

/-!
# NullScript — runs with a renamed variable

In a state with a variable renamed, what follows does the same with the variable renamed. The two
runs may fail differently in one way: an assignment to the variable, if it is constant, fails with
its name. `Answer.Corresponds` compares answers up to that.

* `follows_evaluate_rename` — a renamed expression has the value of the expression.
* `sameRenamed_executeWith` — one step of the evaluator does the same if its parts do.
* `corresponds_executeAll_renamed`, `sameRenamed_execute` — renamed statements do what the
  statements do.
-/

namespace NullScript

open NullScript.Action (Follows)

variable {α β : Type}

-- ---------------------------------------------------------------------------
-- Corresponding answers
-- ---------------------------------------------------------------------------

/-- The failures are the same, or both say that a constant was assigned to, which is called `x` in
the one and `y` in the other. -/
def Failure.UpTo (x y : String) (e e' : Failure) : Prop :=
  e' = e ∨ e = .constantAssigned x ∧ e' = .constantAssigned y

section

variable {F : Failure → Failure → Prop} {R J D D' E E' : State → State → Prop}

/-- The second answer is unfinished if the first one is, has the same value, or has a failure that
is related to the first one's by `F`. The states are related by `D` if there is a value, and by `E`
if there is a failure. -/
def Answer.Corresponds (F : Failure → Failure → Prop) (D E : State → State → Prop) :
    Answer α → Answer α → Prop
  | .unfinished, r => r = .unfinished
  | .failed e s, r => ∃ e' t, r = .failed e' t ∧ F e e' ∧ E s t
  | .done a s, r => ∃ t, r = .done a t ∧ D s t

/-- Corresponding answers can be read with weaker relations of the states. -/
theorem Answer.Corresponds.imp {r r' : Answer α} (h : r.Corresponds F D E r')
    (hD : ∀ s t, D s t → D' s t) (hE : ∀ s t, E s t → E' s t) : r.Corresponds F D' E' r' := by
  cases r with
  | unfinished => exact h
  | failed e s =>
    obtain ⟨e', t, hr, hF, hs⟩ := h
    exact ⟨e', t, hr, hF, hE s t hs⟩
  | done a s =>
    obtain ⟨t, hr, hs⟩ := h
    exact ⟨t, hr, hD s t hs⟩

namespace Action

/-- From states that are related by `R` the second action ends as the first one does. -/
def Corresponds (F : Failure → Failure → Prop) (R D E : State → State → Prop) (m m' : Action α) :
    Prop :=
  ∀ s t, R s t → (m s).Corresponds F D E (m' t)

variable {m m' : Action α}

theorem corresponds_pure (a : α) : Corresponds F R R E (pure a) (pure a) :=
  fun _ t hR => ⟨t, rfl, hR⟩

theorem Corresponds.imp (hm : Corresponds F R D E m m') (hD : ∀ s t, D s t → D' s t)
    (hE : ∀ s t, E s t → E' s t) : Corresponds F R D' E' m m' :=
  fun s t hR => (hm s t hR).imp hD hE

/-- An action that follows another one without excuses corresponds to it, with the same failures. -/
theorem Follows.corresponds (hm : Follows (fun _ => False) R m m') (hF : ∀ e, F e e)
    (hE : ∀ s t, R s t → E s t) : Corresponds F R R E m m' := by
  intro s t hR
  have h := hm s t hR
  cases hr : m s with
  | unfinished =>
    rw [hr] at h
    exact h.resolve_left id
  | failed e s' =>
    rw [hr] at h
    obtain ⟨t', h, hR'⟩ := h.resolve_left id
    exact ⟨e, t', h, hF e, hE s' t' hR'⟩
  | done a s' =>
    rw [hr] at h
    exact h

/-- **Sequences correspond** if their first actions do, and what comes behind them does for every
value. -/
theorem Corresponds.bind {f f' : α → Action β} (hm : Corresponds F R J E m m')
    (hf : ∀ a, Corresponds F J D E (f a) (f' a)) :
    Corresponds F R D E (m >>= f) (m' >>= f') := by
  intro s t hR
  have h := hm s t hR
  rw [bind_apply, bind_apply]
  cases hr : m s with
  | unfinished =>
    rw [hr] at h
    rw [h]
    exact rfl
  | failed e s' =>
    rw [hr] at h
    obtain ⟨e', t', h, hF, hE⟩ := h
    exact ⟨e', t', by rw [h], hF, hE⟩
  | done a s' =>
    rw [hr] at h
    obtain ⟨t', h, hJ⟩ := h
    rw [h]
    exact hf a s' t' hJ

/-- Actions between entering and leaving correspond, where the relations may be other ones inside.
-/
theorem Corresponds.between {enter leave : State → State} (hm : Corresponds F J D E m m')
    (henter : ∀ s t, R s t → J (enter s) (enter t))
    (hD : ∀ s t, D s t → D' (leave s) (leave t)) (hE : ∀ s t, E s t → E' (leave s) (leave t)) :
    Corresponds F R D' E' (between enter leave m) (between enter leave m') := by
  intro s t hR
  have h := hm (enter s) (enter t) (henter s t hR)
  rw [between_apply, between_apply]
  cases hr : m (enter s) with
  | unfinished =>
    rw [hr] at h
    rw [h]
    exact rfl
  | failed e s' =>
    rw [hr] at h
    obtain ⟨e', t', h, hF, hs⟩ := h
    exact ⟨e', leave t', by rw [h], hF, hE s' t' hs⟩
  | done a s' =>
    rw [hr] at h
    obtain ⟨t', h, hs⟩ := h
    exact ⟨leave t', by rw [h], hD s' t' hs⟩

end Action

open NullScript.Action (Corresponds)

/-- Loops correspond if their conditions and bodies do. -/
theorem corresponds_repeatWhile {condition condition' : Action Bool} {body body' : Action Flow}
    (hcondition : Corresponds F R R E condition condition')
    (hbody : Corresponds F R R E body body') (rounds : Nat) :
    Corresponds F R R E (repeatWhile condition body rounds)
      (repeatWhile condition' body' rounds) := by
  -- on the rounds; one without a `return` ends in states related by `R`, from which the next starts
  induction rounds with
  | zero => exact fun _ _ _ => rfl
  | succ rounds ih =>
    rw [repeatWhile, repeatWhile]
    refine hcondition.bind ?_
    intro b
    cases b with
    | false => exact Action.corresponds_pure _
    | true =>
      refine hbody.bind ?_
      intro flow
      cases flow with
      | next => exact ih
      | returned v => exact Action.corresponds_pure _

end

-- ---------------------------------------------------------------------------
-- Expressions
-- ---------------------------------------------------------------------------

section

variable {x y : String} {shadows : List Bool}

/-- An expression that is renamed, unless that is shadowed, means what it meant in terms of its
parts changed so. -/
theorem evaluateWith_unlessShadowed (setting : Setting) (eval : Expr → Action Value)
    (exec : Statement → Action Flow) {e : Expr} (h : ∀ name, e ≠ .identifier name) :
    evaluateWith setting eval exec (unlessShadowed shadows (Expr.rename x y) e) =
      evaluateWith setting (fun e => eval (unlessShadowed shadows (Expr.rename x y) e)) exec e := by
  unfold unlessShadowed
  split
  · rfl
  · exact evaluateWith_rename setting eval exec x y h

/-- What a single name becomes is `nameIn`. -/
theorem unlessShadowed_identifier (name : String) :
    unlessShadowed shadows (Expr.rename x y) (.identifier name) =
      .identifier (nameIn x y shadows name) := by
  unfold nameIn unlessShadowed
  split <;> rfl

/-- An expression and the expression with a variable renamed give the same. -/
theorem follows_evaluate_rename (setting : Setting) (steps : Nat) {e : Expr}
    (hy : y ∉ e.vars) :
    Follows (fun _ => False) (Renamed x y shadows) (evaluate setting steps e)
      (evaluate setting steps (unlessShadowed shadows (Expr.rename x y) e)) := by
  induction steps generalizing e with
  | zero => exact fun _ _ _ => .inr rfl
  | succ steps ih =>
    rw [evaluate_succ, evaluate_succ]
    -- a name is looked up in the scopes that differ; every other expression goes down to its parts
    by_cases hname : ∃ name, e = .identifier name
    · obtain ⟨name, rfl⟩ := hname
      rw [unlessShadowed_identifier]
      intro s t h
      have hne : name ≠ y := ne_of_mem_of_not_mem List.mem_cons_self hy
      rw [evaluateWith_identifier, evaluateWith_identifier]
      -- found in neither run, or in both with one content
      rcases h.get?_cases hne with ⟨hs, ht, hnew⟩ | ⟨v, name', hs, ht⟩
      · rw [hnew, hs, ht]
        exact .inr ⟨t, rfl, h⟩
      · rw [hs, ht]
        exact ⟨t, rfl, h⟩
    · have hname' : ∀ name, e ≠ .identifier name := fun name h => hname ⟨name, h⟩
      rw [evaluateWith_unlessShadowed setting _ _ hname']
      -- arguments and operands by the induction; calls of functions do not see the difference
      exact follows_evaluateWith abreast_renamed (fun _ => rfl)
        (fun name h => absurd h (hname' name))
        (fun e' he' => ih (Expr.not_mem_vars_of_mem_parts hy he'))
        fun _ f vs _ => follows_callFunction_renamed setting steps f vs

end

-- ---------------------------------------------------------------------------
-- Statements
-- ---------------------------------------------------------------------------

/-- The states of the two runs somewhere in the innermost block: it may have got a variable of the
renamed name. -/
def Settled (x y : String) (shadows : List Bool) (s t : State) : Prop :=
  ∃ isShadow, Renamed x y (shadowedBy isShadow shadows) s t

theorem shadowedBy_false (shadows : List Bool) : shadowedBy false shadows = shadows := by
  cases shadows <;> rfl

/-- Of two declarations in a block one is enough to shadow. -/
theorem shadowedBy_shadowedBy (isShadow isShadow' : Bool) (shadows : List Bool) :
    shadowedBy isShadow (shadowedBy isShadow' shadows) =
      shadowedBy (isShadow || isShadow') shadows := by
  cases shadows with
  | nil => rfl
  | cons shadow shadows => rw [shadowedBy, shadowedBy, shadowedBy, Bool.or_assoc]

section

variable {x y : String} {shadows : List Bool} {s t : State}

/-- What is shadowed stays shadowed behind a declaration. -/
theorem mem_shadowedBy_of_mem {isShadow : Bool} (h : true ∈ shadows) :
    true ∈ shadowedBy isShadow shadows := by
  cases shadows with
  | nil => cases h
  | cons shadow shadows =>
    rcases List.mem_cons.mp h with rfl | h
    · rw [shadowedBy, Bool.or_true]
      exact List.mem_cons_self
    · exact List.mem_cons_of_mem _ h

/-- Behind a declaration of the renamed name, in a block inside, it is shadowed. -/
theorem mem_shadowedBy_true (h : shadows ≠ []) : true ∈ shadowedBy true shadows := by
  cases shadows with
  | nil => exact absurd rfl h
  | cons shadow shadows => exact List.mem_cons_self

/-- States with a variable renamed are settled, as nothing needs to be declared. -/
theorem Renamed.settled (h : Renamed x y shadows s t) : Settled x y shadows s t :=
  ⟨false, by rwa [shadowedBy_false]⟩

/-- States that are settled behind a declaration are so from its block on. -/
theorem Settled.of_shadowedBy {isShadow : Bool}
    (h : Settled x y (shadowedBy isShadow shadows) s t) : Settled x y shadows s t := by
  obtain ⟨isShadow', h⟩ := h
  rw [shadowedBy_shadowedBy] at h
  exact ⟨_, h⟩

/-- Leaving an inner block takes whatever it declared away. -/
theorem Settled.leaveBlock {shadow : Bool} (h : Settled x y (shadow :: shadows) s t) :
    Renamed x y shadows s.leaveBlock t.leaveBlock := by
  obtain ⟨isShadow, h⟩ := h
  exact Renamed.leaveBlock h

theorem Settled.leaveBlock_eq (h : Settled x y [] s t) : s.leaveBlock = t.leaveBlock := by
  obtain ⟨_, h⟩ := h
  exact Renamed.leaveBlock_eq h

/-- A statement is renamed part by part, and not at all where the name is shadowed. -/
theorem unlessShadowed_rename (st : Statement) :
    unlessShadowed shadows (Statement.rename x y) st =
      st.mapParts (unlessShadowed shadows (Expr.rename x y))
        (unlessShadowed shadows (renameBody x y)) := by
  by_cases h : true ∈ shadows
  · simp only [unlessShadowed_of_mem h, Statement.mapParts_id, id]
  · simp only [unlessShadowed_of_not_mem h, Statement.rename_eq]

/-- Renaming goes on behind a statement unless the statement declares the name. -/
theorem unlessShadowed_renameBody_cons {st : Statement} (rest : List Statement)
    (hx : shadows = [] → st.declaresName x = false) :
    unlessShadowed shadows (renameBody x y) (st :: rest) =
      unlessShadowed shadows (Statement.rename x y) st ::
        unlessShadowed (shadowedBy (st.declaresName x) shadows) (renameBody x y) rest := by
  by_cases h : true ∈ shadows
  · rw [unlessShadowed_of_mem h, unlessShadowed_of_mem h,
      unlessShadowed_of_mem (mem_shadowedBy_of_mem h), id, id, id]
  · rw [unlessShadowed_of_not_mem h, unlessShadowed_of_not_mem h, renameBody]
    -- a declaration of the name ends the renaming; the block of the variable itself has no other
    cases hst : st.declaresName x with
    | false => rw [shadowedBy_false, unlessShadowed_of_not_mem h, if_neg Bool.false_ne_true]
    | true =>
      have hinside : shadows ≠ [] := by
        rintro rfl
        rw [hx rfl] at hst
        cases hst
      rw [unlessShadowed_of_mem (mem_shadowedBy_true hinside), if_pos rfl, id]

end

theorem Failure.upTo_refl (x y : String) (e : Failure) : e.UpTo x y e := .inl rfl

open NullScript.Action (Corresponds)

/-- In a state with `x` called `y` the second action does what the first one does. The lists tell
which of the scopes opened since hold another `x`: before, and after if there is a value. -/
abbrev SameRenamed (x y : String) (before after : List Bool) (m m' : Action α) : Prop :=
  Corresponds (Failure.UpTo x y) (Renamed x y before) (Renamed x y after) (Settled x y before) m m'

section

variable {x y : String} {shadows : List Bool} {eval : Expr → Action Value}
  {exec : Statement → Action Flow}

theorem sameRenamed_of_follows {m m' : Action α}
    (h : Follows (fun _ => False) (Renamed x y shadows) m m') :
    SameRenamed x y shadows shadows m m' :=
  h.corresponds (Failure.upTo_refl x y) fun _ _ h => h.settled

/-- A declaration does the same in both runs, and shadows the renamed variable if it has its name.
-/
theorem sameRenamed_declareVariable {v : Variable} (hy : v.name ≠ y)
    (hx : shadows = [] → v.name ≠ x) :
    SameRenamed x y shadows (shadowedBy (decide (v.name = x)) shadows) (declareVariable v)
      (declareVariable v) := by
  intro s t h
  rw [declareVariable_apply, declareVariable_apply]
  -- an initial value of the wrong type is refused before the scopes are looked at
  split
  · rcases h.declare hy hx with ⟨e, hs, ht⟩ | ⟨scopes, scopes', hs, ht, h'⟩
    · rw [hs, ht]
      exact ⟨e, t, rfl, .inl rfl, h.settled⟩
    · rw [hs, ht]
      exact ⟨_, rfl, h'⟩
  · exact ⟨_, t, rfl, .inl rfl, h.settled⟩

/-- Storing a value under a name and under the renamed name does the same. -/
theorem sameRenamed_storeValue {name : String} (hname : name ≠ y) (value : Value) :
    SameRenamed x y shadows shadows (storeValue name value)
      (storeValue (nameIn x y shadows name) value) := by
  intro s t h
  rw [storeValue_apply, storeValue_apply]
  rcases h.get?_cases hname with ⟨hs, ht, hnew⟩ | ⟨v, name', hs, ht⟩
  · rw [hnew, hs, ht]
    exact ⟨_, t, rfl, .inl rfl, h.settled⟩
  · rw [hs, ht]
    dsimp only
    split
    · exact ⟨_, rfl, h.set hname value⟩
    · exact ⟨_, t, rfl, .inl rfl, h.settled⟩

/-- An assignment does the same with its target renamed, up to the name in the failure for a
constant. -/
theorem sameRenamed_executeAssign {target value : Expr} (hy : y ∉ target.vars)
    (heval : SameRenamed x y shadows shadows (eval value)
      (eval (unlessShadowed shadows (Expr.rename x y) value))) :
    SameRenamed x y shadows shadows (executeAssign eval target value)
      (executeAssign eval (unlessShadowed shadows (Expr.rename x y) target)
        (unlessShadowed shadows (Expr.rename x y) value)) := by
  cases target with
  | identifier name =>
    have hne : name ≠ y := ne_of_mem_of_not_mem List.mem_cons_self hy
    rw [unlessShadowed_identifier]
    intro s t h
    rw [executeAssign_identifier, executeAssign_identifier]
    rcases h.get?_cases hne with ⟨hs, ht, hnew⟩ | ⟨v, name', hs, ht⟩
    · rw [hnew, hs, ht]
      exact ⟨_, t, rfl, .inl rfl, h.settled⟩
    · rw [hs, ht]
      dsimp only
      split
      · refine ⟨_, t, rfl, ?_, h.settled⟩
        -- the failure says the name of the target: the one place where the two runs differ
        rcases nameIn_eq_or x y shadows name with hnew | ⟨rfl, hnew⟩
        · rw [hnew]
          exact .inl rfl
        · rw [hnew]
          exact .inr ⟨rfl, rfl⟩
      · exact (heval.bind fun v => sameRenamed_storeValue hne v) s t h
  -- any other target is refused without being looked at
  | _ =>
    unfold unlessShadowed
    split <;> exact fun _ t h => ⟨_, t, rfl, .inl rfl, h.settled⟩

/-- **One step of execution** does the same with a variable renamed if its expressions and its
blocks do. -/
theorem sameRenamed_executeWith {st : Statement} (rounds : Nat) (hy : y ∉ st.vars)
    (hx : shadows = [] → st.declaresName x = false)
    (heval : ∀ e ∈ st.parts, SameRenamed x y shadows shadows (eval e)
      (eval (unlessShadowed shadows (Expr.rename x y) e)))
    (hblock : ∀ body ∈ st.blocks, SameRenamed x y shadows shadows (executeBlock exec body)
      (executeBlock exec (unlessShadowed shadows (renameBody x y) body))) :
    SameRenamed x y shadows (shadowedBy (st.declaresName x) shadows)
      (executeWith eval exec rounds st)
      (executeWith eval exec rounds (unlessShadowed shadows (Statement.rename x y) st)) := by
  -- conditions are expressions, and what is made of their value does not depend on names
  have hcondition : ∀ e ∈ st.parts, SameRenamed x y shadows shadows (evaluateCondition eval e)
      (evaluateCondition eval (unlessShadowed shadows (Expr.rename x y) e)) :=
    fun e he => (heval e he).bind fun v => sameRenamed_of_follows (Action.follows_lift v.asBool)
  rw [unlessShadowed_rename]
  -- by the kind of statement; all but a declaration leave the scopes with as many shadows as before
  cases st with
  | branch condition body otherwise =>
    simp only [Statement.declaresName, shadowedBy_false]
    refine (hcondition condition List.mem_cons_self).bind ?_
    intro b
    cases b with
    | true => exact hblock body List.mem_cons_self
    | false =>
      cases otherwise with
      | none => exact Action.corresponds_pure _
      | some other => exact hblock other (by simp [Statement.blocks])
  | loop condition body =>
    simp only [Statement.declaresName, shadowedBy_false]
    exact corresponds_repeatWhile (hcondition condition List.mem_cons_self)
      (hblock body List.mem_cons_self) rounds
  | giveBack value =>
    simp only [Statement.declaresName, shadowedBy_false]
    cases value with
    | none => exact Action.corresponds_pure _
    | some e =>
      exact (heval e (by simp [Statement.parts])).bind fun v => Action.corresponds_pure _
  | perform e =>
    simp only [Statement.declaresName, shadowedBy_false]
    exact (heval e List.mem_cons_self).bind fun _ => Action.corresponds_pure _
  | assign target value =>
    simp only [Statement.declaresName, shadowedBy_false]
    exact sameRenamed_executeAssign (fun h => hy (List.mem_append_left _ h))
      (heval value List.mem_cons_self)
  | declare isConst name type value =>
    -- the one statement that may add a shadow
    have hname : name ≠ y := ne_of_mem_of_not_mem List.mem_cons_self hy
    have hname' : shadows = [] → name ≠ x := fun h => of_decide_eq_false (hx h)
    cases value with
    | none => exact sameRenamed_declareVariable hname hname'
    | some e =>
      refine (heval e (by simp [Statement.parts])).bind ?_
      intro v
      exact sameRenamed_declareVariable hname hname'

/-- Statements do the same with a variable renamed if each of them does. -/
theorem corresponds_executeAll_renamed
    (hexec : ∀ shadows st, y ∉ st.vars → (shadows = [] → st.declaresName x = false) →
      SameRenamed x y shadows (shadowedBy (st.declaresName x) shadows) (exec st)
        (exec (unlessShadowed shadows (Statement.rename x y) st)))
    (shadows : List Bool) {body : List Statement} (hy : y ∉ varsOf body)
    (hx : shadows = [] → ∀ st ∈ body, st.declaresName x = false) :
    Corresponds (Failure.UpTo x y) (Renamed x y shadows) (Settled x y shadows)
      (Settled x y shadows) (executeAll exec body)
      (executeAll exec (unlessShadowed shadows (renameBody x y) body)) := by
  -- on the statements; the list of shadows is generalized, since each declaration may change it
  induction body generalizing shadows with
  | nil =>
    have hnil : unlessShadowed shadows (renameBody x y) [] = [] := ite_self _
    rw [hnil]
    exact (Action.corresponds_pure _).imp (fun _ _ h => h.settled) fun _ _ h => h
  | cons st rest ih =>
    have hst : shadows = [] → st.declaresName x = false := fun h => hx h st List.mem_cons_self
    rw [unlessShadowed_renameBody_cons rest hst, executeAll, executeAll]
    -- the statement itself, and then the rest behind what it shadows
    refine (hexec shadows st (not_mem_vars_of_mem hy List.mem_cons_self) hst).bind ?_
    intro flow
    cases flow with
    | next =>
      have hrest : y ∉ varsOf rest := fun h => hy (List.mem_append_right _ h)
      refine (ih _ hrest ?_).imp (fun _ _ h => h.of_shadowedBy) fun _ _ h => h.of_shadowedBy
      intro h st' hst'
      refine hx ?_ st' (List.mem_cons_of_mem _ hst')
      -- the block of the variable stays the innermost one, as a declaration opens no scope
      cases shadows with
      | nil => rfl
      | cons shadow shadows => cases h
    | returned v =>
      exact (Action.corresponds_pure _).imp (fun _ _ h => h.settled.of_shadowedBy) fun _ _ h => h

/-- A statement does the same with a variable renamed. -/
theorem sameRenamed_execute (setting : Setting) (steps : Nat) (shadows : List Bool)
    (st : Statement) (hy : y ∉ st.vars) (hx : shadows = [] → st.declaresName x = false) :
    SameRenamed x y shadows (shadowedBy (st.declaresName x) shadows) (execute setting steps st)
      (execute setting steps (unlessShadowed shadows (Statement.rename x y) st)) := by
  -- on the steps, for every list of shadows, since a block opens one scope more
  induction steps generalizing shadows st with
  | zero => exact fun _ _ _ => rfl
  | succ steps ih =>
    rw [execute_succ, execute_succ]
    refine sameRenamed_executeWith steps hy hx ?_ ?_
    · intro e he
      exact sameRenamed_of_follows
        (follows_evaluate_rename setting steps (Statement.not_mem_vars_of_mem_parts hy he))
    · intro body hbody
      -- inside a block nothing is shadowed at first, beyond what is so outside
      have hall := corresponds_executeAll_renamed ih (false :: shadows)
        (Statement.not_mem_vars_of_mem_blocks hy hbody) (fun h => by cases h)
      rw [unlessShadowed_false_cons] at hall
      exact hall.between (fun _ _ h => h.enterBlock) (fun _ _ h => h.leaveBlock)
        fun _ _ h => h.leaveBlock.settled

end

end NullScript
