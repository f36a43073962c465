import NullScript.Proofs.Invariant

/-!
# NullScript — two runs of the same program

A run is compared with another one of the same program that may start from a different state, have
a different bound on the steps, or allow more nested calls. `Answer.Matches` says that the second
run ends as the first one does, with the same value or failure and a related state. A first run that
was cut short for an excused reason says nothing about the second one.

* `follows_evaluateWith`, `follows_executeWith` — one step of the evaluator follows another one if
  its parts do, calls of declared functions do, and the changes to variables do.
* `follows_larger` — a run that reaches none of its bounds ends in the same way within larger ones.
-/

namespace NullScript

variable {α β : Type} {excused : Option Failure → Prop} {R J : State → State → Prop}

namespace Answer

/-- The second answer has the same value or failure as the first one, and a state that is related to
the first one's. It may be anything if the first answer is excused: for its failure, or (`none`) for
being unfinished. -/
def Matches (excused : Option Failure → Prop) (R : State → State → Prop) :
    Answer α → Answer α → Prop
  | .unfinished, r => excused none ∨ r = .unfinished
  | .failed e s, r => excused (some e) ∨ ∃ t, r = .failed e t ∧ R s t
  | .done a s, r => ∃ t, r = .done a t ∧ R s t

theorem matches_refl (r : Answer α) : r.Matches excused Eq r := by
  cases r with
  | unfinished => exact .inr rfl
  | failed e s => exact .inr ⟨s, rfl, rfl⟩
  | done a s => exact ⟨s, rfl, rfl⟩

/-- A match can be read with a weaker relation of the states. -/
theorem Matches.imp {r r' : Answer α} (h : r.Matches excused R r')
    (hRJ : ∀ s t, R s t → J s t) : r.Matches excused J r' := by
  cases r with
  | unfinished => exact h
  | failed e s =>
    refine h.imp_right ?_
    rintro ⟨t, hr, hR⟩
    exact ⟨t, hr, hRJ s t hR⟩
  | done a s =>
    obtain ⟨t, hr, hR⟩ := h
    exact ⟨t, hr, hRJ s t hR⟩

/-- Two answers that match a third one, without excuses, match each other. -/
theorem Matches.fork {r r₁ r₂ : Answer α} (h₁ : r.Matches (fun _ => False) R r₁)
    (h₂ : r.Matches (fun _ => False) J r₂) :
    r₁.Matches (fun _ => False) (fun s t => ∃ u, R u s ∧ J u t) r₂ := by
  cases r with
  -- the run in the middle decides in which way both others end
  | unfinished =>
    rcases h₁ with h₁ | rfl
    · exact h₁.elim
    · exact h₂
  | failed e u =>
    rcases h₁ with h₁ | ⟨s, rfl, hR⟩
    · exact h₁.elim
    · rcases h₂ with h₂ | ⟨t, rfl, hJ⟩
      · exact h₂.elim
      · exact .inr ⟨t, rfl, u, hR, hJ⟩
  | done a u =>
    obtain ⟨s, rfl, hR⟩ := h₁
    obtain ⟨t, rfl, hJ⟩ := h₂
    exact ⟨t, rfl, u, hR, hJ⟩

/-- If states are not to differ, a run that is not excused is the same as the other one. -/
theorem Matches.eq_of_not_excused {r r' : Answer α} (h : r.Matches excused Eq r')
    (hunfinished : r = .unfinished → ¬excused none)
    (hfailed : ∀ e s, r = .failed e s → ¬excused (some e)) : r' = r := by
  cases r with
  | unfinished => exact h.resolve_left (hunfinished rfl)
  | failed e s =>
    obtain ⟨t, h, rfl⟩ := h.resolve_left (hfailed e s rfl)
    exact h
  | done a s =>
    obtain ⟨t, h, rfl⟩ := h
    exact h

/-- If only unfinished runs are excused, a run that comes to its end is the same as the other
one. -/
theorem Matches.eq {r r' : Answer α} (h : r.Matches (· = none) Eq r') (hr : r ≠ .unfinished) :
    r' = r :=
  h.eq_of_not_excused (fun hr' => absurd hr' hr) fun _ _ _ => nofun

end Answer

-- ---------------------------------------------------------------------------
-- Actions
-- ---------------------------------------------------------------------------

namespace Action

/-- From related states the second action ends as the first one does. -/
def Follows (excused : Option Failure → Prop) (R : State → State → Prop) (m m' : Action α) :
    Prop :=
  ∀ s t, R s t → (m s).Matches excused R (m' t)

variable {m m' : Action α}

theorem follows_refl (m : Action α) : Follows excused Eq m m := by
  rintro s t rfl
  exact (m s).matches_refl

theorem follows_unfinished (h : excused none) : Follows excused R .unfinished m' :=
  fun _ _ _ => .inl h

theorem follows_pure (a : α) : Follows excused R (pure a) (pure a) :=
  fun _ t hR => ⟨t, rfl, hR⟩

theorem follows_fail (e : Failure) : Follows excused R (.fail e : Action α) (.fail e) :=
  fun _ t hR => .inr ⟨t, rfl, hR⟩

theorem follows_lift (r : Except Failure α) : Follows excused R (.lift r) (.lift r) := by
  cases r with
  | ok a => exact follows_pure a
  | error e => exact follows_fail e

/-- **Sequences follow each other** if their first actions do, and what comes behind them does for
every value. -/
theorem Follows.bind {f f' : α → Action β} (hm : Follows excused R m m')
    (hf : ∀ a, Follows excused R (f a) (f' a)) : Follows excused R (m >>= f) (m' >>= f') := by
  intro s t hR
  have h := hm s t hR
  rw [bind_apply, bind_apply]
  -- only a first action with a value lets the second one run, from states that are related again
  cases hr : m s with
  | unfinished =>
    rw [hr] at h
    rcases h with h | h
    · exact .inl h
    · exact .inr (by rw [h])
  | failed e s' =>
    rw [hr] at h
    rcases h with h | ⟨t', h, hR'⟩
    · exact .inl h
    · exact .inr ⟨t', by rw [h], hR'⟩
  | done a s' =>
    rw [hr] at h
    obtain ⟨t', h, hR'⟩ := h
    rw [h]
    exact hf a s' t' hR'

/-- Actions between entering and leaving follow each other, where the relation may be another one
inside. -/
theorem Follows.between {enter leave : State → State} (hm : Follows excused J m m')
    (henter : ∀ s t, R s t → J (enter s) (enter t))
    (hleave : ∀ s t, J s t → R (leave s) (leave t)) :
    Follows excused R (between enter leave m) (between enter leave m') := by
  intro s t hR
  have h := hm (enter s) (enter t) (henter s t hR)
  rw [between_apply, between_apply]
  -- the state is left in every ending but that of a run that is cut short
  cases hr : m (enter s) with
  | unfinished =>
    rw [hr] at h
    rcases h with h | h
    · exact .inl h
    · exact .inr (by rw [h])
  | failed e s' =>
    rw [hr] at h
    rcases h with h | ⟨t', h, hJ⟩
    · exact .inl h
    · exact .inr ⟨leave t', by rw [h], hleave s' t' hJ⟩
  | done a s' =>
    rw [hr] at h
    obtain ⟨t', h, hJ⟩ := h
    exact ⟨leave t', by rw [h], hleave s' t' hJ⟩

end Action

open NullScript.Action (Follows)

/-- In related states built-in functions do the same, and as many calls are in progress. -/
structure Abreast (excused : Option Failure → Prop) (R : State → State → Prop) : Prop where
  run : ∀ (b : Builtin) vs,
    Follows excused R (.onStreams (b.run vs)) (.onStreams (b.run vs))
  depth : ∀ s t, R s t → s.depth = t.depth

/-- Related states have the same streams, the same number of calls in progress and the same visible
variables, and stay related when both streams change in the same way. -/
structure Alike (R : State → State → Prop) : Prop where
  streams : ∀ s t, R s t → s.streams = t.streams
  withStreams : ∀ s t streams, R s t → R { s with streams } { t with streams }
  depth : ∀ s t, R s t → s.depth = t.depth
  get? : ∀ s t name, R s t → s.scopes.get? name = t.scopes.get? name

/-- Equal states are alike. -/
theorem alike_eq : Alike Eq where
  streams := fun _ _ h => congrArg State.streams h
  withStreams := fun _ _ streams h => congrArg (fun s : State => { s with streams }) h
  depth := fun _ _ h => congrArg State.depth h
  get? := fun _ _ name h => congrArg (fun s : State => s.scopes.get? name) h

/-- A change of the streams does the same in related states, as their streams are the same. -/
theorem follows_onStreams (hstreams : ∀ s t, R s t → s.streams = t.streams)
    (hwith : ∀ s t streams, R s t → R { s with streams } { t with streams })
    (f : Streams → Except Failure α × Streams) :
    Follows excused R (.onStreams f) (.onStreams f) := by
  intro s t h
  unfold Action.onStreams
  rw [← hstreams s t h]
  obtain ⟨r, streams⟩ := f s.streams
  have h' := hwith s t streams h
  cases r with
  | ok a => exact ⟨_, rfl, h'⟩
  | error e => exact .inr ⟨_, rfl, h'⟩

theorem Alike.abreast (hR : Alike R) : Abreast excused R where
  run := fun b vs => follows_onStreams hR.streams hR.withStreams (b.run vs)
  depth := hR.depth

-- ---------------------------------------------------------------------------
-- Chains, lists and loops
-- ---------------------------------------------------------------------------

section

variable {eval eval' : Expr → Action Value} {exec exec' : Statement → Action Flow}

/-- Chains of `and` or `or` follow each other if their operands do. -/
theorem follows_evaluateLogical (decisive : Bool) {es : List Expr}
    (heval : ∀ e ∈ es, Follows excused R (eval e) (eval' e)) :
    Follows excused R (evaluateLogical eval decisive es) (evaluateLogical eval' decisive es) := by
  -- on the operands; both runs see the same value and stop at the same one
  induction es with
  | nil => exact Action.follows_pure _
  | cons e es ih =>
    rw [List.forall_mem_cons] at heval
    rw [evaluateLogical, evaluateLogical]
    refine heval.1.bind ?_
    intro v
    refine (Action.follows_lift _).bind ?_
    intro b
    split
    · exact Action.follows_pure _
    · exact ih heval.2

/-- Arithmetic chains follow each other if their operands do, from the same value so far. -/
theorem follows_evaluateChain {Op : Type} (apply : Value → Op → Value → Except Failure Value)
    (v : Value) {rest : List (Op × Expr)}
    (heval : ∀ e ∈ rest.map Prod.snd, Follows excused R (eval e) (eval' e)) :
    Follows excused R (evaluateChain eval apply v rest) (evaluateChain eval' apply v rest) := by
  induction rest generalizing v with
  | nil => exact Action.follows_pure _
  | cons p rest ih =>
    obtain ⟨op, e⟩ := p
    rw [List.map_cons, List.forall_mem_cons] at heval
    rw [evaluateChain, evaluateChain]
    refine heval.1.bind ?_
    intro w
    refine (Action.follows_lift _).bind ?_
    intro u
    exact ih u heval.2

/-- Lists of expressions follow each other if their members do. -/
theorem follows_evaluateAll {es : List Expr}
    (heval : ∀ e ∈ es, Follows excused R (eval e) (eval' e)) :
    Follows excused R (evaluateAll eval es) (evaluateAll eval' es) := by
  induction es with
  | nil => exact Action.follows_pure _
  | cons e es ih =>
    rw [List.forall_mem_cons] at heval
    rw [evaluateAll, evaluateAll]
    refine heval.1.bind ?_
    intro v
    refine (ih heval.2).bind ?_
    intro vs
    exact Action.follows_pure _

/-- Lists of statements follow each other if their members do. -/
theorem follows_executeAll {body : List Statement}
    (hexec : ∀ st ∈ body, Follows excused R (exec st) (exec' st)) :
    Follows excused R (executeAll exec body) (executeAll exec' body) := by
  induction body with
  | nil => exact Action.follows_pure _
  | cons st body ih =>
    rw [List.forall_mem_cons] at hexec
    rw [executeAll, executeAll]
    refine hexec.1.bind ?_
    intro flow
    -- a `return` ends both lists at the same statement
    cases flow with
    | next => exact ih hexec.2
    | returned v => exact Action.follows_pure _

theorem follows_evaluateCondition {e : Expr} (heval : Follows excused R (eval e) (eval' e)) :
    Follows excused R (evaluateCondition eval e) (evaluateCondition eval' e) :=
  heval.bind fun _ => Action.follows_lift _

/-- More rounds make a difference only to a loop that is cut short. -/
theorem follows_repeatWhile {condition condition' : Action Bool} {body body' : Action Flow}
    (hcondition : Follows excused R condition condition') (hbody : Follows excused R body body')
    {rounds rounds' : Nat} (hrounds : rounds = rounds' ∨ excused none ∧ rounds ≤ rounds') :
    Follows excused R (repeatWhile condition body rounds)
      (repeatWhile condition' body' rounds') := by
  -- on the rounds of the first loop; the second one is generalized, as both lose one in a round
  induction rounds generalizing rounds' with
  | zero =>
    rcases hrounds with rfl | ⟨hnone, -⟩
    · exact fun _ _ _ => .inr rfl
    · exact Action.follows_unfinished hnone
  | succ rounds ih =>
    -- a first loop with rounds left has them in the second one too
    obtain ⟨rounds', rfl⟩ : ∃ n, rounds' = n + 1 := by
      rcases hrounds with rfl | ⟨-, hle⟩
      · exact ⟨rounds, rfl⟩
      · exact ⟨rounds' - 1, by omega⟩
    have hrest := ih (hrounds.imp Nat.succ.inj (.imp_right Nat.le_of_succ_le_succ))
    rw [repeatWhile, repeatWhile]
    refine hcondition.bind ?_
    intro b
    cases b with
    | false => exact Action.follows_pure _
    | true =>
      refine hbody.bind ?_
      intro flow
      cases flow with
      | next => exact hrest
      | returned v => exact Action.follows_pure _

end

-- ---------------------------------------------------------------------------
-- One step of evaluation
-- ---------------------------------------------------------------------------

section

variable {setting setting' : Setting} {eval eval' : Expr → Action Value}
  {exec exec' : Statement → Action Flow}

/-- A call in a setting that allows as many nested calls, or more if reaching the limit is
excused. -/
theorem follows_callFunction (hdepth : ∀ s t, R s t → s.depth = t.depth) {f : Function}
    {vs : List Value}
    (hmax : setting.maxDepth = setting'.maxDepth ∨
      excused (some (.callTooDeep f.name setting.maxDepth)) ∧
        setting.maxDepth ≤ setting'.maxDepth)
    (hbody : Follows excused R (.inCall (f.bind vs) (executeBlock exec f.body))
      (.inCall (f.bind vs) (executeBlock exec' f.body))) :
    Follows excused R (callFunction setting exec f vs) (callFunction setting' exec' f vs) := by
  intro s t h
  rw [callFunction_apply, callFunction_apply, ← hdepth s t h]
  have hresult := hbody.bind (fun flow => Action.follows_lift (f.result flow)) s t h
  -- the two settings refuse the same calls, or the first one refuses more and is excused
  by_cases hdeep : setting.maxDepth ≤ s.depth
  · rw [if_pos hdeep]
    rcases hmax with hmax | ⟨hexcused, -⟩
    · rw [← hmax, if_pos hdeep]
      exact .inr ⟨t, rfl, h⟩
    · exact .inl hexcused
  · have hdeep' : ¬ setting'.maxDepth ≤ s.depth := by
      rcases hmax with hmax | ⟨-, hle⟩ <;> omega
    rw [if_neg hdeep, if_neg hdeep']
    exact hresult

/-- Calls of the same name follow each other if their arguments do, and the calls of a declared
function of that name do. -/
theorem follows_call (hR : Abreast excused R)
    (hfunctions : ∀ name, setting.functions.find? name = setting'.functions.find? name)
    {name : String} {arguments : List Expr}
    (heval : ∀ e ∈ arguments, Follows excused R (eval e) (eval' e))
    (hcall : ∀ f vs, setting.functions.find? name = some f →
      Follows excused R (callFunction setting exec f vs) (callFunction setting' exec' f vs)) :
    Follows excused R (call setting eval exec name arguments)
      (call setting' eval' exec' name arguments) := by
  have hargs := follows_evaluateAll heval
  -- built-in functions win in both settings, and a name means the same declared function in both
  cases hb : Builtin.find? name with
  | some b =>
    rw [call_builtin _ _ _ _ hb, call_builtin _ _ _ _ hb]
    refine hargs.bind ?_
    intro vs
    refine (Action.follows_lift _).bind ?_
    intro _
    exact hR.run b vs
  | none =>
    cases hf : setting.functions.find? name with
    | none =>
      have hf' : setting'.functions.find? name = none := by rw [← hfunctions, hf]
      rw [call_unknown _ _ _ _ hb hf, call_unknown _ _ _ _ hb hf']
      exact Action.follows_fail _
    | some f =>
      have hf' : setting'.functions.find? name = some f := by rw [← hfunctions, hf]
      rw [call_declared _ _ _ _ hb hf, call_declared _ _ _ _ hb hf']
      refine hargs.bind ?_
      intro vs
      refine (Action.follows_lift _).bind ?_
      intro _
      exact hcall f vs hf

/-- **One step of evaluation** follows another one if the parts of the expression and calls of
declared functions do, and a name has the same value. -/
theorem follows_evaluateWith (hR : Abreast excused R)
    (hfunctions : ∀ name, setting.functions.find? name = setting'.functions.find? name)
    {e : Expr}
    (hget : ∀ name, e = .identifier name →
      ∀ s t, R s t → s.scopes.get? name = t.scopes.get? name)
    (heval : ∀ e' ∈ e.parts, Follows excused R (eval e') (eval' e'))
    (hcall : ∀ name f vs, setting.functions.find? name = some f →
      Follows excused R (callFunction setting exec f vs) (callFunction setting' exec' f vs)) :
    Follows excused R (evaluateWith setting eval exec e)
      (evaluateWith setting' eval' exec' e) := by
  -- by the kind of expression: the operands come first, by `heval`, and what is made of their
  -- values is the same `Except` in both runs
  cases e with
  | disjunction first others => exact follows_evaluateLogical true heval
  | conjunction first others => exact follows_evaluateLogical false heval
  | comparison left op right =>
    simp only [Expr.parts, List.forall_mem_cons] at heval
    refine heval.1.bind ?_
    intro v
    refine heval.2.1.bind ?_
    intro w
    exact Action.follows_lift _
  | orElse left right =>
    -- the right operand runs in both or in neither, as the left one has one value in both
    simp only [Expr.parts, List.forall_mem_cons] at heval
    refine heval.1.bind ?_
    intro v
    split
    · exact heval.2.1
    · exact Action.follows_pure _
  | additive first others =>
    -- the first operand starts a chain over the others
    rw [Expr.parts, List.forall_mem_cons] at heval
    refine heval.1.bind ?_
    intro v
    exact follows_evaluateChain Value.additive v heval.2
  | multiplicative first others =>
    rw [Expr.parts, List.forall_mem_cons] at heval
    refine heval.1.bind ?_
    intro v
    exact follows_evaluateChain Value.multiplicative v heval.2
  | cast operand target =>
    refine (heval operand List.mem_cons_self).bind ?_
    intro v
    exact Action.follows_lift _
  | unary op operand =>
    refine (heval operand List.mem_cons_self).bind ?_
    intro v
    exact Action.follows_lift _
  | literal d => exact Action.follows_pure _
  | identifier name =>
    -- a variable is only looked up, which is where the scopes of the two runs must agree
    intro s t h
    rw [evaluateWith_identifier, evaluateWith_identifier, ← hget name rfl s t h]
    cases s.scopes.get? name with
    | none => exact .inr ⟨t, rfl, h⟩
    | some x => exact ⟨t, rfl, h⟩
  -- the one case where functions of the setting, and streams, come in
  | call name arguments => exact follows_call hR hfunctions heval (hcall name)

end

-- ---------------------------------------------------------------------------
-- One step of execution
-- ---------------------------------------------------------------------------

section

variable {eval eval' : Expr → Action Value} {exec exec' : Statement → Action Flow}

/-- Blocks follow each other if their statements do, in scopes related by another relation. -/
theorem follows_executeBlock {body : List Statement}
    (henter : ∀ s t, R s t → J s.enterBlock t.enterBlock)
    (hleave : ∀ s t, J s t → R s.leaveBlock t.leaveBlock)
    (hexec : ∀ st ∈ body, Follows excused J (exec st) (exec' st)) :
    Follows excused R (executeBlock exec body) (executeBlock exec' body) :=
  (follows_executeAll hexec).between henter hleave

/-- Assignments follow each other if their values do, and storing a value does. -/
theorem follows_executeAssign
    (hget : ∀ s t name, R s t → s.scopes.get? name = t.scopes.get? name) {target value : Expr}
    (heval : Follows excused R (eval value) (eval' value))
    (hstore : ∀ name v, Follows excused R (storeValue name v) (storeValue name v)) :
    Follows excused R (executeAssign eval target value) (executeAssign eval' target value) := by
  cases target with
  | identifier name =>
    intro s t h
    -- both lookups before the value find the same variable, so the two runs are refused together
    rw [executeAssign_identifier, executeAssign_identifier, ← hget s t name h]
    split
    · exact .inr ⟨t, rfl, h⟩
    · split
      · exact .inr ⟨t, rfl, h⟩
      · exact heval.bind (hstore name) s t h
  | _ => exact Action.follows_fail _

/-- **One step of execution** follows another one if its expressions, its blocks, and the changes
to variables do. -/
theorem follows_executeWith
    (hget : ∀ s t name, R s t → s.scopes.get? name = t.scopes.get? name)
    {st : Statement} {rounds rounds' : Nat}
    (hrounds : rounds = rounds' ∨ excused none ∧ rounds ≤ rounds')
    (heval : ∀ e ∈ st.parts, Follows excused R (eval e) (eval' e))
    (hblock : ∀ body ∈ st.blocks,
      Follows excused R (executeBlock exec body) (executeBlock exec' body))
    (hstore : ∀ name v, Follows excused R (storeValue name v) (storeValue name v))
    (hdeclare : ∀ x, Follows excused R (declareVariable x) (declareVariable x)) :
    Follows excused R (executeWith eval exec rounds st) (executeWith eval' exec' rounds' st) := by
  -- by the kind of statement: its condition or value first, and then the block or the change of a
  -- variable that it leads to
  cases st with
  | branch condition body otherwise =>
    refine (follows_evaluateCondition (heval condition List.mem_cons_self)).bind ?_
    intro b
    -- both runs take the same branch, as the condition has one value in both
    split
    · exact hblock body List.mem_cons_self
    · cases otherwise with
      | none => exact Action.follows_pure _
      | some other => exact hblock other (by simp [Statement.blocks])
  | loop condition body =>
    exact follows_repeatWhile (follows_evaluateCondition (heval condition List.mem_cons_self))
      (hblock body List.mem_cons_self) hrounds
  | giveBack value =>
    cases value with
    | none => exact Action.follows_pure _
    | some e =>
      refine (heval e (by simp [Statement.parts])).bind ?_
      intro v
      exact Action.follows_pure _
  | perform e =>
    refine (heval e List.mem_cons_self).bind ?_
    intro v
    exact Action.follows_pure _
  | assign target value =>
    exact follows_executeAssign hget (heval value List.mem_cons_self) hstore
  | declare isConst name type value =>
    cases value with
    | none => exact hdeclare _
    | some e =>
      refine (heval e (by simp [Statement.parts])).bind ?_
      intro v
      exact hdeclare _

end

-- ---------------------------------------------------------------------------
-- Larger bounds
-- ---------------------------------------------------------------------------

/-- Runs with the same functions. Where a bound of the second one is larger, reaching the smaller
one is excused. -/
theorem follows_larger {setting setting' : Setting}
    (hfunctions : ∀ name, setting.functions.find? name = setting'.functions.find? name)
    (hmax : setting.maxDepth = setting'.maxDepth ∨
      (∀ name, excused (some (.callTooDeep name setting.maxDepth))) ∧
        setting.maxDepth ≤ setting'.maxDepth)
    {steps steps' : Nat} (hsteps : steps = steps' ∨ excused none ∧ steps ≤ steps') :
    (∀ e, Follows excused Eq (evaluate setting steps e) (evaluate setting' steps' e)) ∧
      ∀ st, Follows excused Eq (execute setting steps st) (execute setting' steps' st) := by
  -- on the steps of the first run; the other one has as many left, or more
  induction steps generalizing steps' with
  | zero =>
    rcases hsteps with rfl | ⟨hnone, -⟩
    · exact ⟨fun _ _ _ _ => .inr rfl, fun _ _ _ _ => .inr rfl⟩
    · exact ⟨fun _ => Action.follows_unfinished hnone, fun _ => Action.follows_unfinished hnone⟩
  | succ steps ih =>
    obtain ⟨steps', rfl⟩ : ∃ n, steps' = n + 1 := by
      rcases hsteps with rfl | ⟨-, hle⟩
      · exact ⟨steps, rfl⟩
      · exact ⟨steps' - 1, by omega⟩
    have hsteps' : steps = steps' ∨ excused none ∧ steps ≤ steps' :=
      hsteps.imp Nat.succ.inj (.imp_right Nat.le_of_succ_le_succ)
    -- the parts run with one step less, and so do the blocks
    obtain ⟨heval, hexec⟩ := ih hsteps'
    have hblock : ∀ body, Follows excused Eq (executeBlock (execute setting steps) body)
        (executeBlock (execute setting' steps') body) :=
      fun body => follows_executeBlock (fun _ _ h => congrArg _ h) (fun _ _ h => congrArg _ h)
        fun st _ => hexec st
    constructor
    · intro e
      rw [evaluate_succ, evaluate_succ]
      refine follows_evaluateWith alike_eq.abreast hfunctions
        (fun name _ s t => alike_eq.get? s t name) (fun e' _ => heval e') fun _ f vs _ => ?_
      exact follows_callFunction alike_eq.depth (hmax.imp_right (.imp_left fun h => h f.name))
        ((hblock f.body).between (fun _ _ h => congrArg _ h) fun _ _ h => congrArg _ h)
    · intro st
      rw [execute_succ, execute_succ]
      exact follows_executeWith alike_eq.get? hsteps' (fun e _ => heval e)
        (fun body _ => hblock body) (fun _ _ => Action.follows_refl _)
        fun _ => Action.follows_refl _

/-- A bound that is larger makes a difference only to runs that reach the smaller one. -/
theorem follows_more_steps (setting : Setting) {steps steps' : Nat} (h : steps ≤ steps') :
    (∀ e, Follows (· = none) Eq (evaluate setting steps e) (evaluate setting steps' e)) ∧
      ∀ st, Follows (· = none) Eq (execute setting steps st) (execute setting steps' st) :=
  follows_larger (fun _ => rfl) (.inl rfl) (.inr ⟨rfl, h⟩)

/-- What statements do depends on which function a name stands for, but not on the order of the
functions. -/
theorem execute_eq_of_find?_eq {setting setting' : Setting}
    (hfunctions : ∀ name, setting.functions.find? name = setting'.functions.find? name)
    (hmax : setting.maxDepth = setting'.maxDepth) (steps : Nat) :
    execute setting steps = execute setting' steps := by
  funext st s
  have hfollows : Follows (fun _ => False) Eq (execute setting steps st)
      (execute setting' steps st) :=
    -- with no excuse and equal bounds, matching is equality
    (follows_larger hfunctions (.inl hmax) (.inl rfl)).2 st
  exact ((hfollows s s rfl).eq_of_not_excused (fun _ => id) fun _ _ _ => id).symm

end NullScript
