import NullScript.Session

/-!
# NullScript — invariants of evaluation

What a running program never breaks is shown once for each part of the evaluator. `Answer.Ensures`
says what holds of the way an action ends, and `Action.Keeps` that an action preserves an
invariant of the state and gives only values of some kind.

* `keeps_evaluateWith`, `keeps_executeWith` — one step of the evaluator keeps an invariant if its
  parts do, calls of declared functions do, and the changes it makes itself do.

Both leave open what reaching the bound on the number of steps counts as. If it counts as `False`,
they show in addition that the action comes to an end.
-/

namespace NullScript

variable {α β : Type} {late : Prop}

namespace Answer

/-- What holds of an answer: `post` of the value and the state if the action is done, `fail` of
the failure and the state if it failed, and `late` if the bound on the steps was reached. -/
def Ensures (late : Prop) (post : α → State → Prop) (fail : Failure → State → Prop) :
    Answer α → Prop
  | .unfinished => late
  | .failed e s => fail e s
  | .done a s => post a s

/-- The state that an answer leaves, if there is one. -/
def state? : Answer α → Option State
  | .unfinished => none
  | .failed _ s => some s
  | .done _ s => some s

/-- What holds of the state that is left, whichever way the action ends. -/
def Leaves (r : Answer α) (P : State → Prop) : Prop := ∀ t, r.state? = some t → P t

variable {post post' : α → State → Prop} {fail fail' : Failure → State → Prop}

/-- What is ensured may be weakened. -/
theorem Ensures.imp {r : Answer α} (h : r.Ensures late post fail)
    (hpost : ∀ a s, post a s → post' a s) (hfail : ∀ e s, fail e s → fail' e s) :
    r.Ensures late post' fail' := by
  cases r with
  | unfinished => exact h
  | failed e s => exact hfail e s h
  | done a s => exact hpost a s h

/-- Two things that are ensured separately are ensured together. -/
theorem Ensures.and {r : Answer α} (h : r.Ensures late post fail)
    (h' : r.Ensures late post' fail') :
    r.Ensures late (fun a s => post a s ∧ post' a s) fun e s => fail e s ∧ fail' e s := by
  cases r with
  | unfinished => exact h
  | failed e s => exact ⟨h, h'⟩
  | done a s => exact ⟨h, h'⟩

/-- What follows from either way to end holds of the state that is left. -/
theorem Ensures.leaves {r : Answer α} {P : State → Prop} (h : r.Ensures late post fail)
    (hpost : ∀ a t, post a t → P t) (hfail : ∀ e t, fail e t → P t) : r.Leaves P := by
  intro t ht
  cases r with
  | unfinished => cases ht
  | failed e s =>
    cases ht
    exact hfail e t h
  | done a s =>
    cases ht
    exact hpost a t h

theorem Leaves.imp {r : Answer α} {P Q : State → Prop} (h : r.Leaves P) (hPQ : ∀ t, P t → Q t) :
    r.Leaves Q :=
  fun t ht => hPQ t (h t ht)

/-- What holds of the state that is left is ensured, whichever way the action ends. -/
theorem Leaves.ensures {r : Answer α} {P : State → Prop} (h : r.Leaves P) :
    r.Ensures True (fun _ t => P t) fun _ t => P t := by
  cases r with
  | unfinished => trivial
  | failed e t => exact h t rfl
  | done a t => exact h t rfl

/-- A sequence of actions ends as its second action does, or as its first one if that one does not
come to its end. -/
theorem ensures_bind {m : Action α} {f : α → Action β} {s : State} {post : β → State → Prop} :
    ((m >>= f) s).Ensures late post fail ↔
      (m s).Ensures late (fun a t => (f a t).Ensures late post fail) fail := by
  rw [Action.bind_apply]
  cases m s <;> rfl

end Answer

open NullScript.Answer (Ensures)

-- ---------------------------------------------------------------------------
-- Actions that keep an invariant
-- ---------------------------------------------------------------------------

namespace Action

/-- From every state with `I` the action leaves a state with `I`, whichever way it ends, and gives
only values with `V`. -/
def Keeps (late : Prop) (I : State → Prop) (V : α → Prop) (m : Action α) : Prop :=
  ∀ s, I s → (m s).Ensures late (fun a t => I t ∧ V a) fun _ t => I t

variable {I J : State → Prop} {U V : α → Prop} {W : β → Prop} {m : Action α}

theorem keeps_pure {a : α} (ha : V a) : Keeps late I V (pure a) :=
  fun _ hs => ⟨hs, ha⟩

/-- A failure keeps every invariant, as it changes nothing. -/
theorem keeps_fail (e : Failure) : Keeps late I V (.fail e) :=
  fun _ hs => hs

theorem keeps_lift {r : Except Failure α} (h : ∀ a, r = .ok a → V a) :
    Keeps late I V (.lift r) := by
  cases r with
  | ok a => exact keeps_pure (h a rfl)
  | error e => exact keeps_fail e

theorem keeps_lift_map {r : Except Failure α} {g : α → β} (h : ∀ a, W (g a)) :
    Keeps late I W (.lift (r.map g)) := by
  cases r with
  | ok a => exact keeps_pure (h a)
  | error e => exact keeps_fail e

theorem Keeps.imp (hm : Keeps late I U m) (h : ∀ a, U a → V a) : Keeps late I V m :=
  fun s hs => (hm s hs).imp (fun a _ ha => ⟨ha.1, h a ha.2⟩) fun _ _ ht => ht

/-- An action about whose values nothing is said keeps what it leaves. -/
theorem keeps_of_leaves (h : ∀ s, I s → (m s).Leaves I) : Keeps True I (fun _ => True) m :=
  fun s hs => (h s hs).ensures.imp (fun _ _ ht => ⟨ht, trivial⟩) fun _ _ ht => ht

theorem Keeps.leaves (hm : Keeps late I V m) {s : State} (hs : I s) : (m s).Leaves I :=
  (hm s hs).leaves (fun _ _ ht => ht.1) fun _ _ ht => ht

/-- A sequence of actions keeps an invariant if both of them do, the second one after every value of
the first. -/
theorem Keeps.bind {f : α → Action β} (hm : Keeps late I V m)
    (hf : ∀ a, V a → Keeps late I W (f a)) : Keeps late I W (m >>= f) := by
  intro s hs
  rw [Answer.ensures_bind]
  exact (hm s hs).imp (fun a t ht => hf a ht.2 t ht.1) fun _ _ ht => ht

/-- An action on the streams keeps an invariant that says nothing about them. -/
theorem keeps_onStreams {f : Streams → Except Failure α × Streams}
    (hI : ∀ s streams, I s → I { s with streams })
    (hV : ∀ s a, (f s).1 = .ok a → V a) : Keeps late I V (.onStreams f) := by
  intro s hs
  have hf := hV s.streams
  unfold onStreams
  cases h : f s.streams with
  | mk r streams =>
    rw [h] at hf
    cases r with
    | ok a => exact ⟨hI s streams hs, hf a rfl⟩
    | error e => exact hI s streams hs

/-- An action between two changes of the state may work with an invariant of its own. -/
theorem Keeps.between {enter leave : State → State} (hm : Keeps late J V m)
    (henter : ∀ s, I s → J (enter s)) (hleave : ∀ s, J s → I (leave s)) :
    Keeps late I V (between enter leave m) := by
  intro s hs
  -- whichever way the action in between ends, the second change is made to the state it leaves
  have h := hm (enter s) (henter s hs)
  rw [between_apply]
  cases hr : m (enter s) with
  | unfinished =>
    rw [hr] at h
    exact h
  | failed e t =>
    rw [hr] at h
    exact hleave t h
  | done a t =>
    rw [hr] at h
    exact ⟨hleave t h.1, h.2⟩

end Action

open NullScript.Action (Keeps)

-- ---------------------------------------------------------------------------
-- Chains, lists and loops
-- ---------------------------------------------------------------------------

section

variable {I : State → Prop} {V : Value → Prop} {F : Flow → Prop} {eval : Expr → Action Value}
  {exec : Statement → Action Flow}

/-- `&&` and `||` keep what their operands do. -/
theorem keeps_evaluateLogical (hbool : ∀ b, V (.bool b)) (decisive : Bool) {es : List Expr}
    (heval : ∀ e ∈ es, Keeps late I V (eval e)) :
    Keeps late I V (evaluateLogical eval decisive es) := by
  induction es with
  | nil => exact Action.keeps_pure (hbool _)
  | cons e es ih =>
    rw [evaluateLogical]
    refine (heval e List.mem_cons_self).bind ?_
    intro v _
    refine (Action.keeps_lift (V := fun _ => True) fun _ _ => trivial).bind ?_
    intro b _
    -- a deciding operand ends the evaluation
    split
    · exact Action.keeps_pure (hbool _)
    · exact ih fun e he => heval e (List.mem_cons_of_mem _ he)

/-- A chain of operators keeps what its operands do, if each operator gives a value of the kind. -/
theorem keeps_evaluateChain {Op : Type} {apply : Value → Op → Value → Except Failure Value}
    (happly : ∀ v op w u, V v → V w → apply v op w = .ok u → V u) {v : Value} (hv : V v)
    {rest : List (Op × Expr)} (heval : ∀ e ∈ rest.map Prod.snd, Keeps late I V (eval e)) :
    Keeps late I V (evaluateChain eval apply v rest) := by
  induction rest generalizing v with
  | nil => exact Action.keeps_pure hv
  | cons p rest ih =>
    obtain ⟨op, e⟩ := p
    -- the induction is on the operators that are left, with any value of the kind so far
    rw [List.map_cons, List.forall_mem_cons] at heval
    rw [evaluateChain]
    refine heval.1.bind ?_
    intro w hw
    refine (Action.keeps_lift fun u hu => happly v op w u hv hw hu).bind ?_
    intro u hu
    exact ih hu heval.2

/-- A list of expressions keeps what each of them does, and all its values are of the kind. -/
theorem keeps_evaluateAll {es : List Expr} (heval : ∀ e ∈ es, Keeps late I V (eval e)) :
    Keeps late I (fun vs => ∀ v ∈ vs, V v) (evaluateAll eval es) := by
  induction es with
  | nil => exact Action.keeps_pure (List.forall_mem_nil V)
  | cons e es ih =>
    rw [List.forall_mem_cons] at heval
    rw [evaluateAll]
    refine heval.1.bind ?_
    intro v hv
    refine (ih heval.2).bind ?_
    intro vs hvs
    exact Action.keeps_pure (List.forall_mem_cons.mpr ⟨hv, hvs⟩)

/-- A list of statements keeps what each of them does. -/
theorem keeps_executeAll (hnext : F .next) {body : List Statement}
    (hexec : ∀ st ∈ body, Keeps late I F (exec st)) :
    Keeps late I F (executeAll exec body) := by
  induction body with
  | nil => exact Action.keeps_pure hnext
  | cons st body ih =>
    rw [List.forall_mem_cons] at hexec
    rw [executeAll]
    refine hexec.1.bind ?_
    intro flow hflow
    -- a statement that returns ends the list
    cases flow with
    | next => exact ih hexec.2
    | returned v => exact Action.keeps_pure hflow

theorem keeps_evaluateCondition {e : Expr} (heval : Keeps late I V (eval e)) :
    Keeps late I (fun _ => True) (evaluateCondition eval e) :=
  heval.bind fun _ _ => Action.keeps_lift fun _ _ => trivial

/-- A loop may reach the bound, whatever its condition and its body do. -/
theorem keeps_repeatWhile (hlate : late) (hnext : F .next) {condition : Action Bool}
    {body : Action Flow} (hcondition : Keeps late I (fun _ => True) condition)
    (hbody : Keeps late I F body) (rounds : Nat) :
    Keeps late I F (repeatWhile condition body rounds) := by
  induction rounds with
  -- no rounds left: this is where the bound is reached
  | zero => exact fun _ _ => hlate
  | succ rounds ih =>
    rw [repeatWhile]
    refine hcondition.bind ?_
    intro b _
    -- the loop ends, goes on or returns
    cases b with
    | false => exact Action.keeps_pure hnext
    | true =>
      refine hbody.bind ?_
      intro flow hflow
      cases flow with
      | next => exact ih
      | returned v => exact Action.keeps_pure hflow

end

-- ---------------------------------------------------------------------------
-- One step of evaluation
-- ---------------------------------------------------------------------------

/-- The expressions that an expression is made of directly. -/
def Expr.parts : Expr → List Expr
  | .disjunction first others => first :: others
  | .conjunction first others => first :: others
  | .comparison left _ right => [left, right]
  | .orElse left right => [left, right]
  | .additive first others => first :: others.map Prod.snd
  | .multiplicative first others => first :: others.map Prod.snd
  | .cast operand _ => [operand]
  | .unary _ operand => [operand]
  | .literal _ => []
  | .identifier _ => []
  | .call _ arguments => arguments

/-- The expressions that stand in a statement itself, not in its blocks. -/
def Statement.parts : Statement → List Expr
  | .branch condition _ _ => [condition]
  | .loop condition _ => [condition]
  | .giveBack value => value.toList
  | .perform e => [e]
  | .assign _ value => [value]
  | .declare _ _ _ value => value.toList

/-- The blocks of a statement. -/
def Statement.blocks : Statement → List (List Statement)
  | .branch _ body otherwise => body :: otherwise.toList
  | .loop _ body => [body]
  | _ => []

/-- A kind of values that contains all literals and is closed under all operations. -/
structure ClosedUnderOperations (V : Value → Prop) : Prop where
  literal : ∀ d, V (.ofDatum d)
  present : ∀ v, V v → v.isNull = false → V v.present
  additive : ∀ v op w u, V v → V w → v.additive op w = .ok u → V u
  multiplicative : ∀ v op w u, V v → V w → v.multiplicative op w = .ok u → V u
  cast : ∀ v target u, V v → v.cast target = .ok u → V u
  unary : ∀ op v u, V v → v.unary op = .ok u → V u
  builtin : ∀ (b : Builtin) vs s u, (∀ v ∈ vs, V v) → (b.run vs s).1 = .ok u → V u

/-- Truth values are of every such kind, as they are literals. -/
theorem ClosedUnderOperations.bool {V : Value → Prop} (hV : ClosedUnderOperations V) (b : Bool) :
    V (.bool b) :=
  hV.literal (.bool b)

theorem closedUnderOperations_true : ClosedUnderOperations fun _ => True := by
  constructor <;> intros <;> trivial

section

variable {setting : Setting} {I : State → Prop} {V : Value → Prop} {eval : Expr → Action Value}
  {exec : Statement → Action Flow}

/-- A call keeps an invariant if its arguments and the bodies of declared functions do. -/
theorem keeps_call (hV : ClosedUnderOperations V)
    (hstreams : ∀ s streams, I s → I { s with streams }) {name : String} {arguments : List Expr}
    (heval : ∀ e ∈ arguments, Keeps late I V (eval e))
    (hcall : ∀ f vs, setting.functions.find? name = some f → (∀ v ∈ vs, V v) →
      checkArguments f.parameterKinds vs = .ok () →
      Keeps late I V (callFunction setting exec f vs)) :
    Keeps late I V (call setting eval exec name arguments) := by
  have hargs := keeps_evaluateAll heval
  -- a built-in function comes before a declared one of the same name
  cases hb : Builtin.find? name with
  | some b =>
    rw [call_builtin _ _ _ _ hb]
    refine hargs.bind ?_
    intro vs hvs
    refine (Action.keeps_lift (V := fun _ => True) fun _ _ => trivial).bind ?_
    intro _ _
    exact Action.keeps_onStreams hstreams fun s u hu => hV.builtin b vs s u hvs hu
  | none =>
    cases hf : setting.functions.find? name with
    | none =>
      rw [call_unknown _ _ _ _ hb hf]
      exact Action.keeps_fail _
    | some f =>
      rw [call_declared _ _ _ _ hb hf]
      refine hargs.bind ?_
      intro vs hvs
      -- the arguments were checked before the function is entered
      refine (Action.keeps_lift (V := fun _ => checkArguments f.parameterKinds vs = .ok ())
        fun _ h => h).bind ?_
      intro _ hcheck
      exact hcall f vs hf hvs hcheck

/-- **One step of evaluation** keeps an invariant that the parts of the expression and calls of
declared functions keep. -/
theorem keeps_evaluateWith (hV : ClosedUnderOperations V)
    (hstreams : ∀ s streams, I s → I { s with streams })
    (hvariable : ∀ s name x, I s → s.scopes.get? name = some x → V x.value)
    {e : Expr} (heval : ∀ e' ∈ e.parts, Keeps late I V (eval e'))
    (hcall : ∀ name f vs, setting.functions.find? name = some f → (∀ v ∈ vs, V v) →
      checkArguments f.parameterKinds vs = .ok () →
      Keeps late I V (callFunction setting exec f vs)) :
    Keeps late I V (evaluateWith setting eval exec e) := by
  cases e with
  | disjunction first others => exact keeps_evaluateLogical hV.bool true heval
  | conjunction first others => exact keeps_evaluateLogical hV.bool false heval
  | comparison left op right =>
    simp only [Expr.parts, List.forall_mem_cons] at heval
    refine heval.1.bind ?_
    intro v _
    refine heval.2.1.bind ?_
    intro w _
    exact Action.keeps_lift_map hV.bool
  | orElse left right =>
    simp only [Expr.parts, List.forall_mem_cons] at heval
    refine heval.1.bind ?_
    intro v hv
    -- the right operand stands in for a null only
    split
    · exact heval.2.1
    · rename_i hnull
      exact Action.keeps_pure (hV.present v hv (Bool.of_not_eq_true hnull))
  | additive first others =>
    rw [Expr.parts, List.forall_mem_cons] at heval
    refine heval.1.bind ?_
    intro v hv
    exact keeps_evaluateChain hV.additive hv heval.2
  | multiplicative first others =>
    rw [Expr.parts, List.forall_mem_cons] at heval
    refine heval.1.bind ?_
    intro v hv
    exact keeps_evaluateChain hV.multiplicative hv heval.2
  | cast operand target =>
    refine (heval operand List.mem_cons_self).bind ?_
    intro v hv
    exact Action.keeps_lift fun u hu => hV.cast v target u hv hu
  | unary op operand =>
    refine (heval operand List.mem_cons_self).bind ?_
    intro v hv
    exact Action.keeps_lift fun u hu => hV.unary op v u hv hu
  | literal d => exact Action.keeps_pure (hV.literal d)
  | identifier name =>
    intro s hs
    rw [evaluateWith_identifier]
    cases hx : s.scopes.get? name with
    | none => exact hs
    -- a variable holds a value of the kind
    | some x => exact ⟨hs, hvariable s name x hs hx⟩
  | call name arguments => exact keeps_call hV hstreams heval (hcall name)

end

-- ---------------------------------------------------------------------------
-- One step of execution
-- ---------------------------------------------------------------------------

/-- A value that a statement returns is of some kind. -/
def Flow.Gives (V : Value → Prop) : Flow → Prop
  | .next => True
  | .returned v => V v

theorem Flow.gives_true (flow : Flow) : flow.Gives fun _ => True := by
  cases flow <;> trivial

section

variable {I J : State → Prop} {V : Value → Prop} {eval : Expr → Action Value}
  {exec : Statement → Action Flow}

/-- Inside a block a weaker invariant may hold, as long as closing the block restores it. -/
theorem keeps_executeBlock {body : List Statement} (henter : ∀ s, I s → J s.enterBlock)
    (hleave : ∀ s, J s → I s.leaveBlock)
    (hexec : ∀ st ∈ body, Keeps late J (Flow.Gives V) (exec st)) :
    Keeps late I (Flow.Gives V) (executeBlock exec body) :=
  (keeps_executeAll trivial hexec).between henter hleave

/-- The value that a variable starts with. -/
theorem keeps_executeDeclare (hvoid : V .void) {isConst : Bool} {name : String} {type : Ty}
    {value : Option Expr} (heval : ∀ e ∈ value.toList, Keeps late I V (eval e))
    (hdeclare : ∀ v, V v →
      Keeps late I (Flow.Gives V) (declareVariable ⟨name, type, isConst, v⟩)) :
    Keeps late I (Flow.Gives V) (executeDeclare eval isConst name type value) := by
  cases value with
  | none => exact hdeclare .void hvoid
  | some e =>
    refine (heval e (by simp)).bind ?_
    intro v hv
    exact hdeclare v hv

/-- An assignment keeps an invariant if its value does, and storing any value of the kind does. -/
theorem keeps_executeAssign {target value : Expr} (heval : Keeps late I V (eval value))
    (hstore : ∀ name v, V v → Keeps late I (Flow.Gives V) (storeValue name v)) :
    Keeps late I (Flow.Gives V) (executeAssign eval target value) := by
  -- only an identifier is assigned to
  cases target with
  | identifier name =>
    intro s hs
    -- an unknown name and a constant are refused before the value is evaluated
    rw [executeAssign_identifier]
    split
    · exact hs
    · split
      · exact hs
      · exact (heval.bind fun v hv => hstore name v hv) s hs
  | _ => exact Action.keeps_fail _

/-- **One step of execution** keeps an invariant that its expressions, its blocks, and the change
it makes to a variable keep. Only a loop can reach the bound by itself. -/
theorem keeps_executeWith (hvoid : V .void) {st : Statement} {rounds : Nat}
    (hlate : ∀ condition body, st = .loop condition body → late)
    (heval : ∀ e ∈ st.parts, Keeps late I V (eval e))
    (hblock : ∀ body ∈ st.blocks, Keeps late I (Flow.Gives V) (executeBlock exec body))
    (hassign : ∀ target value, st = .assign target value →
      Keeps late I (Flow.Gives V) (executeAssign eval target value))
    (hdeclare : ∀ isConst name type value v, st = .declare isConst name type value → V v →
      Keeps late I (Flow.Gives V) (declareVariable ⟨name, type, isConst, v⟩)) :
    Keeps late I (Flow.Gives V) (executeWith eval exec rounds st) := by
  cases st with
  | branch condition body otherwise =>
    refine (keeps_evaluateCondition (heval condition List.mem_cons_self)).bind ?_
    intro b _
    split
    · exact hblock body List.mem_cons_self
    -- a branch without `else` does nothing
    · cases otherwise with
      | none => exact Action.keeps_pure trivial
      | some other => exact hblock other (by simp [Statement.blocks])
  | loop condition body =>
    exact keeps_repeatWhile (hlate condition body rfl) trivial
      (keeps_evaluateCondition (heval condition List.mem_cons_self))
      (hblock body List.mem_cons_self) rounds
  | giveBack value =>
    -- `return` without a value gives void
    cases value with
    | none => exact Action.keeps_pure hvoid
    | some e =>
      refine (heval e (by simp [Statement.parts])).bind ?_
      intro v hv
      exact Action.keeps_pure hv
  | perform e =>
    refine (heval e List.mem_cons_self).bind ?_
    intro _ _
    exact Action.keeps_pure trivial
  | assign target value => exact hassign target value rfl
  | declare isConst name type value =>
    exact keeps_executeDeclare hvoid heval fun v hv =>
      hdeclare isConst name type value v rfl hv

end

end NullScript
