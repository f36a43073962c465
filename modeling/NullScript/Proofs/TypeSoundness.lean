import NullScript.Proofs.Consistent
import NullScript.Proofs.Scope

/-!
# NullScript — type soundness

Types are checked while a program runs: when a variable is declared or assigned, when arguments
are bound, when a function returns. A value carries a type of its own, which need not be that of
the variable it is stored in. The theorems here show that these checks are enough. A `return` ends
statements alone: an expression gives a value or fails, and a call turns what its body returns into
its value.

* `State.WellTyped` — every live variable holds a consistent value that fits its declared type.
* `evaluation_sound` — the state is well typed in every reachable session. Evaluation, execution
  and calls leave it so however they end, and give consistent values only.
-/

namespace NullScript

variable {late : Prop}

/-- A variable that holds a consistent value which fits its declared type. -/
structure Variable.WellTyped (x : Variable) : Prop where
  consistent : x.value.Consistent
  fits : x.value.fits x.type = true

/-- All live variables are well typed. -/
def State.WellTyped (s : State) : Prop := ∀ x ∈ s.scopes.live, x.WellTyped

-- ---------------------------------------------------------------------------
-- Changes of the state
-- ---------------------------------------------------------------------------

theorem wellTyped_new (streams : Streams) : State.WellTyped ⟨.empty, 0, streams⟩ := by
  intro x hx
  cases hx

namespace State.WellTyped

variable {s : State}

theorem enterBlock (hs : s.WellTyped) : s.enterBlock.WellTyped := hs

theorem leaveBlock (hs : s.WellTyped) : s.leaveBlock.WellTyped :=
  fun x hx => hs x (Scopes.mem_live_pop hx)

/-- Entering a call adds its parameters, which have to be well typed. -/
theorem enterCall (hs : s.WellTyped) {parameters : List Variable}
    (hparameters : ∀ x ∈ parameters, x.WellTyped) : (s.enterCall parameters).WellTyped := by
  intro x hx
  rcases Scopes.mem_live_pushCall hx with hx | hx
  · exact hparameters x hx
  · exact hs x hx

theorem leaveCall (hs : s.WellTyped) : s.leaveCall.WellTyped :=
  fun x hx => hs x (Scopes.mem_live_pop hx)

end State.WellTyped

/-- **A declaration** checks the value against the type, so its variable is well typed. -/
theorem keeps_declareVariable_wellTyped {x : Variable} (hx : x.value.Consistent) :
    Action.Keeps late State.WellTyped (Flow.Gives Value.Consistent) (declareVariable x) := by
  intro s hs
  rw [declareVariable_apply]
  split
  · rename_i hfits
    cases h : s.scopes.declare x with
    | error e => exact hs
    | ok scopes =>
      refine ⟨fun y hy => ?_, trivial⟩
      rcases Scopes.mem_live_declare h hy with rfl | hy
      · exact ⟨hx, hfits⟩
      · exact hs y hy
  · exact hs

/-- **Storing a value** checks it against the type of the variable, which stays well typed. -/
theorem keeps_storeValue_wellTyped (name : String) {v : Value} (hv : v.Consistent) :
    Action.Keeps late State.WellTyped (Flow.Gives Value.Consistent) (storeValue name v) := by
  intro s hs
  rw [storeValue_apply]
  split
  · exact hs
  · rename_i x hx
    split
    · rename_i hfits
      refine ⟨fun y hy => ?_, trivial⟩
      -- the variable that was found holds the new value, and the others what they held
      rcases Scopes.mem_live_set hy with hy | ⟨x', hx', rfl⟩
      · exact hs y hy
      · rw [hx] at hx'
        cases hx'
        exact ⟨hv, hfits⟩
    · exact hs

-- ---------------------------------------------------------------------------
-- Calls
-- ---------------------------------------------------------------------------

/-- What a check of the arguments says about the variables that hold them. -/
theorem fits_of_checkEach {ps : List Parameter} {vs : List Value}
    (h : checkEach (ps.map fun p => .slot p.type) vs = .ok ()) :
    ∀ x ∈ List.zipWith (fun p v => (⟨p.name, p.type, false, v⟩ : Variable)) ps vs,
      x.value ∈ vs ∧ x.value.fits x.type = true := by
  induction ps generalizing vs with
  | nil =>
    intro x hx
    cases hx
  | cons p ps ih =>
    cases vs with
    | nil =>
      intro x hx
      cases hx
    | cons v vs =>
      rw [List.map_cons, checkEach] at h
      split at h
      · rename_i hfits
        intro x hx
        rcases List.mem_cons.mp hx with rfl | hx
        · exact ⟨List.mem_cons_self, hfits⟩
        · obtain ⟨hmem, hfits'⟩ := ih h x hx
          exact ⟨List.mem_cons_of_mem _ hmem, hfits'⟩
      · cases h

/-- Arguments that pass the check make well-typed parameters. -/
theorem Function.wellTyped_bind {f : Function} {vs : List Value}
    (hcheck : checkArguments f.parameterKinds vs = .ok ()) (hvs : ∀ v ∈ vs, v.Consistent) :
    ∀ x ∈ f.bind vs, x.WellTyped := by
  unfold checkArguments at hcheck
  split at hcheck
  · cases hcheck
  · intro x hx
    obtain ⟨hmem, hfits⟩ := fits_of_checkEach hcheck x hx
    exact ⟨hvs x.value hmem, hfits⟩

/-- The value of a call is consistent if the body returns only consistent values, and fits the
result type of the function if it has one. -/
theorem Function.sound_result {f : Function} {flow : Flow} {v : Value}
    (hflow : flow.Gives Value.Consistent) (h : f.result flow = .ok v) :
    v.Consistent ∧ (f.returns.isVoid = false → v.fits f.returns = true) := by
  unfold result at h
  -- without a `return` only a function that returns nothing gets by
  cases flow with
  | next =>
    dsimp only at h
    split at h
    · rename_i hvoid
      cases h
      exact ⟨rfl, fun hvoid' => by rw [hvoid] at hvoid'; cases hvoid'⟩
    · cases h
  | returned w =>
    dsimp only at h
    split at h
    · rename_i hvoid
      cases h
      rw [Bool.and_eq_true] at hvoid
      exact ⟨rfl, fun hvoid' => by rw [hvoid.1] at hvoid'; cases hvoid'⟩
    · split at h
      · rename_i hfits
        cases h
        exact ⟨hflow, fun _ => hfits⟩
      · cases h

section

variable {setting : Setting} {exec : Statement → Action Flow}
  (hexec : ∀ st, Action.Keeps late State.WellTyped (Flow.Gives Value.Consistent) (exec st))

include hexec

/-- **A block** keeps the state well typed if its statements do. -/
theorem keeps_executeBlock_wellTyped (body : List Statement) :
    Action.Keeps late State.WellTyped (Flow.Gives Value.Consistent) (executeBlock exec body) :=
  keeps_executeBlock (fun _ hs => hs.enterBlock) (fun _ hs => hs.leaveBlock)
    fun st _ => hexec st

/-- **A call** with checked arguments keeps the state well typed, and its value fits the result
type. -/
theorem keeps_callFunction_wellTyped {f : Function} {vs : List Value}
    (hcheck : checkArguments f.parameterKinds vs = .ok ()) (hvs : ∀ v ∈ vs, v.Consistent) :
    Action.Keeps late State.WellTyped
      (fun v => v.Consistent ∧ (f.returns.isVoid = false → v.fits f.returns = true))
      (callFunction setting exec f vs) := by
  intro s hs
  rw [callFunction_apply]
  split
  · exact hs
  · have hbody := (keeps_executeBlock_wellTyped hexec f.body).between
      (fun s (hs : s.WellTyped) => hs.enterCall (Function.wellTyped_bind hcheck hvs))
      fun s hs => hs.leaveCall
    refine hbody.bind (fun flow hflow => ?_) s hs
    exact Action.keeps_lift fun v hv => Function.sound_result hflow hv

end

-- ---------------------------------------------------------------------------
-- Every step
-- ---------------------------------------------------------------------------

/-- Evaluation and execution keep the state well typed and give consistent values, for every bound
on the steps. -/
theorem keeps_wellTyped (setting : Setting) (steps : Nat) :
    (∀ e, Action.Keeps True State.WellTyped Value.Consistent (evaluate setting steps e)) ∧
      ∀ st, Action.Keeps True State.WellTyped (Flow.Gives Value.Consistent)
        (execute setting steps st) := by
  -- on the steps: each part of an expression or statement runs with one step less
  induction steps with
  | zero => exact ⟨fun _ _ _ => trivial, fun _ _ _ => trivial⟩
  | succ steps ih =>
    obtain ⟨heval, hexec⟩ := ih
    constructor
    · intro e
      rw [evaluate_succ]
      -- variables hold consistent values, operations give such values, and arguments were checked
      refine keeps_evaluateWith Value.closedUnderOperations_consistent (fun _ _ hs => hs)
        (fun s name x hs hx => (hs x (Scopes.mem_live_of_get? hx)).consistent)
        (fun e' _ => heval e') fun _ f vs _ hvs hcheck => ?_
      exact (keeps_callFunction_wellTyped hexec hcheck hvs).imp fun _ hv => hv.1
    · intro st
      rw [execute_succ]
      exact keeps_executeWith Value.consistent_void (fun _ _ _ => trivial) (fun e _ => heval e)
        (fun body _ => keeps_executeBlock_wellTyped hexec body)
        (fun _ value _ => keeps_executeAssign (heval value)
          fun name v hv => keeps_storeValue_wellTyped name hv)
        fun _ _ _ _ _ _ hv => keeps_declareVariable_wellTyped hv

/-- **Every reachable state is well typed**, also in the middle of a run. -/
theorem Session.Reachable.wellTyped {maxDepth : Nat} {s : Session} (hs : s.Reachable maxDepth) :
    s.state.WellTyped := by
  refine hs.invariant wellTyped_new
    (fun functions steps e => ((keeps_wellTyped ⟨functions, maxDepth⟩ steps).1 e).imp
      fun _ _ => trivial)
    (fun functions steps st => ((keeps_wellTyped ⟨functions, maxDepth⟩ steps).2 st).imp
      fun _ _ => trivial)
    (fun functions steps body => (keeps_executeBlock_wellTyped
      (keeps_wellTyped ⟨functions, maxDepth⟩ steps).2 body).imp fun _ _ => trivial)
    (fun _ hs => hs.enterBlock) ?_
  -- in the middle of a call: its arguments were evaluated and checked before it was entered
  intro functions steps name f arguments vs s t hs hf hargs hcheck _
  have hvs := keeps_evaluateAll (fun e (_ : e ∈ arguments) =>
    (keeps_wellTyped ⟨functions, maxDepth⟩ steps).1 e) s hs
  rw [hargs] at hvs
  exact hvs.1.enterCall (Function.wellTyped_bind hcheck hvs.2)

/-- The value of a call of a declared function that returns something fits the result type. -/
theorem fits_of_evaluate_call {setting : Setting} {steps : Nat} {name : String}
    {arguments : List Expr} {f : Function} (hbuiltin : Builtin.find? name = none)
    (hf : setting.functions.find? name = some f) (hreturns : f.returns.isVoid = false) :
    Action.Keeps True State.WellTyped (fun v => v.fits f.returns = true)
      (evaluate setting steps (.call name arguments)) := by
  cases steps with
  | zero => exact fun _ _ => trivial
  | succ steps =>
    obtain ⟨heval, hexec⟩ := keeps_wellTyped setting steps
    rw [evaluate_succ, evaluateWith_call, call_declared _ _ _ _ hbuiltin hf]
    refine (keeps_evaluateAll fun e _ => heval e).bind ?_
    intro vs hvs
    refine (Action.keeps_lift (V := fun _ => checkArguments f.parameterKinds vs = .ok ())
      fun _ h => h).bind ?_
    intro _ hcheck
    exact (keeps_callFunction_wellTyped hexec hcheck hvs).imp fun v hv => hv.2 hreturns

/-- **Type soundness.** In every reachable session the state is well typed, and so is whatever
evaluation, execution and calls leave behind, however they end. They give only consistent values.
The value of a call fits the result type of a function that has one. A variable whose type
excludes `null` holds a datum of exactly that type. -/
theorem evaluation_sound {maxDepth : Nat} {s : Session} (hs : s.Reachable maxDepth)
    (steps : Nat) :
    s.state.WellTyped ∧
    (∀ e, (s.evaluate maxDepth steps e).Ensures True
      (fun v t => t.WellTyped ∧ v.Consistent) fun _ t => t.WellTyped) ∧
    (∀ st, (s.execute maxDepth steps st).Ensures True
      (fun flow t => t.WellTyped ∧ flow.Gives Value.Consistent) fun _ t => t.WellTyped) ∧
    (∀ body, (s.executeBlock maxDepth steps body).Ensures True
      (fun flow t => t.WellTyped ∧ flow.Gives Value.Consistent) fun _ t => t.WellTyped) ∧
    (∀ f vs, (∀ v ∈ vs, v.Consistent) → checkArguments f.parameterKinds vs = .ok () →
      (callFunction (s.setting maxDepth) (execute (s.setting maxDepth) steps) f vs
        s.state).Ensures True
        (fun v t => t.WellTyped ∧ v.Consistent ∧
          (f.returns.isVoid = false → v.fits f.returns = true)) fun _ t => t.WellTyped) ∧
    (∀ name arguments f, Builtin.find? name = none → s.functions.find? name = some f →
      f.returns.isVoid = false →
      (s.evaluate maxDepth steps (.call name arguments)).Ensures True
        (fun v _ => v.fits f.returns = true) fun _ _ => True) ∧
    ∀ x ∈ s.state.scopes.live, x.type.nullable = false →
      x.value.isNull = false ∧ x.value.datum.ty.base = x.type.base := by
  have hstate := hs.wellTyped
  obtain ⟨heval, hexec⟩ := keeps_wellTyped (s.setting maxDepth) steps
  refine ⟨hstate, fun e => heval e _ hstate, fun st => hexec st _ hstate,
    fun body => keeps_executeBlock_wellTyped hexec body _ hstate,
    fun f vs hvs hcheck => keeps_callFunction_wellTyped hexec hcheck hvs _ hstate, ?_, ?_⟩
  · intro name arguments f hbuiltin hf hreturns
    exact (fits_of_evaluate_call hbuiltin hf hreturns _ hstate).imp (fun _ _ h => h.2)
      fun _ _ _ => trivial
  · intro x hx hnullable
    obtain ⟨hconsistent, hfits⟩ := hstate x hx
    exact hconsistent.of_fits hfits hnullable

/-- A call inside of a call gives an `int`, and leaves the state well typed. -/
theorem evaluation_sound_midCall :
    Session.midCall.Reachable 2 ∧ Session.midCall.state.WellTyped ∧
    (Session.midCall.evaluate 2 9 (.call "addBase" [.identifier "n"])).Ensures True
      (fun v _ => v.fits .int = true) fun _ _ => True := by
  have hsound := evaluation_sound Session.reachable_midCall 9
  exact ⟨Session.reachable_midCall, hsound.1,
    hsound.2.2.2.2.2.1 "addBase" [.identifier "n"] .addBase rfl rfl rfl⟩

end NullScript
