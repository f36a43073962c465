import NullScript.Program.Source
import NullScript.Proofs.CallDepth

/-!
# NullScript — arguments and parameters

A call binds its arguments to the parameters of the function by position, and runs the body in a
block inside of the scope that holds them. That scope keeps one variable of each name. Nothing keeps
two parameters from having the same name: the last one is kept then, and the arguments of those
before it are lost.

* `Variables.get?_ofList` — the last variable of a name is the one that is kept.
* `Function.callFunction_eq_ended` — where the body of a call starts, and what becomes of its end.
* `arguments_reach_parameters` — the last parameter of a name is found there with its argument.
-/

namespace NullScript

/-- The last variable of a name is the one that is kept. -/
theorem Variables.get?_ofList {xs : List Variable} {i : Nat} {x : Variable} (hx : xs[i]? = some x)
    (hlast : ∀ j y, i < j → xs[j]? = some y → y.name ≠ x.name) :
    (ofList xs).get? x.name = some x := by
  -- on the variables: one in front that has a later namesake is left out
  induction xs generalizing i with
  | nil => cases hx
  | cons v vs ih =>
    cases i with
    | zero =>
      cases hx
      -- no later variable has the name of this one, so it is kept
      have hnone : ¬vs.any fun w => w.name = x.name := by
        rw [List.any_eq_true]
        rintro ⟨w, hw, hname⟩
        obtain ⟨j, hj⟩ := List.getElem?_of_mem hw
        exact hlast (j + 1) w (Nat.succ_pos j) hj (of_decide_eq_true hname)
      rw [ofList, if_neg hnone, get?_cons, if_pos rfl]
    | succ i =>
      have hrest := ih hx fun j y hij hy => hlast (j + 1) y (Nat.succ_lt_succ hij) hy
      rw [ofList]
      split
      -- the variable in front is left out, or it has another name
      · exact hrest
      · next hnone =>
        have hne : v.name ≠ x.name := fun hname => hnone <|
          List.any_eq_true.mpr ⟨x, List.mem_of_getElem? hx, decide_eq_true hname.symm⟩
        rw [get?_cons, if_neg hne]
        exact hrest

/-- The scope of a call hides those outside of it. -/
theorem Scopes.getInner?_call {name : String} {vs : Variables} {outer : List Scope} :
    getInner? name (⟨.call, vs⟩ :: outer) = vs.get? name := by
  rw [getInner?]
  cases vs.get? name <;> rfl

-- ---------------------------------------------------------------------------
-- Where the body of a call starts
-- ---------------------------------------------------------------------------

namespace Function

variable (f : Function) (vs : List Value) (t : State)

/-- The state in which the body of a function starts that is called on values. -/
def bodyStart : State := (t.enterCall (f.bind vs)).enterBlock

/-- What a call gives, by how the statements of its body end: the block and the call are left. -/
def ended : Answer Flow → Answer Value
  | .unfinished => .unfinished
  | .failed e u => .failed e u.leaveBlock.leaveCall
  | .done flow u => Action.lift (f.result flow) u.leaveBlock.leaveCall

/-- **The body of a call** below the limit starts in that state. -/
theorem callFunction_eq_ended {setting : Setting} (h : t.depth < setting.maxDepth)
    (exec : Statement → Action Flow) :
    callFunction setting exec f vs t = f.ended (executeAll exec f.body (f.bodyStart vs t)) := by
  -- the call and the block of its body are opened around the statements, and closed behind them
  rw [callFunction_of_lt h, Action.bind_apply, Action.inCall, Action.between_apply, executeBlock,
    Action.inBlock, Action.between_apply]
  show _ = f.ended (executeAll exec f.body (t.enterCall (f.bind vs)).enterBlock)
  cases executeAll exec f.body (t.enterCall (f.bind vs)).enterBlock <;> rfl

/-- At the start of the body the variables of the call and the global ones are there. -/
theorem get?_bodyStart (name : String) :
    (f.bodyStart vs t).scopes.get? name =
      ((Variables.ofList (f.bind vs)).get? name).or (t.scopes.globals.get? name) := by
  have hinner : Scopes.getInner? name (f.bodyStart vs t).scopes.inner =
      (Variables.ofList (f.bind vs)).get? name :=
    Scopes.getInner?_call
  rw [Scopes.get?, hinner]
  rfl

/-- When the body starts, the parameter of this number is found under its name: as a variable of its
type that can be assigned to, and with the argument of the same number. -/
def Receives (i : Nat) : Prop :=
  ∃ p v, f.parameters[i]? = some p ∧ vs[i]? = some v ∧
    (f.bodyStart vs t).scopes.get? p.name = some ⟨p.name, p.type, false, v⟩

/-- No parameter behind the one of this number has its name. -/
def IsLastOfName (i : Nat) : Prop :=
  ∀ j p q, i < j → f.parameters[i]? = some p → f.parameters[j]? = some q → q.name ≠ p.name

variable {f vs t} {i : Nat}

/-- The bound variable of a number is made of the parameter and the argument of that number. -/
theorem getElem?_bind (f : Function) (vs : List Value) (i : Nat) :
    (f.bind vs)[i]? =
      f.parameters[i]?.bind fun p => vs[i]?.map fun v => ⟨p.name, p.type, false, v⟩ := by
  rw [bind, List.getElem?_zipWith]
  cases f.parameters[i]? <;> cases vs[i]? <;> rfl

/-- Arguments that were checked are as many as the parameters. -/
theorem length_eq_of_checkArguments (h : checkArguments f.parameterKinds vs = .ok ()) :
    vs.length = f.parameters.length := by
  unfold checkArguments at h
  split at h
  · cases h
  · next hlength =>
    rw [parameterKinds, List.length_map] at hlength
    exact (Decidable.not_not.mp hlength).symm

/-- The last parameter of a name receives its argument. -/
theorem receives_of_isLastOfName (hlength : vs.length = f.parameters.length)
    (hi : i < f.parameters.length) (hlast : f.IsLastOfName i) : f.Receives vs t i := by
  have hp : f.parameters[i]? = some f.parameters[i] := List.getElem?_eq_getElem hi
  have hv : vs[i]? = some vs[i] := List.getElem?_eq_getElem (hlength ▸ hi)
  refine ⟨_, _, hp, hv, ?_⟩
  have hbound : (f.bind vs)[i]? =
      some ⟨f.parameters[i].name, f.parameters[i].type, false, vs[i]⟩ := by
    rw [getElem?_bind, hp, hv]
    rfl
  -- what was bound is found in the scope, as no later variable has its name
  have hkept := Variables.get?_ofList hbound fun j y hij hy => by
    rw [getElem?_bind] at hy
    obtain ⟨q, hq, hy⟩ := Option.bind_eq_some_iff.mp hy
    obtain ⟨w, -, rfl⟩ := Option.map_eq_some_iff.mp hy
    exact hlast j _ q hij hp hq
  rw [get?_bodyStart, hkept]
  rfl

/-- If no two parameters have one name, each is the last one of its name. -/
theorem isLastOfName_of_nodup (h : (f.parameters.map Parameter.name).Nodup) (i : Nat) :
    f.IsLastOfName i := by
  intro j p q hij hp hq hname
  obtain ⟨hi, rfl⟩ := List.getElem?_eq_some_iff.mp hp
  obtain ⟨hj, rfl⟩ := List.getElem?_eq_some_iff.mp hq
  have hne := List.pairwise_iff_getElem.mp (List.pairwise_map.mp h) i j hi hj hij
  exact hne hname.symm

/-- Every name of a parameter is that of a last one. -/
theorem exists_isLastOfName (hi : i < f.parameters.length) :
    ∃ j, i ≤ j ∧ ∃ hj : j < f.parameters.length,
      f.parameters[j].name = f.parameters[i].name ∧ f.IsLastOfName j := by
  -- On the number of parameters behind. If one of them has the name, the last one is found from it.
  induction hn : f.parameters.length - i using Nat.strongRecOn generalizing i with
  | ind n ih =>
    subst hn
    by_cases hlater : ∃ j, ∃ hj : j < f.parameters.length,
        i < j ∧ f.parameters[j].name = f.parameters[i].name
    · obtain ⟨j, hj, hij, hname⟩ := hlater
      obtain ⟨k, hjk, hk, hkname, hklast⟩ := ih (f.parameters.length - j) (by omega) hj rfl
      exact ⟨k, by omega, hk, hkname.trans hname, hklast⟩
    · refine ⟨i, Nat.le_refl i, hi, rfl, fun j p q hij hp hq hname => hlater ?_⟩
      obtain ⟨hi', rfl⟩ := List.getElem?_eq_some_iff.mp hp
      obtain ⟨hj, rfl⟩ := List.getElem?_eq_some_iff.mp hq
      exact ⟨j, hj, hij, hname⟩

end Function

-- ---------------------------------------------------------------------------
-- Calls
-- ---------------------------------------------------------------------------

/-- **Arguments reach their parameters.** Let the arguments of a call be evaluated and checked, and
let the call not be too deep. Then the body starts in a state in which every name of a parameter
stands for the last parameter of that name, with its argument; so if no two parameters have one
name, every argument reaches its parameter. -/
theorem arguments_reach_parameters {setting : Setting} {eval : Expr → Action Value}
    {exec : Statement → Action Flow} {name : String} {arguments : List Expr} {f : Function}
    {vs : List Value} {s t : State} (hb : Builtin.find? name = none)
    (hf : setting.functions.find? name = some f)
    (hargs : evaluateAll eval arguments s = .done vs t)
    (hcheck : checkArguments f.parameterKinds vs = .ok ()) (hdepth : t.depth < setting.maxDepth) :
    evaluateWith setting eval exec (.call name arguments) s =
        f.ended (executeAll exec f.body (f.bodyStart vs t)) ∧
      ((f.parameters.map Parameter.name).Nodup →
        ∀ i < f.parameters.length, f.Receives vs t i) ∧
      ∀ i (hi : i < f.parameters.length), ∃ j, i ≤ j ∧ ∃ hj : j < f.parameters.length,
        f.parameters[j].name = f.parameters[i].name ∧ f.IsLastOfName j ∧ f.Receives vs t j := by
  have hlength := Function.length_eq_of_checkArguments hcheck
  refine ⟨?_, fun hnodup i hi => ?_, fun i hi => ?_⟩
  · rw [evaluateWith_call, call_declared _ _ _ _ hb hf, Action.bind_apply, hargs]
    dsimp only
    rw [hcheck]
    exact f.callFunction_eq_ended vs t hdepth exec
  · exact Function.receives_of_isLastOfName hlength hi (Function.isLastOfName_of_nodup hnodup i)
  · obtain ⟨j, hij, hj, hname, hlast⟩ := Function.exists_isLastOfName hi
    exact ⟨j, hij, hj, hname, hlast, Function.receives_of_isLastOfName hlength hj hlast⟩

/-- A function of two parameters, the second of which may be `null`. -/
def Function.label : Function where
  name := "label"
  parameters := [⟨"n", .int⟩, ⟨"text", Ty.string.orNull⟩]
  returns := .void
  body := [.perform (.call "print" [.identifier "text"])]

/-- A call of `label` in the middle of a call that has a variable `n` of its own. -/
theorem arguments_reach_parameters_label :
    Builtin.find? "label" = none ∧ FunctionTable.find? [.label] "label" = some .label ∧
      evaluateAll (evaluate ⟨[.label], 2⟩ 3) [.literal (.int 7), .literal .null]
          Session.midCall.state = .done [.int 7, .void] Session.midCall.state ∧
      checkArguments Function.label.parameterKinds [.int 7, .void] = .ok () ∧
      Session.midCall.state.depth < 2 ∧ (Function.label.parameters.map Parameter.name).Nodup ∧
      evaluate ⟨[.label], 2⟩ 4 (.call "label" [.literal (.int 7), .literal .null])
          Session.midCall.state =
        Function.label.ended (executeAll (execute ⟨[.label], 2⟩ 3) Function.label.body
          (Function.label.bodyStart [.int 7, .void] Session.midCall.state)) ∧
      ∀ i < 2, Function.label.Receives [.int 7, .void] Session.midCall.state i := by
  have hnodup : (Function.label.parameters.map Parameter.name).Nodup := by decide
  have hargs : evaluateAll (evaluate ⟨[.label], 2⟩ 3) [.literal (.int 7), .literal .null]
      Session.midCall.state = .done [.int 7, .void] Session.midCall.state := rfl
  have hfind : (Setting.mk [.label] 2).functions.find? "label" = some .label := rfl
  have h := @arguments_reach_parameters _ _ (execute ⟨[.label], 2⟩ 3) _ _ _ _ _ _ rfl hfind hargs
    rfl (by decide)
  obtain ⟨hcall, hreceives, -⟩ := h
  exact ⟨rfl, rfl, rfl, rfl, by decide, hnodup, hcall, hreceives hnodup⟩

/-- A function with two parameters of one name. -/
def repeatedParameter : String := "fun first(int a, int a) -> int \x7b return a \x7d"

/-- The text is accepted and a call passes all checks, but the first argument is lost. -/
theorem argument_of_repeated_parameter_lost :
    (parseSource .default repeatedParameter).errors = [] ∧
      ∃ f ∈ (parseSource .default repeatedParameter).program.functions,
        checkArguments f.parameterKinds [.int 1, .int 2] = .ok () ∧
          Session.midCall.state.depth < 2 ∧
          ¬f.Receives [.int 1, .int 2] Session.midCall.state 0 := by
  have hfunctions : (parseSource .default repeatedParameter).program.functions.map
      Function.parameters = [[⟨"a", .int⟩, ⟨"a", .int⟩]] := by decide +kernel
  obtain ⟨f, hf, hparameters⟩ : ∃ f ∈ (parseSource .default repeatedParameter).program.functions,
      f.parameters = [⟨"a", .int⟩, ⟨"a", .int⟩] := by
    have hmem : [⟨"a", .int⟩, ⟨"a", .int⟩] ∈
        (parseSource .default repeatedParameter).program.functions.map Function.parameters := by
      rw [hfunctions]
      exact List.mem_singleton_self _
    exact List.mem_map.mp hmem
  refine ⟨by decide +kernel, f, hf, ?_, by decide, ?_⟩
  · rw [Function.parameterKinds, hparameters]
    rfl
  -- the name of the first parameter stands for the second argument
  · rintro ⟨p, v, hp, hv, hfound⟩
    rw [hparameters] at hp
    cases hp
    cases hv
    rw [Function.get?_bodyStart, Function.bind, hparameters] at hfound
    exact absurd hfound (by decide)

end NullScript
