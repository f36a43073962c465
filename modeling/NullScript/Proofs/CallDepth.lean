import NullScript.Proofs.Declarations
import NullScript.Proofs.ScopeDiscipline

/-!
# NullScript — the depth of calls

The number of calls in progress is kept by hand around the body of each call. At every moment of a
run it is the number of open scopes that belong to calls, and it does not exceed the limit. A call
is refused at the limit and only there: then its body is not entered and no scope stays behind.

* `Session.Reachable.withinDepth` — the number of calls in progress, in every reachable session.
* `Scopes.linked` — the parent of a scope is one further outside, and that of a call is the global
  scope.
* `Function.refused_iff` — a call is refused if and only if the limit has been reached.
* `depth_exact` — all of this for the calls of a reachable session.
-/

namespace NullScript

-- ---------------------------------------------------------------------------
-- Calls in progress
-- ---------------------------------------------------------------------------

/-- As many calls are in progress as scopes of calls are open, and not more than the limit. -/
structure State.WithinDepth (maxDepth : Nat) (s : State) : Prop where
  depth_eq : s.depth = s.scopes.kinds.count .call
  depth_le : s.depth ≤ maxDepth

variable {maxDepth : Nat}

namespace State

/-- A declaration opens no scope and no call. -/
theorem WithinDepth.of_frame {s t : State} (hs : s.WithinDepth maxDepth)
    (h : t.frame = s.frame ∨ ∃ x, t.frame = s.frame.declare x) : t.WithinDepth maxDepth := by
  have hdepth : t.depth = s.depth := (sameLinks h).depth
  refine ⟨?_, ?_⟩
  · rw [hdepth, kinds_of_frame h]
    exact hs.depth_eq
  · rw [hdepth]
    exact hs.depth_le

/-- The scope of a block counts as no call. -/
theorem WithinDepth.enterBlock {s : State} (hs : s.WithinDepth maxDepth) :
    s.enterBlock.WithinDepth maxDepth := by
  refine ⟨?_, hs.depth_le⟩
  show s.depth = (.block :: s.scopes.kinds).count .call
  rw [hs.depth_eq, List.count_cons_of_ne (by decide)]

/-- There is room for one more call below the limit. -/
theorem WithinDepth.enterCall {s : State} (hs : s.WithinDepth maxDepth) (h : s.depth < maxDepth)
    (parameters : List Variable) : (s.enterCall parameters).WithinDepth maxDepth := by
  refine ⟨?_, h⟩
  show s.depth + 1 = (.call :: s.scopes.kinds).count .call
  rw [hs.depth_eq, List.count_cons_self]

end State

/-- Evaluating the arguments of a call leaves the frame as it was. -/
theorem frame_of_evaluateAll {setting : Setting} {steps : Nat} {arguments : List Expr}
    {vs : List Value} {s t : State}
    (h : evaluateAll (evaluate setting steps) arguments s = .done vs t) : t.frame = s.frame := by
  have hkeeps := keeps_evaluateAll fun e (_ : e ∈ arguments) =>
    (keeps_frame setting steps).1 e s.frame
  have hensures := hkeeps s rfl
  rw [h] at hensures
  exact hensures.1

/-- **The number of calls in progress** is that of the open scopes that belong to calls, and keeps
the limit, at every moment. -/
theorem Session.Reachable.withinDepth {s : Session} (hs : s.Reachable maxDepth) :
    s.state.WithinDepth maxDepth := by
  -- whatever ends in the frame it started in, but for a declaration, keeps the depth
  have hkeeps : ∀ {α : Type} {m : Action α},
      (∀ s, (m s).Leaves fun t => t.frame = s.frame ∨ ∃ x, t.frame = s.frame.declare x) →
      Action.Keeps True (State.WithinDepth maxDepth) (fun _ => True) m := by
    intro α m hm
    exact Action.keeps_of_leaves fun s hs => (hm s).imp fun t ht => hs.of_frame ht
  -- the three kinds of computations, then the scopes that are opened on the way
  refine hs.invariant (fun _ => ⟨rfl, Nat.zero_le _⟩) ?_ ?_ ?_ ?_ ?_
  · intro functions steps e
    refine hkeeps fun s => ?_
    exact (((keeps_frame ⟨functions, maxDepth⟩ steps).1 e s.frame).leaves rfl).imp
      fun t ht => .inl ht
  · intro functions steps st
    refine hkeeps fun s => ?_
    exact Answer.Leaves.imp ((keeps_frame ⟨functions, maxDepth⟩ steps).2 st s)
      fun t ht => ht.imp_right fun ⟨x, _, hx⟩ => ⟨x, hx⟩
  · intro functions steps body
    have hexec := (keeps_frame ⟨functions, maxDepth⟩ steps).2
    refine hkeeps fun s => ?_
    exact ((keeps_executeBlock_frame hexec body s.frame).leaves rfl).imp fun t ht => .inl ht
  · intro s hs
    exact hs.enterBlock
  · intro functions steps name f arguments vs s t hs _ hargs _ hdepth
    exact (hs.of_frame (.inl (frame_of_evaluateAll hargs))).enterCall hdepth _

-- ---------------------------------------------------------------------------
-- Links between scopes
-- ---------------------------------------------------------------------------

namespace Scopes

/-- The scopes up to the one of a number. They are counted from the outside, and the global scope
has the number zero. -/
def upTo (s : Scopes) (n : Nat) : Scopes :=
  { s with inner := s.inner.drop (s.inner.length - n) }

/-- Every scope other than the global one has a parent with a smaller number. That of a call is the
global scope. A name that is not found in the scope stands for what it stands for in the parent. -/
def Linked (s : Scopes) : Prop :=
  ∀ (i : Nat) (scope : Scope), s.inner[i]? = some scope →
    ∃ p, s.parents[i]? = some p ∧ p < s.inner.length - i ∧ (scope.kind = .call → p = 0) ∧
      ∀ name, scope.bindings.get? name = none →
        (s.upTo (s.inner.length - i)).get? name = (s.upTo p).get? name

/-- The links of the outer scopes are the last ones. -/
theorem links_drop (kinds : List ScopeKind) (i : Nat) :
    links (kinds.drop i) = (links kinds).drop i := by
  induction i generalizing kinds with
  | zero => rfl
  | succ i ih =>
    cases kinds with
    | nil => rfl
    | cons kind outer => cases kind <;> exact ih outer

/-- **Every scope has a parent further outside**, in which its other names are found. -/
theorem linked (s : Scopes) : s.Linked := by
  intro i scope hscope
  obtain ⟨hi, rfl⟩ := List.getElem?_eq_some_iff.mp hscope
  -- the scope is the innermost one of those up to it, and `get?_parent` is about that one
  have hupTo : s.upTo (s.inner.length - i) = { s with inner := s.inner.drop i } := by
    have hdrop : s.inner.length - (s.inner.length - i) = i := by omega
    rw [upTo, hdrop]
  have hinner : (s.upTo (s.inner.length - i)).inner = s.inner[i] :: s.inner.drop (i + 1) := by
    rw [hupTo]
    exact List.drop_eq_getElem_cons hi
  have hparents : (s.upTo (s.inner.length - i)).parents = s.parents.drop i := by
    rw [parents, parents, ← links_drop, kinds, kinds, hupTo, List.map_drop]
  have hlinks : (s.upTo (s.inner.length - i)).parents =
      links (s.inner[i].kind :: (s.inner.drop (i + 1)).map Scope.kind) := by
    rw [parents, kinds, hinner, List.map_cons]
  have hlength : ((s.inner.drop (i + 1)).map Scope.kind).length = s.inner.length - (i + 1) := by
    simp
  -- the parent of a block is the scope around it, and that of a call the global one
  obtain ⟨p, hp, hlt, hcall⟩ : ∃ p, (s.upTo (s.inner.length - i)).parents.head? = some p ∧
      p < s.inner.length - i ∧ (s.inner[i].kind = .call → p = 0) := by
    rw [hlinks]
    cases hkind : s.inner[i].kind with
    | block => exact ⟨_, rfl, by omega, fun h => absurd h (by decide)⟩
    | call => exact ⟨0, rfl, by omega, fun _ => rfl⟩
  refine ⟨p, ?_, hlt, hcall, ?_⟩
  · -- the parent of the scope in the whole row
    rw [← hp, hparents, List.head?_drop]
  · -- the names that it lacks stand for what they stand for in the parent
    intro name hname
    rw [get?_parent hinner hname hp, hupTo, upTo]
    have hdrop : i + ((s.inner.drop i).length - p) = s.inner.length - p := by
      rw [List.length_drop]
      omega
    simp only [List.drop_drop, hdrop]

end Scopes

-- ---------------------------------------------------------------------------
-- Calls at the limit
-- ---------------------------------------------------------------------------

namespace Function

variable {setting : Setting} {exec : Statement → Action Flow} {f : Function} {vs : List Value}
  {t u : State}

/-- The call fails because it would be too deep, whatever statements do: the body is not entered.
The state stays as it is. -/
def Refused (setting : Setting) (f : Function) (vs : List Value) (t : State) : Prop :=
  ∀ exec, callFunction setting exec f vs t =
    .failed (.callTooDeep f.name setting.maxDepth) t

/-- Below the limit the body is run in the scope of the call. -/
theorem callFunction_of_lt (h : t.depth < setting.maxDepth) :
    callFunction setting exec f vs t =
      (Action.inCall (f.bind vs) (executeBlock exec f.body) >>= fun flow =>
        .lift (f.result flow)) t := by
  rw [callFunction_apply, if_neg (Nat.not_le_of_lt h)]

/-- What a function gives for the way its body ends is never a failure for depth. -/
theorem result_ne_callTooDeep (flow : Flow) (name : String) (limit : Nat) :
    f.result flow ≠ .error (.callTooDeep name limit) := by
  cases flow with
  | next => by_cases hvoid : f.returns.isVoid <;> simp [result, hvoid]
  | returned v =>
    by_cases hvoid : f.returns.isVoid && v.isNull
    · simp [result, hvoid]
    · by_cases hfits : v.fits f.returns <;> simp [result, hvoid, hfits, Failure.mismatch]

/-- If a call is below the limit and fails for depth, its body has failed so: a call further inside
was refused. -/
theorem body_failed_of_lt {name : String} {limit : Nat} (h : t.depth < setting.maxDepth)
    (hcall : callFunction setting exec f vs t = .failed (.callTooDeep name limit) u) :
    ∃ u', executeBlock exec f.body (t.enterCall (f.bind vs)) =
      .failed (.callTooDeep name limit) u' ∧ u = u'.leaveCall := by
  rw [callFunction_of_lt h, Action.bind_apply, Action.inCall, Action.between_apply] at hcall
  -- the body ended somehow; only its failure can be the one for depth
  cases hbody : executeBlock exec f.body (t.enterCall (f.bind vs)) with
  | unfinished =>
    rw [hbody] at hcall
    cases hcall
  | failed e u' =>
    rw [hbody] at hcall
    cases hcall
    exact ⟨u', rfl, rfl⟩
  | done flow u' =>
    rw [hbody] at hcall
    simp only [Action.lift] at hcall
    cases hresult : f.result flow with
    | ok v =>
      -- a body that ends leads to a value, or to a failure of another kind
      rw [hresult] at hcall
      cases hcall
    | error e =>
      rw [hresult] at hcall
      cases hcall
      exact absurd hresult (result_ne_callTooDeep flow name limit)

/-- **A call is refused if and only if the limit has been reached.** -/
theorem refused_iff : f.Refused setting vs t ↔ setting.maxDepth ≤ t.depth := by
  constructor
  · -- below the limit a body that never comes to its end would have failed
    intro hrefused
    refine Nat.le_of_not_lt fun hlt => ?_
    obtain ⟨u', hbody, -⟩ := body_failed_of_lt hlt (hrefused fun _ => .unfinished)
    -- statements that never come to their end do not fail
    cases hempty : f.body with
    | nil =>
      rw [hempty] at hbody
      cases hbody
    | cons st rest =>
      rw [hempty] at hbody
      cases hbody
  · -- at the limit the call is refused before its body
    intro hle exec
    rw [callFunction_apply, if_pos hle]

end Function

-- ---------------------------------------------------------------------------
-- Calls in a reachable session
-- ---------------------------------------------------------------------------

/-- What becomes of a call whose arguments have been evaluated, in the state `t` that this led
to, and have been checked. -/
structure Session.Settles (s : Session) (maxDepth steps : Nat) (f : Function)
    (arguments : List Expr) (vs : List Value) (t : State) : Prop where
  /-- All that is left to do is to call the function. -/
  call : s.evaluate maxDepth (steps + 1) (.call f.name arguments) =
    callFunction (s.setting maxDepth) (NullScript.execute (s.setting maxDepth) steps) f vs t
  /-- The arguments leave no scope behind and no call in progress. -/
  frame : t.frame = s.state.frame
  /-- At the limit, and only there, the call is refused. -/
  refused : f.Refused (s.setting maxDepth) vs t ↔ t.depth = maxDepth
  /-- A refused call fails with the name of the function and the limit, in the state that the
  arguments led to. -/
  tooDeep : t.depth = maxDepth → s.evaluate maxDepth (steps + 1) (.call f.name arguments) =
    .failed (.callTooDeep f.name maxDepth) t
  /-- Anywhere else the body is entered. -/
  entered : t.depth ≠ maxDepth →
    (Session.Reachable maxDepth { s with state := t.enterCall (f.bind vs) }) ∧
      callFunction (s.setting maxDepth) (NullScript.execute (s.setting maxDepth) steps) f vs t =
        (Action.inCall (f.bind vs)
            (NullScript.executeBlock (NullScript.execute (s.setting maxDepth) steps) f.body) >>=
          fun flow => .lift (f.result flow)) t
  /-- If a call that is not refused fails for depth, a call inside of its body was refused. -/
  inside : t.depth ≠ maxDepth → ∀ name limit u,
    s.evaluate maxDepth (steps + 1) (.call f.name arguments) =
      .failed (.callTooDeep name limit) u →
    ∃ u', NullScript.executeBlock (NullScript.execute (s.setting maxDepth) steps) f.body
      (t.enterCall (f.bind vs)) = .failed (.callTooDeep name limit) u'

/-- **The depth of calls is exact and bounded.** In every reachable session the number of calls in
progress is that of the scopes opened for calls, and does not exceed the limit; every scope has a
parent further outside, which is the global scope for that of a call. A call of a declared function
whose arguments have been evaluated and checked is refused if and only if the limit has been
reached. -/
theorem depth_exact {s : Session} (hs : s.Reachable maxDepth) :
    s.state.WithinDepth maxDepth ∧ s.state.scopes.Linked ∧
      ∀ (steps : Nat) (name : String) (f : Function) (arguments : List Expr) (vs : List Value)
        (t : State), s.functions.find? name = some f →
        evaluateAll (NullScript.evaluate (s.setting maxDepth) steps) arguments s.state =
          .done vs t →
        checkArguments f.parameterKinds vs = .ok () →
        f.name = name ∧ s.Settles maxDepth steps f arguments vs t := by
  refine ⟨hs.withinDepth, s.state.scopes.linked, ?_⟩
  intro steps name f arguments vs t hf hargs hcheck
  obtain ⟨hmem, rfl⟩ := FunctionTable.mem_of_find? hf
  -- the arguments leave the frame as it was, so the depth is within its bounds still
  have hframe := frame_of_evaluateAll hargs
  have hle : t.depth ≤ maxDepth := (hs.withinDepth.of_frame (.inl hframe)).depth_le
  -- what is left to do once they have been evaluated and checked
  have hcall : s.evaluate maxDepth (steps + 1) (.call f.name arguments) =
      callFunction (s.setting maxDepth) (NullScript.execute (s.setting maxDepth) steps) f vs t := by
    unfold Session.evaluate
    rw [evaluate_succ, evaluateWith_call, call_declared _ _ _ _ (hs.free f hmem) hf,
      Action.bind_apply, hargs]
    dsimp only
    rw [hcheck]
    rfl
  have hlt : t.depth ≠ maxDepth → t.depth < (s.setting maxDepth).maxDepth :=
    fun h => Nat.lt_of_le_of_ne hle h
  have hrefused : f.Refused (s.setting maxDepth) vs t ↔ t.depth = maxDepth := by
    rw [Function.refused_iff]
    exact ⟨fun h => Nat.le_antisymm hle h, fun h => Nat.le_of_eq h.symm⟩
  refine ⟨rfl, hcall, hframe, hrefused, ?_, ?_, ?_⟩
  · intro hdepth
    rw [hcall]
    exact hrefused.mpr hdepth _
  · intro hne
    exact ⟨hs.enterCall hf hargs hcheck (hlt hne), Function.callFunction_of_lt (hlt hne)⟩
  · intro hne name limit u hfailed
    rw [hcall] at hfailed
    obtain ⟨u', hbody, -⟩ := Function.body_failed_of_lt (hlt hne) hfailed
    exact ⟨u', hbody⟩

/-- The session in which the body of `addBase` has called `addBase` on `5`. -/
def Session.atLimit : Session :=
  { midCall with state := midCall.state.enterCall (Function.addBase.bind [.int 5]) }

/-- Of three nested calls, the third one is refused if two are allowed. -/
theorem depth_exact_atLimit :
    Session.atLimit.Reachable 2 ∧ Session.atLimit.state.WithinDepth 2 ∧
      Session.atLimit.evaluate 2 9 (.call "addBase" [.literal (.int 6)]) =
        .failed (.callTooDeep "addBase" 2) Session.atLimit.state := by
  -- the second call enters its body, and the third one is refused there
  have hfind : Session.midCall.functions.find? "addBase" = some .addBase := rfl
  have hfive : evaluateAll (NullScript.evaluate (Session.midCall.setting 2) 8)
      [.literal (.int 5)] Session.midCall.state = .done [.int 5] Session.midCall.state := rfl
  have hsix : evaluateAll (NullScript.evaluate (Session.atLimit.setting 2) 8)
      [.literal (.int 6)] Session.atLimit.state = .done [.int 6] Session.atLimit.state := rfl
  obtain ⟨-, -, hcalls⟩ := depth_exact Session.reachable_midCall
  obtain ⟨-, hsecond⟩ := hcalls 8 "addBase" .addBase _ _ _ hfind hfive rfl
  have hreachable : Session.atLimit.Reachable 2 := (hsecond.entered (by decide)).1
  obtain ⟨hwithin, -, hcalls⟩ := depth_exact hreachable
  obtain ⟨-, hthird⟩ := hcalls 8 "addBase" .addBase _ _ _ hfind hsix rfl
  exact ⟨hreachable, hwithin, hthird.tooDeep rfl⟩

end NullScript
