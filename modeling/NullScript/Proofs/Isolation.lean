import NullScript.Proofs.Scope
import NullScript.Proofs.Simulation

/-!
# NullScript — calls are independent of their caller

A function sees its own variables and the global ones. The scopes that were open when it was called
are below the scope of the call. They are neither read nor changed, whatever they hold and however
many there are: a run with scopes below is the run without them, and the scopes stay below.

* `follows_under` — evaluation and execution inside of a call do the same with further scopes below.
* `call_independent_of_caller` — in two states that differ in the caller's scopes only, a call does
  the same and leaves the caller's scopes as they were.
-/

namespace NullScript

-- ---------------------------------------------------------------------------
-- Scopes below a call
-- ---------------------------------------------------------------------------

namespace Scopes

/-- The scopes with further ones below, just above the global scope. -/
def under (outer : List Scope) (s : Scopes) : Scopes := { s with inner := s.inner ++ outer }

variable {outer scopes : List Scope} {name : String} {s t : Scopes}

/-- A name is looked up no further than the scope of the innermost call. -/
theorem getInner?_append (h : .call ∈ scopes.map Scope.kind) :
    getInner? name (scopes ++ outer) = getInner? name scopes := by
  induction scopes with
  | nil => cases h
  -- the scope holds the name, or is a block and passes the question on, or is the call
  | cons scope rest ih =>
    rw [List.cons_append, getInner?, getInner?]
    split
    · rfl
    · rename_i hkind
      refine ih ?_
      rw [List.map_cons, hkind] at h
      simpa using h
    · rfl

/-- A variable that is set above the scope of the innermost call leaves the scopes below. -/
theorem setInner_append (value : Value) (h : .call ∈ scopes.map Scope.kind) :
    setInner name value (scopes ++ outer) = setInner name value scopes ++ outer := by
  induction scopes with
  | nil => cases h
  | cons scope rest ih =>
    rw [List.cons_append, setInner, setInner]
    split
    · rfl
    -- the call is not this block, so it is among the others
    · rename_i hkind
      rw [List.map_cons, hkind] at h
      rw [ih (by simpa using h), List.cons_append]
    · rfl

/-- Setting a variable opens and closes no scope. -/
theorem map_kind_setInner (name : String) (value : Value) (scopes : List Scope) :
    (setInner name value scopes).map Scope.kind = scopes.map Scope.kind := by
  induction scopes with
  | nil => rfl
  | cons scope rest ih =>
    rw [setInner]
    split
    · rfl
    · rw [List.map_cons, List.map_cons, ih]
    · rfl

theorem get?_under (h : .call ∈ s.kinds) : (s.under outer).get? name = s.get? name := by
  rw [get?, get?, under, getInner?_append h]

/-- Inside of a call a variable is set in the same way with further scopes below. -/
theorem set_under (value : Value) (h : .call ∈ s.kinds) :
    (s.under outer).set name value = (s.set name value).under outer := by
  rw [set, set, under, getInner?_append h]
  split
  · rw [setInner_append value h, under]
  · rfl

/-- A variable that is set leaves the kinds of the open scopes. -/
theorem kinds_set (name : String) (value : Value) : (s.set name value).kinds = s.kinds := by
  unfold set
  split
  · exact map_kind_setInner name value s.inner
  · rfl

/-- Inside of a call a variable is declared in the same way with further scopes below. -/
theorem declare_under {x : Variable} (h : .call ∈ s.kinds) :
    (s.under outer).declare x = (s.declare x).map (under outer) := by
  unfold kinds at h
  unfold declare declares under
  -- there is an innermost scope, and the variable goes there
  cases hinner : s.inner with
  | nil =>
    rw [hinner] at h
    cases h
  | cons scope rest =>
    simp only [List.cons_append]
    split
    · rfl
    · rfl

theorem kinds_declare {x : Variable} (h : s.declare x = .ok t) : t.kinds = s.kinds := by
  rw [← kinds_outline, ← kinds_outline, outline_declare h, Outline.kinds_declare]

/-- Without the innermost scope the kinds of the others are left. -/
theorem kinds_pop {kind : ScopeKind} {others : List ScopeKind} (h : s.kinds = kind :: others) :
    s.pop.kinds = others := by
  unfold kinds at h ⊢
  rw [pop, List.map_tail, h, List.tail_cons]

/-- Closing the innermost scope does not reach the scopes below. -/
theorem pop_under {kind : ScopeKind} {others : List ScopeKind} (h : s.kinds = kind :: others) :
    (s.under outer).pop = s.pop.under outer := by
  unfold kinds at h
  unfold pop under
  cases hinner : s.inner with
  | nil =>
    rw [hinner] at h
    cases h
  | cons scope rest => rfl

end Scopes

/-- The state with further scopes below the open ones. -/
def State.under (outer : List Scope) (s : State) : State :=
  { s with scopes := s.scopes.under outer }

/-- The first state has open scopes of the given kinds, and the second one is the same with further
scopes below. -/
def Below (outer : List Scope) (kinds : List ScopeKind) (s t : State) : Prop :=
  s.scopes.kinds = kinds ∧ t = s.under outer

variable {excused : Option Failure → Prop} {outer : List Scope} {kinds : List ScopeKind}

open NullScript.Action (Follows)

namespace Below

variable {s t : State}

/-- A block is opened above the scopes below. -/
theorem enterBlock (h : Below outer kinds s t) :
    Below outer (.block :: kinds) s.enterBlock t.enterBlock := by
  obtain ⟨rfl, rfl⟩ := h
  exact ⟨rfl, rfl⟩

/-- A call is entered above the scopes below. -/
theorem enterCall (h : Below outer kinds s t) (parameters : List Variable) :
    Below outer (.call :: kinds) (s.enterCall parameters) (t.enterCall parameters) := by
  obtain ⟨rfl, rfl⟩ := h
  exact ⟨rfl, rfl⟩

/-- A block is closed without reaching the scopes below. -/
theorem leaveBlock {kind : ScopeKind} (h : Below outer (kind :: kinds) s t) :
    Below outer kinds s.leaveBlock t.leaveBlock := by
  obtain ⟨hkinds, rfl⟩ := h
  refine ⟨Scopes.kinds_pop hkinds, ?_⟩
  exact congrArg (fun scopes => { s with scopes }) (Scopes.pop_under hkinds)

/-- A call is left without reaching the scopes below. -/
theorem leaveCall {kind : ScopeKind} (h : Below outer (kind :: kinds) s t) :
    Below outer kinds s.leaveCall t.leaveCall := by
  obtain ⟨hkinds, rfl⟩ := h
  refine ⟨Scopes.kinds_pop hkinds, ?_⟩
  exact congrArg (fun scopes => { s with scopes, depth := s.depth - 1 })
    (Scopes.pop_under hkinds)

end Below

/-- Inside of a call, states with and without scopes below look alike. -/
theorem alike_below (h : .call ∈ kinds) : Alike (Below outer kinds) := by
  constructor
  · rintro s t ⟨-, rfl⟩
    rfl
  · rintro s t streams ⟨hkinds, rfl⟩
    exact ⟨hkinds, rfl⟩
  · rintro s t ⟨-, rfl⟩
    rfl
  · rintro s t name ⟨rfl, rfl⟩
    exact (Scopes.get?_under h).symm

-- ---------------------------------------------------------------------------
-- Changes of variables
-- ---------------------------------------------------------------------------

/-- Inside of a call a declaration does the same with further scopes below. -/
theorem follows_declareVariable_below (h : .call ∈ kinds) (x : Variable) :
    Follows excused (Below outer kinds) (declareVariable x) (declareVariable x) := by
  rintro s t ⟨rfl, rfl⟩
  -- the first test is on the value and its type, and the second one on the innermost scope
  rw [declareVariable_apply, declareVariable_apply]
  split
  · rw [State.under, Scopes.declare_under h]
    cases hx : s.scopes.declare x with
    | error e => exact .inr ⟨_, rfl, rfl, rfl⟩
    | ok scopes => exact ⟨_, rfl, Scopes.kinds_declare hx, rfl⟩
  · exact .inr ⟨_, rfl, rfl, rfl⟩

/-- Inside of a call an assignment does the same with further scopes below. -/
theorem follows_storeValue_below (h : .call ∈ kinds) (name : String) (v : Value) :
    Follows excused (Below outer kinds) (storeValue name v) (storeValue name v) := by
  rintro s t ⟨rfl, rfl⟩
  rw [storeValue_apply, storeValue_apply, State.under, Scopes.get?_under h]
  -- the scopes below are not asked, so both runs find the same variable or none
  split
  · exact .inr ⟨_, rfl, rfl, rfl⟩
  · split
    · refine ⟨_, rfl, Scopes.kinds_set name v, ?_⟩
      rw [State.under, Scopes.set_under v h]
    · exact .inr ⟨_, rfl, rfl, rfl⟩

-- ---------------------------------------------------------------------------
-- Every step
-- ---------------------------------------------------------------------------

section

variable {setting : Setting} {exec : Statement → Action Flow}
  (hexec : ∀ kinds, .call ∈ kinds → ∀ st, Follows excused (Below outer kinds) (exec st) (exec st))

include hexec

theorem follows_executeBlock_below (h : .call ∈ kinds) (body : List Statement) :
    Follows excused (Below outer kinds) (executeBlock exec body) (executeBlock exec body) :=
  follows_executeBlock (fun _ _ hs => hs.enterBlock) (fun _ _ hs => hs.leaveBlock)
    fun st _ => hexec (.block :: kinds) (List.mem_cons_of_mem _ h) st

/-- The caller need not be a call itself. -/
theorem follows_callFunction_below (kinds : List ScopeKind) (f : Function) (vs : List Value) :
    Follows excused (Below outer kinds) (callFunction setting exec f vs)
      (callFunction setting exec f vs) := by
  refine follows_callFunction ?_ (.inl rfl) ?_
  -- both states count the same calls in progress
  · rintro s t ⟨-, rfl⟩
    rfl
  · exact (follows_executeBlock_below hexec List.mem_cons_self f.body).between
      (fun _ _ hs => hs.enterCall (f.bind vs)) fun _ _ hs => hs.leaveCall

end

/-- Evaluation and execution inside of a call do the same with further scopes below. -/
theorem follows_under (setting : Setting) (outer : List Scope) (steps : Nat)
    (kinds : List ScopeKind) (h : .call ∈ kinds) :
    (∀ e, Follows (fun _ => False) (Below outer kinds) (evaluate setting steps e)
      (evaluate setting steps e)) ∧
      ∀ st, Follows (fun _ => False) (Below outer kinds) (execute setting steps st)
        (execute setting steps st) := by
  -- on the number of steps, for the scopes of every place inside of a call at once
  induction steps generalizing kinds with
  | zero => exact ⟨fun _ _ _ _ => .inr rfl, fun _ _ _ _ => .inr rfl⟩
  | succ steps ih =>
    have hexec : ∀ kinds, .call ∈ kinds → ∀ st, Follows (fun _ => False) (Below outer kinds)
        (execute setting steps st) (execute setting steps st) :=
      fun kinds h => (ih kinds h).2
    constructor
    · intro e
      rw [evaluate_succ]
      exact follows_evaluateWith (alike_below h).abreast (fun _ => rfl)
        (fun name _ s t => (alike_below h).get? s t name) (fun e' _ => (ih kinds h).1 e')
        fun _ f vs _ => follows_callFunction_below hexec kinds f vs
    · intro st
      rw [execute_succ]
      exact follows_executeWith (alike_below h).get? (.inl rfl) (fun e _ => (ih kinds h).1 e)
        (fun body _ => follows_executeBlock_below hexec h body)
        (follows_storeValue_below h) (follows_declareVariable_below h)

/-- The state in which only the global scope is open. -/
def State.globalOnly (s : State) : State := ⟨⟨[], s.scopes.globals⟩, s.depth, s.streams⟩

/-- Two states have this state in common if and only if they agree in everything but the inner
scopes. -/
theorem State.globalOnly_eq_iff {s t : State} :
    s.globalOnly = t.globalOnly ↔ s.scopes.globals = t.scopes.globals ∧ s.depth = t.depth ∧
      s.streams = t.streams := by
  simp [globalOnly]

theorem below_globalOnly (s : State) : Below s.scopes.inner [] s.globalOnly s := ⟨rfl, rfl⟩

/-- Two calls in states that differ in the scopes of the caller only are both the call without
these scopes, which leaves none open but the global one. -/
theorem matches_callFunction (setting : Setting) (steps : Nat) (f : Function) (vs : List Value)
    {s t : State} (hcommon : s.globalOnly = t.globalOnly) :
    (callFunction setting (execute setting steps) f vs s).Matches (fun _ => False)
      (fun s' t' => s'.globalOnly = t'.globalOnly ∧ s'.scopes.inner = s.scopes.inner ∧
        t'.scopes.inner = t.scopes.inner)
      (callFunction setting (execute setting steps) f vs t) := by
  have hcall : ∀ outer, Follows (fun _ => False) (Below outer [])
      (callFunction setting (execute setting steps) f vs)
      (callFunction setting (execute setting steps) f vs) :=
    fun outer => follows_callFunction_below
      (fun kinds h => (follows_under setting outer steps kinds h).2) [] f vs
  have hs := hcall _ _ _ (below_globalOnly s)
  have ht := hcall _ _ _ (below_globalOnly t)
  -- both calls are compared with the one from the state that the two have in common
  rw [hcommon] at hs
  refine (hs.fork ht).imp ?_
  rintro s' t' ⟨u, ⟨hkinds, rfl⟩, -, rfl⟩
  -- the call has closed what it opened
  have hinner : u.scopes.inner = [] := List.map_eq_nil_iff.mp hkinds
  refine ⟨rfl, ?_, ?_⟩
  · rw [State.under, Scopes.under, hinner, List.nil_append]
  · rw [State.under, Scopes.under, hinner, List.nil_append]

/-- **Calls are independent of their caller.** In two states with the same global variables, the
same number of calls in progress and the same streams, but any other scopes, a call of a function
gives the same value or the same failure, and leaves the same global variables and streams. Both
times the scopes of the caller are afterwards exactly what they were. -/
theorem call_independent_of_caller (setting : Setting) (steps : Nat) (f : Function)
    (vs : List Value) {s t : State} (hglobals : s.scopes.globals = t.scopes.globals)
    (hdepth : s.depth = t.depth) (hstreams : s.streams = t.streams) :
    (callFunction setting (execute setting steps) f vs s).Matches (fun _ => False)
      (fun s' t' => s'.scopes.globals = t'.scopes.globals ∧ s'.depth = t'.depth ∧
        s'.streams = t'.streams ∧ s'.scopes.inner = s.scopes.inner ∧
        t'.scopes.inner = t.scopes.inner)
      (callFunction setting (execute setting steps) f vs t) := by
  have hcommon := State.globalOnly_eq_iff.mpr ⟨hglobals, hdepth, hstreams⟩
  refine (matches_callFunction setting steps f vs hcommon).imp ?_
  rintro s' t' ⟨h, hs, ht⟩
  obtain ⟨hglobals', hdepth', hstreams'⟩ := State.globalOnly_eq_iff.mp h
  exact ⟨hglobals', hdepth', hstreams', hs, ht⟩

/-- A call from inside of another call, and from outside of any scope but the global one. -/
theorem call_independent_of_caller_midCall :
    Session.midCall.state.scopes.inner ≠ Session.midCall.state.globalOnly.scopes.inner ∧
    (callFunction ⟨[.addBase], 2⟩ (execute ⟨[.addBase], 2⟩ 9) .addBase [.int 5]
      Session.midCall.state).Matches (fun _ => False)
      (fun s t => s.scopes.globals = t.scopes.globals ∧ s.depth = t.depth ∧
        s.streams = t.streams ∧ s.scopes.inner = Session.midCall.state.scopes.inner ∧
        t.scopes.inner = [])
      (callFunction ⟨[.addBase], 2⟩ (execute ⟨[.addBase], 2⟩ 9) .addBase [.int 5]
        Session.midCall.state.globalOnly) := by
  have hglobals : Session.midCall.state.scopes.globals =
    Session.midCall.state.globalOnly.scopes.globals := rfl
  exact ⟨by decide, call_independent_of_caller _ 9 .addBase [.int 5] hglobals rfl rfl⟩

end NullScript
