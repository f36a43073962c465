import NullScript.Proofs.Scope

/-!
# NullScript — scopes in a row

The open scopes can be numbered from the outside, with zero for the global one. Each other scope
has the number of its parent: that of a block is the scope around it, and that of a call is the
global scope. `Scopes.arena` is this row. A name is looked for from the innermost scope on, from
parent to parent; `Arena.Resolves` is that search.

* `Scopes.resolves_home` — the search ends, in the scope that `Scopes.home?` tells.
* `Scopes.get?_eq_lookup?` — what a name stands for is the variable in that scope.
* `Scopes.arena_set`, `Scopes.arena_declare` — storing changes one variable of that scope, and a
  declaration adds one to the innermost scope.
-/

namespace NullScript

/-- Scopes in a row, the outermost first: each with its variables and the number of its parent. -/
abbrev Arena := List (Option Nat × Variables)

/-- Storing changes the value of the variable of that name, and no other. -/
theorem Variables.get?_set (vs : Variables) (name other : String) (value : Value) :
    (vs.set name value).get? other =
      if other = name then (vs.get? other).map fun x => { x with value } else vs.get? other := by
  induction vs with
  | nil => split <;> rfl
  | cons v vs ih =>
    unfold set
    split
    -- the first variable has the name that is stored to
    · next hv =>
      rw [get?_cons, get?_cons]
      by_cases hother : other = name
      · rw [if_pos hother, if_pos (hv.trans hother.symm), if_pos (hv.trans hother.symm)]
        rfl
      · have hne : v.name ≠ other := fun h => hother (h.symm.trans hv)
        rw [if_neg hother, if_neg hne, if_neg hne]
    -- the name is stored to further behind, if at all
    · next hv =>
      rw [get?_cons, get?_cons, ih]
      by_cases hother : other = name
      · have hne : v.name ≠ other := fun h => hv (h.trans hother)
        rw [if_neg hne, if_neg hne, if_pos hother]
      · rw [if_neg hother, if_neg hother]

/-- A name that is not there cannot be stored to. -/
theorem Variables.set_eq_self {vs : Variables} {name : String} (h : vs.get? name = none)
    (value : Value) : vs.set name value = vs := by
  induction vs with
  | nil => rfl
  | cons v vs ih =>
    rw [get?_cons] at h
    unfold set
    split at h
    · cases h
    · next hv => rw [if_neg hv, ih h]

namespace Arena

/-- The variable of a name in the scope of a number. -/
def lookup? (a : Arena) (i : Nat) (name : String) : Option Variable :=
  a[i]?.bind fun scope => scope.2.get? name

/-- Replaces the value of a variable in the scope of a number. -/
def write (a : Arena) (i : Nat) (name : String) (value : Value) : Arena :=
  a.modify i fun scope => (scope.1, scope.2.set name value)

/-- Adds a variable to the scope of a number. -/
def add (a : Arena) (i : Nat) (x : Variable) : Arena :=
  a.modify i fun scope => (scope.1, x :: scope.2)

/-- Looking for a name, from the scope of a number on (or from none), ends in the scope of a number
or in none. -/
inductive Resolves (a : Arena) (name : String) : Option Nat → Option Nat → Prop
  | missing : Resolves a name none none
  | found {i : Nat} {parent : Option Nat} {vs : Variables} : a[i]? = some (parent, vs) →
    (vs.get? name).isSome → Resolves a name (some i) (some i)
  | outward {i : Nat} {parent result : Option Nat} {vs : Variables} : a[i]? = some (parent, vs) →
    vs.get? name = none → Resolves a name parent result → Resolves a name (some i) result

variable {a : Arena} {name : String} {start result : Option Nat}

/-- The search ends in one scope at most. -/
theorem Resolves.eq {result' : Option Nat} (h : a.Resolves name start result)
    (h' : a.Resolves name start result') : result = result' := by
  induction h with
  | missing =>
    cases h'
    rfl
  | found hscope hsome =>
    cases h' with
    | found => rfl
    | outward hscope' hnone =>
      cases hscope.symm.trans hscope'
      rw [hnone] at hsome
      cases hsome
  | outward hscope hnone _ ih =>
    cases h' with
    | found hscope' hsome =>
      cases hscope.symm.trans hscope'
      rw [hnone] at hsome
      cases hsome
    | outward hscope' _ h' =>
      cases hscope.symm.trans hscope'
      exact ih h'

/-- Scopes further inside do not matter to a search that starts outside of them. -/
theorem Resolves.append (h : a.Resolves name start result) (more : Arena) :
    Arena.Resolves (a ++ more) name start result := by
  have hmore {i : Nat} {scope : Option Nat × Variables} (hscope : a[i]? = some scope) :
      (a ++ more)[i]? = some scope := by
    rw [List.getElem?_append_left (List.getElem?_eq_some_iff.mp hscope).1]
    exact hscope
  induction h with
  | missing => exact .missing
  | found hscope hsome => exact .found (hmore hscope) hsome
  | outward hscope hnone _ ih => exact .outward (hmore hscope) hnone ih

/-- A write changes the value of one variable of one scope. -/
theorem lookup?_write (a : Arena) (i j : Nat) (name other : String) (value : Value) :
    (a.write i name value).lookup? j other =
      if i = j ∧ other = name then (a.lookup? j other).map fun x => { x with value }
      else a.lookup? j other := by
  unfold lookup? write
  rw [List.getElem?_modify]
  cases a[j]? with
  | none => simp
  | some scope =>
    by_cases hj : i = j
    · simp [hj, Variables.get?_set]
    · simp [hj]

/-- An addition is found under its name in its scope, and nothing else changes. -/
theorem lookup?_add (a : Arena) (i j : Nat) (x : Variable) (other : String) (hi : i < a.length) :
    (a.add i x).lookup? j other =
      if i = j ∧ other = x.name then some x else a.lookup? j other := by
  unfold lookup? add
  rw [List.getElem?_modify]
  by_cases hj : i = j
  · subst hj
    simp [List.getElem?_eq_getElem hi, Variables.get?_cons, eq_comm]
  · simp [hj]

/-- Changes of variables leave the parents as they are. -/
theorem map_fst_modify (a : Arena) (i : Nat) (f : Variables → Variables) :
    (a.modify i fun scope => (scope.1, f scope.2)).map Prod.fst = a.map Prod.fst := by
  induction a generalizing i with
  | nil => rw [List.modify_nil]
  | cons scope a ih =>
    cases i with
    | zero => rfl
    | succ i => exact congrArg (scope.1 :: ·) (ih i)

/-- A change inside of a longer row. -/
theorem modify_append_left {α : Type} {l : List α} {i : Nat} (h : i < l.length) (f : α → α)
    (more : List α) : (l ++ more).modify i f = l.modify i f ++ more := by
  induction l generalizing i with
  | nil => cases h
  | cons x l ih =>
    cases i with
    | zero => rfl
    | succ i => exact congrArg _ (ih (Nat.lt_of_succ_lt_succ h))

theorem modify_length_append {α : Type} (l : List α) (x : α) (f : α → α) :
    (l ++ [x]).modify l.length f = l ++ [f x] := by
  induction l with
  | nil => rfl
  | cons y l ih => exact congrArg _ ih

end Arena

namespace Scopes

-- ---------------------------------------------------------------------------
-- The row of the open scopes
-- ---------------------------------------------------------------------------

/-- The number of a scope's parent, given the number of scopes around it. -/
def ScopeKind.parent (around : Nat) : ScopeKind → Nat
  | .block => around
  | .call => 0

/-- The row of scopes that are given from the inside to the outside. -/
def arenaOf (globals : Variables) : List Scope → Arena
  | [] => [(none, globals)]
  | scope :: outer =>
    arenaOf globals outer ++ [(some (ScopeKind.parent outer.length scope.kind), scope.bindings)]

/-- The row of the open scopes. -/
def arena (s : Scopes) : Arena := arenaOf s.globals s.inner

/-- The number of the global scope, if the name is found there. -/
def globalHome (globals : Variables) (name : String) : Option Nat :=
  if (globals.get? name).isSome then some 0 else none

/-- The number of the scope in which a name is found, from the inside to the outside. -/
def homeOf (globals : Variables) (name : String) : List Scope → Option Nat
  | [] => globalHome globals name
  | scope :: outer =>
    if (scope.bindings.get? name).isSome then some (outer.length + 1)
    else
      match scope.kind with
      | .block => homeOf globals name outer
      | .call => globalHome globals name

/-- The number of the scope in which a name is found. -/
def home? (s : Scopes) (name : String) : Option Nat := homeOf s.globals name s.inner

/-- There is one more scope than there are inner ones. -/
theorem length_arenaOf (globals : Variables) (scopes : List Scope) :
    (arenaOf globals scopes).length = scopes.length + 1 := by
  induction scopes with
  | nil => rfl
  | cons scope outer ih =>
    rw [arenaOf, List.length_append, ih, List.length_singleton, List.length_cons]

theorem length_arena (s : Scopes) : s.arena.length = s.depth := length_arenaOf _ _

/-- The outermost scope is the global one. -/
theorem getElem?_zero_arenaOf (globals : Variables) (scopes : List Scope) :
    (arenaOf globals scopes)[0]? = some (none, globals) := by
  induction scopes with
  | nil => rfl
  | cons scope outer ih =>
    rw [arenaOf, List.getElem?_append_left (by rw [length_arenaOf]; omega), ih]

/-- The innermost scope. -/
theorem getElem?_length_arenaOf (globals : Variables) (scope : Scope) (outer : List Scope) :
    (arenaOf globals (scope :: outer))[outer.length + 1]? =
      some (some (ScopeKind.parent outer.length scope.kind), scope.bindings) := by
  rw [arenaOf, List.getElem?_append_right (Nat.le_of_eq (length_arenaOf _ _)), length_arenaOf,
    Nat.sub_self]
  rfl

-- ---------------------------------------------------------------------------
-- Search
-- ---------------------------------------------------------------------------

/-- A search in the global scope ends there, or nowhere. -/
theorem resolves_global {a : Arena} {globals : Variables} (h : a[0]? = some (none, globals))
    (name : String) : a.Resolves name (some 0) (globalHome globals name) := by
  unfold globalHome
  cases hx : globals.get? name with
  | some x => exact .found h (by rw [hx]; rfl)
  | none => exact .outward h hx .missing

/-- A search from the innermost of some scopes ends where it is told to. -/
theorem resolves_homeOf (globals : Variables) (name : String) (scopes : List Scope) :
    (arenaOf globals scopes).Resolves name (some scopes.length) (homeOf globals name scopes) := by
  -- induction on the open scopes, from the inside to the outside
  induction scopes with
  | nil => exact resolves_global rfl name
  | cons scope outer ih =>
    have hlast := getElem?_length_arenaOf globals scope outer
    unfold homeOf
    cases hx : scope.bindings.get? name with
    | some x => exact .found hlast (by rw [hx]; rfl)
    | none =>
      refine .outward hlast hx ?_
      cases scope.kind with
      -- the parent of a block is the scope around it, which is the last one of a shorter row
      | block => exact ih.append _
      -- the parent of a call is the global scope
      | call => exact resolves_global (getElem?_zero_arenaOf globals (scope :: outer)) name

/-- **A search from the innermost scope ends**, in the scope that `home?` tells. -/
theorem resolves_home (s : Scopes) (name : String) :
    s.arena.Resolves name (some (s.depth - 1)) (s.home? name) :=
  resolves_homeOf s.globals name s.inner

/-- The number of the global scope is zero. -/
theorem eq_zero_of_globalHome {globals : Variables} {name : String} {i : Nat}
    (h : globalHome globals name = some i) : i = 0 := by
  unfold globalHome at h
  split at h
  · exact (Option.some.inj h).symm
  · cases h

/-- A name is found in one of the open scopes. -/
theorem lt_length_of_homeOf {globals : Variables} {name : String} {scopes : List Scope} {i : Nat}
    (h : homeOf globals name scopes = some i) : i < scopes.length + 1 := by
  induction scopes with
  | nil =>
    rw [eq_zero_of_globalHome h]
    exact Nat.zero_lt_one
  | cons scope outer ih =>
    unfold homeOf at h
    split at h
    · cases h
      exact Nat.lt_succ_self _
    · split at h
      · exact Nat.lt_succ_of_lt (ih h)
      · rw [eq_zero_of_globalHome h]
        exact Nat.zero_lt_succ _

/-- A global variable is the one in the scope with the number zero. -/
theorem get?_eq_globalHome_bind (globals : Variables) (name : String) (scopes : List Scope) :
    globals.get? name =
      (globalHome globals name).bind fun i => (arenaOf globals scopes).lookup? i name := by
  unfold globalHome
  cases hx : globals.get? name with
  | some x =>
    show _ = (arenaOf globals scopes).lookup? 0 name
    rw [Arena.lookup?, getElem?_zero_arenaOf]
    exact hx.symm
  | none => rfl

/-- The variable of a name is found in one of the inner scopes, or only the global one is left. -/
theorem getInner?_or_eq (globals : Variables) (name : String) (scopes : List Scope) :
    (getInner? name scopes).or (globals.get? name) =
      (homeOf globals name scopes).bind fun i => (arenaOf globals scopes).lookup? i name := by
  induction scopes with
  | nil => exact get?_eq_globalHome_bind globals name []
  | cons scope outer ih =>
    unfold getInner? homeOf
    -- the name is found in the innermost scope, or the search goes on from its parent
    cases hx : scope.bindings.get? name with
    | some x =>
      show some x = (arenaOf globals (scope :: outer)).lookup? (outer.length + 1) name
      rw [Arena.lookup?, getElem?_length_arenaOf]
      exact hx.symm
    | none =>
      cases scope.kind with
      | block =>
        refine ih.trans (Option.bind_congr fun i hi => ?_)
        rw [Arena.lookup?, Arena.lookup?, arenaOf, List.getElem?_append_left]
        rw [length_arenaOf]
        exact lt_length_of_homeOf hi
      | call => exact get?_eq_globalHome_bind globals name (scope :: outer)

/-- **What a name stands for** is the variable in the scope that the search ends in. -/
theorem get?_eq_lookup? (s : Scopes) (name : String) :
    s.get? name = (s.home? name).bind fun i => s.arena.lookup? i name :=
  getInner?_or_eq s.globals name s.inner

-- ---------------------------------------------------------------------------
-- Changes
-- ---------------------------------------------------------------------------

theorem arena_pushBlock (s : Scopes) :
    s.pushBlock.arena = s.arena ++ [(some (s.depth - 1), [])] := rfl

theorem arena_pushCall (s : Scopes) (parameters : List Variable) :
    (s.pushCall parameters).arena = s.arena ++ [(some 0, Variables.ofList parameters)] := rfl

/-- Closing a scope takes the last one away, and leaves the global one. -/
theorem arena_pop (s : Scopes) : s.pop.arena = s.arena.take (max 1 (s.depth - 1)) := by
  unfold pop arena depth
  cases s.inner with
  | nil => rfl
  | cons scope outer =>
    have hlength := length_arenaOf s.globals outer
    rw [arenaOf, List.tail_cons, List.length_cons, Nat.add_sub_cancel, Nat.max_eq_right (by omega),
      ← hlength, List.take_left]

/-- Storing in an inner scope. -/
theorem arenaOf_setInner (globals : Variables) {name : String} {scopes : List Scope} {x : Variable}
    (h : getInner? name scopes = some x) (value : Value) :
    ∃ i, homeOf globals name scopes = some i ∧
      arenaOf globals (setInner name value scopes) =
        (arenaOf globals scopes).write i name value := by
  -- induction on the open scopes: the name is in the innermost one or further outside
  induction scopes with
  | nil => cases h
  | cons scope outer ih =>
    unfold getInner? at h
    unfold homeOf setInner
    split at h
    · next hx =>
      have hlength := length_arenaOf globals outer
      refine ⟨outer.length + 1, by rw [hx]; rfl, ?_⟩
      rw [arenaOf, Arena.write, arenaOf, ← hlength, Arena.modify_length_append]
    -- a block without the name: the write happens in the shorter row
    · next hx hkind =>
      obtain ⟨i, hi, hwrite⟩ := ih h
      have hlt : i < (arenaOf globals outer).length := by
        rw [length_arenaOf]
        exact lt_length_of_homeOf hi
      have hlength : (setInner name value outer).length = outer.length := by
        have := congrArg List.length hwrite
        rw [Arena.write, List.length_modify, length_arenaOf, length_arenaOf] at this
        omega
      refine ⟨i, by rw [hx, hkind]; exact hi, ?_⟩
      rw [arenaOf, hwrite, hlength, arenaOf, Arena.write, Arena.write, Arena.modify_append_left hlt]
    · cases h

/-- Storing in the global scope. -/
theorem arenaOf_setGlobal (globals : Variables) (name : String) (value : Value)
    (scopes : List Scope) :
    arenaOf (globals.set name value) scopes = (arenaOf globals scopes).write 0 name value := by
  induction scopes with
  | nil => rfl
  | cons scope outer ih =>
    have hlt : 0 < (arenaOf globals outer).length := by
      rw [length_arenaOf]
      exact Nat.succ_pos _
    rw [arenaOf, ih, arenaOf, Arena.write, Arena.write, Arena.modify_append_left hlt]

/-- A name that no inner scope has is looked for in the global one. -/
theorem homeOf_of_getInner?_eq_none (globals : Variables) {name : String} {scopes : List Scope}
    (h : getInner? name scopes = none) :
    homeOf globals name scopes = globalHome globals name := by
  induction scopes with
  | nil => rfl
  -- no scope up to the next call has the name, and behind that call only the global one is left
  | cons scope outer ih =>
    unfold getInner? at h
    unfold homeOf
    split at h
    · cases h
    · next hx hkind =>
      rw [hx, hkind]
      exact ih h
    · next hx hkind =>
      rw [hx, hkind]
      rfl

/-- **Storing** writes to the scope in which the name is found, if there is one. -/
theorem arena_set (s : Scopes) (name : String) (value : Value) :
    (s.set name value).arena =
      match s.home? name with
      | some i => s.arena.write i name value
      | none => s.arena := by
  unfold set arena home?
  cases hx : getInner? name s.inner with
  -- the name is found inside a call or a block, else in the global scope or nowhere
  | some x =>
    obtain ⟨i, hi, hwrite⟩ := arenaOf_setInner s.globals hx value
    rw [hi]
    exact hwrite
  | none =>
    rw [homeOf_of_getInner?_eq_none s.globals hx, globalHome]
    cases hglobal : s.globals.get? name with
    | some x => exact arenaOf_setGlobal s.globals name value s.inner
    | none => exact congrArg (arenaOf · s.inner) (Variables.set_eq_self hglobal value)

/-- Storing changes no parent. -/
theorem map_fst_arena_set (s : Scopes) (name : String) (value : Value) :
    (s.set name value).arena.map Prod.fst = s.arena.map Prod.fst := by
  rw [arena_set]
  cases s.home? name with
  | some i => exact Arena.map_fst_modify _ _ _
  | none => rfl

/-- Storing changes the value of the variable that the name stands for, and of no other. -/
theorem lookup?_set (s : Scopes) (name : String) (value : Value) (i : Nat) (other : String) :
    (s.set name value).arena.lookup? i other =
      if s.home? name = some i ∧ other = name then
        (s.arena.lookup? i other).map fun x => { x with value }
      else s.arena.lookup? i other := by
  rw [arena_set]
  cases s.home? name with
  | some j => simp only [Arena.lookup?_write, Option.some.injEq]
  | none => simp

/-- What the innermost scope holds. -/
theorem declares_eq_isSome (s : Scopes) (name : String) :
    s.declares name = (s.arena.lookup? (s.depth - 1) name).isSome := by
  unfold declares arena depth
  cases s.inner with
  | nil => rfl
  | cons scope outer =>
    show _ = ((arenaOf s.globals (scope :: outer)).lookup? (outer.length + 1) name).isSome
    rw [Arena.lookup?, getElem?_length_arenaOf]
    rfl

/-- A name that the innermost scope does not hold can be declared. -/
theorem exists_declare {s : Scopes} {x : Variable} (h : s.declares x.name = false) :
    ∃ t, s.declare x = .ok t := by
  unfold Scopes.declare
  rw [h]
  cases s.inner with
  | nil => exact ⟨_, rfl⟩
  | cons scope outer => exact ⟨_, rfl⟩

/-- **A declaration** adds to the innermost scope. -/
theorem arena_declare {s t : Scopes} {x : Variable} (h : s.declare x = .ok t) :
    t.arena = s.arena.add (s.depth - 1) x := by
  unfold declare at h
  split at h
  · cases h
  · unfold arena depth
    cases hinner : s.inner with
    | nil =>
      rw [hinner] at h
      cases h
      rfl
    | cons scope outer =>
      rw [hinner] at h
      cases h
      show arenaOf s.globals (_ :: outer) = (arenaOf s.globals (scope :: outer)).add _ x
      rw [arenaOf, arenaOf, Arena.add, List.length_cons, Nat.add_sub_cancel,
        ← length_arenaOf s.globals outer, Arena.modify_length_append]

-- ---------------------------------------------------------------------------
-- Equal outlines
-- ---------------------------------------------------------------------------

/-- Which names there are is seen in the outline of the variables. -/
theorem isSome_get?_of_slots_eq {vs vs' : Variables}
    (h : vs.map Variable.slot = vs'.map Variable.slot) (name : String) :
    (vs.get? name).isSome = (vs'.get? name).isSome := by
  rw [← Option.isSome_map (f := Variable.slot), Variables.map_slot_get?, h,
    ← Variables.map_slot_get?, Option.isSome_map]

/-- Whether a name is global is seen in the outline. -/
theorem globalHome_of_slots_eq {globals globals' : Variables}
    (h : globals.map Variable.slot = globals'.map Variable.slot) (name : String) :
    globalHome globals name = globalHome globals' name := by
  rw [globalHome, globalHome, isSome_get?_of_slots_eq h]

/-- Where a name is found is seen in the outlines of the open scopes. -/
theorem homeOf_of_outlines_eq {globals globals' : Variables} {name : String}
    (hglobal : globalHome globals name = globalHome globals' name) {scopes scopes' : List Scope}
    (hinner : scopes.map Scope.outline = scopes'.map Scope.outline) :
    homeOf globals name scopes = homeOf globals' name scopes' := by
  induction scopes generalizing scopes' with
  | nil =>
    cases scopes' with
    | nil => exact hglobal
    | cons _ _ => cases hinner
  | cons scope outer ih =>
    cases scopes' with
    | nil => cases hinner
    | cons scope' outer' =>
      -- the outline tells the kind of the scope and its names, and how many scopes are around it
      obtain ⟨hscope, houter⟩ := List.cons.inj hinner
      have hlength : outer.length = outer'.length := by
        have := congrArg List.length houter
        rwa [List.length_map, List.length_map] at this
      simp only [Scope.outline, Prod.mk.injEq, Option.some.injEq] at hscope
      rw [homeOf, homeOf, isSome_get?_of_slots_eq hscope.2, hscope.1, hlength, ih houter, hglobal]

/-- **Where a name is found** is seen in the outline. -/
theorem home?_of_outline_eq {s t : Scopes} (h : s.outline = t.outline) (name : String) :
    s.home? name = t.home? name := by
  obtain ⟨hinner, hglobals⟩ := outline_eq_iff.mp h
  exact homeOf_of_outlines_eq (globalHome_of_slots_eq hglobals name) hinner

end Scopes

end NullScript
