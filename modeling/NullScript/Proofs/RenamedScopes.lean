import NullScript.Proofs.Isolation
import NullScript.Proofs.Renaming

/-!
# NullScript — scopes with a renamed variable

Two runs of a block with a local variable that has different names differ in the scope of the
block, and nowhere else. `Renamed` relates their states. A name that a statement uses has to be
renamed unless a scope opened since then holds a variable of that name too; which of them do is
known from the statements, and is what `Renamed` is indexed by.

* `Renamed.get?_cases`, `Renamed.set` — a name and the renamed name stand for the same variable.
* `Renamed.declare` — a declaration may shadow the renamed variable.
* `follows_callFunction_renamed` — a call of a function sees neither of the two names.
-/

namespace NullScript

-- ---------------------------------------------------------------------------
-- Variables of one scope
-- ---------------------------------------------------------------------------

/-- A variable without its name. -/
def Variable.content (v : Variable) : Ty × Bool × Value := (v.type, v.isConst, v.value)

namespace Variables

/-- Is there a variable of the name? -/
def holds (vs : Variables) (name : String) : Bool := (vs.get? name).isSome

/-- The variables with the one called `x` called `y`. -/
def rename (x y : String) (vs : Variables) : Variables :=
  vs.map fun v => { v with name := newName x y v.name }

variable {x y name : String} {vs : Variables}

theorem get?_of_not_holds (h : vs.holds name = false) : vs.get? name = none :=
  Option.not_isSome_iff_eq_none.mp (Bool.eq_false_iff.mp h)

theorem holds_cons (v : Variable) (vs : Variables) (name : String) :
    holds (v :: vs) name = (decide (v.name = name) || vs.holds name) := by
  rw [holds, get?_cons]
  by_cases h : v.name = name <;> simp [h, holds]

/-- A new value for a variable changes no names. -/
theorem holds_set (vs : Variables) (name name' : String) (value : Value) :
    (vs.set name value).holds name' = vs.holds name' := by
  induction vs with
  | nil => rfl
  | cons v vs ih =>
    unfold set
    split
    · rw [holds_cons, holds_cons]
    · rw [holds_cons, holds_cons, ih]

/-- The renamed name finds the same content in the renamed variables. -/
theorem content_get?_rename (hy : vs.holds y = false) (hname : name ≠ y) :
    ((vs.rename x y).get? (newName x y name)).map Variable.content =
      (vs.get? name).map Variable.content := by
  induction vs with
  | nil => rfl
  | cons v vs ih =>
    simp only [holds_cons, Bool.or_eq_false_iff, decide_eq_false_iff_not] at hy
    rw [rename, List.map_cons, get?_cons, get?_cons]
    dsimp only
    -- neither of the two names is `y`, so they are equal exactly if they were before renaming
    simp only [newName_eq_iff hy.1 hname]
    split
    · rfl
    · exact ih hy.2

/-- A new value may be set before renaming or behind it. -/
theorem set_rename (hy : vs.holds y = false) (hname : name ≠ y) (value : Value) :
    (vs.rename x y).set (newName x y name) value = (vs.set name value).rename x y := by
  induction vs with
  | nil => rfl
  | cons v vs ih =>
    simp only [holds_cons, Bool.or_eq_false_iff, decide_eq_false_iff_not] at hy
    rw [rename, List.map_cons, set, set]
    dsimp only
    simp only [newName_eq_iff hy.1 hname]
    split
    · rfl
    · exact congrArg _ (ih hy.2)

/-- The renamed name is held exactly if the name was. -/
theorem holds_rename (hy : vs.holds y = false) (hname : name ≠ y) :
    (vs.rename x y).holds (newName x y name) = vs.holds name := by
  have h := congrArg Option.isSome (content_get?_rename (x := x) hy hname)
  rwa [Option.isSome_map, Option.isSome_map] at h

/-- Variables without an `x` stay as they are. -/
theorem rename_of_not_holds (y : String) (hx : vs.holds x = false) : vs.rename x y = vs := by
  induction vs with
  | nil => rfl
  | cons v vs ih =>
    simp only [holds_cons, Bool.or_eq_false_iff, decide_eq_false_iff_not] at hx
    rw [rename, List.map_cons, newName_of_ne y hx.1]
    exact congrArg (v :: ·) (ih hx.2)

end Variables

-- ---------------------------------------------------------------------------
-- Names that are shadowed
-- ---------------------------------------------------------------------------

/-- Renames a variable in a part of a program, unless one of the scopes that were opened since holds
another variable of its name. -/
def unlessShadowed {α : Type} (shadows : List Bool) (f : α → α) (a : α) : α :=
  if true ∈ shadows then a else f a

/-- The name for what `name` stands for, after a variable `x` was called `y`. -/
def nameIn (x y : String) (shadows : List Bool) (name : String) : String :=
  unlessShadowed shadows (newName x y) name

section

variable {x y name : String} {shadows : List Bool} {vs : Variables}

theorem unlessShadowed_of_mem {α : Type} (h : true ∈ shadows) (f : α → α) :
    unlessShadowed shadows f = id :=
  funext fun _ => if_pos h

theorem unlessShadowed_of_not_mem {α : Type} (h : true ∉ shadows) (f : α → α) :
    unlessShadowed shadows f = f :=
  funext fun _ => if_neg h

/-- A new scope, which is empty, shadows nothing. -/
theorem unlessShadowed_false_cons {α : Type} (f : α → α) :
    unlessShadowed (false :: shadows) f = unlessShadowed shadows f := by
  funext a
  simp [unlessShadowed]

theorem nameIn_of_ne (h : name ≠ x) : nameIn x y shadows name = name := by
  rw [nameIn, unlessShadowed, newName_of_ne y h, ite_self]

theorem nameIn_nil (x y name : String) : nameIn x y [] name = newName x y name := by
  rw [nameIn, unlessShadowed_of_not_mem List.not_mem_nil]

/-- A name stays as it is, or is the one that is renamed. -/
theorem nameIn_eq_or (x y : String) (shadows : List Bool) (name : String) :
    nameIn x y shadows name = name ∨ name = x ∧ nameIn x y shadows name = y := by
  unfold nameIn unlessShadowed newName
  split
  · exact .inl rfl
  · split
    · exact .inr ⟨‹_›, rfl⟩
    · exact .inl rfl

/-- A name that a scope holds is not renamed there. -/
theorem nameIn_of_holds (hname : vs.holds name = true) :
    nameIn x y (vs.holds x :: shadows) name = name := by
  by_cases h : name = x
  · subst h
    rw [hname, nameIn, unlessShadowed_of_mem List.mem_cons_self, id]
  · exact nameIn_of_ne h

/-- A scope that does not hold a name does not shadow it. -/
theorem nameIn_cons (hname : vs.holds name = false) :
    nameIn x y (vs.holds x :: shadows) name = nameIn x y shadows name := by
  by_cases h : name = x
  · subst h
    rw [hname, nameIn, unlessShadowed_false_cons, nameIn]
  · rw [nameIn_of_ne h, nameIn_of_ne h]

/-- A scope that does not hold the new name has the same variable for both names. -/
theorem get?_nameIn (hy : vs.holds y = false) :
    vs.get? (nameIn x y (vs.holds x :: shadows) name) = vs.get? name := by
  cases hname : vs.holds name with
  | true => rw [nameIn_of_holds hname]
  | false =>
    rw [nameIn_cons hname, nameIn, unlessShadowed, newName]
    split
    · rfl
    · split
      · rw [Variables.get?_of_not_holds hname, Variables.get?_of_not_holds hy]
      · rfl

end

-- ---------------------------------------------------------------------------
-- Scopes
-- ---------------------------------------------------------------------------

namespace Scopes

variable {name : String} {vs : Variables} {outer : List Scope}

/-- A name is looked up in the scope of a block first, and then behind it. -/
theorem getInner?_block :
    getInner? name (⟨.block, vs⟩ :: outer) = (vs.get? name).or (getInner? name outer) := by
  rw [getInner?]
  cases vs.get? name <;> rfl

/-- A variable is set in the scope of a block if that holds it, and behind it otherwise. -/
theorem setInner_block (value : Value) :
    setInner name value (⟨.block, vs⟩ :: outer) =
      if vs.holds name then ⟨.block, vs.set name value⟩ :: outer
      else ⟨.block, vs⟩ :: setInner name value outer := by
  rw [setInner, Variables.holds]
  cases vs.get? name <;> rfl

end Scopes

/-- A declaration only asks the innermost scope. -/
theorem Scopes.declare_cons {s : Scopes} {scope : Scope} {outer : List Scope} {v : Variable}
    (h : s.inner = scope :: outer) :
    s.declare v =
      if scope.bindings.holds v.name then .error (.duplicateVariable v.name)
      else .ok { s with inner := { scope with bindings := v :: scope.bindings } :: outer } := by
  rw [Scopes.declare, Scopes.declares, h]
  rfl

/-- The scopes of two runs, innermost first. In the scope of a block the second run has a variable
`y` where the first one has `x`. The list tells of each block opened since whether its scope
holds an `x`. -/
inductive RenamedScopes (x y : String) : List Bool → List Scope → List Scope → Prop
  | here {vs : Variables} (outer : List Scope) (hx : vs.holds x = true)
      (hy : vs.holds y = false) :
      RenamedScopes x y [] (⟨.block, vs⟩ :: outer) (⟨.block, vs.rename x y⟩ :: outer)
  | inside {shadows : List Bool} {scopes scopes' : List Scope} {vs : Variables}
      (hy : vs.holds y = false) (h : RenamedScopes x y shadows scopes scopes') :
      RenamedScopes x y (vs.holds x :: shadows) (⟨.block, vs⟩ :: scopes)
        (⟨.block, vs⟩ :: scopes')

/-- What a further variable changes about which scopes hold an `x`. -/
def shadowedBy (isShadow : Bool) : List Bool → List Bool
  | [] => []
  | shadow :: shadows => (isShadow || shadow) :: shadows

namespace RenamedScopes

variable {x y name : String} {shadows : List Bool} {scopes scopes' : List Scope}

/-- A name that the scope with the renamed variable does not hold is another one. -/
theorem ne_of_holds {vs : Variables} (hx : vs.holds x = true) (hname : vs.holds name = false) :
    name ≠ x := by
  rintro rfl
  rw [hx] at hname
  cases hname

/-- **Both runs find the same content**, the one under the name and the other under the renamed one.
-/
theorem content_getInner? (h : RenamedScopes x y shadows scopes scopes') (hname : name ≠ y) :
    (Scopes.getInner? (nameIn x y shadows name) scopes').map Variable.content =
      (Scopes.getInner? name scopes).map Variable.content := by
  -- on the scopes opened since: in each of them, and at last in that of the variable, the name is
  -- held or passed on
  induction h with
  | @here vs outer hx hy =>
    rw [nameIn_nil, Scopes.getInner?_block, Scopes.getInner?_block, Option.map_or, Option.map_or,
      Variables.content_get?_rename hy hname]
    cases hv : vs.get? name with
    | some v => rfl
    | none =>
      -- not held there, so it is not the renamed name, and the scopes behind are the same
      have hvs : vs.holds name = false := congrArg Option.isSome hv
      rw [newName_of_ne y (ne_of_holds hx hvs)]
  | @inside shadows scopes scopes' vs hy h ih =>
    rw [Scopes.getInner?_block, Scopes.getInner?_block, Option.map_or, Option.map_or,
      get?_nameIn hy]
    cases hv : vs.get? name with
    | some v => rfl
    | none => rw [nameIn_cons (congrArg Option.isSome hv), ih]

/-- A name that is renamed is found. -/
theorem nameIn_of_none (h : RenamedScopes x y shadows scopes scopes')
    (hname : Scopes.getInner? name scopes = none) : nameIn x y shadows name = name := by
  induction h with
  | @here vs outer hx hy =>
    rw [Scopes.getInner?_block, Option.or_eq_none_iff] at hname
    exact nameIn_of_ne (ne_of_holds hx (congrArg Option.isSome hname.1))
  | @inside shadows scopes scopes' vs hy h ih =>
    rw [Scopes.getInner?_block, Option.or_eq_none_iff] at hname
    rw [nameIn_cons (congrArg Option.isSome hname.1), ih hname.2]

/-- A new value under the name and under the renamed name keeps the scopes related. -/
theorem setInner (h : RenamedScopes x y shadows scopes scopes') (hname : name ≠ y)
    (value : Value) :
    RenamedScopes x y shadows (Scopes.setInner name value scopes)
      (Scopes.setInner (nameIn x y shadows name) value scopes') := by
  -- on the scopes opened since; the one that holds the name is the same one in both runs
  induction h with
  | @here vs outer hx hy =>
    rw [nameIn_nil, Scopes.setInner_block, Scopes.setInner_block, Variables.holds_rename hy hname]
    cases hv : vs.holds name with
    | true =>
      rw [if_pos rfl, if_pos rfl, Variables.set_rename hy hname]
      refine here outer ?_ ?_
      · rw [Variables.holds_set, hx]
      · rw [Variables.holds_set, hy]
    | false =>
      rw [newName_of_ne y (ne_of_holds hx hv)]
      exact here _ hx hy
  | @inside shadows scopes scopes' vs hy h ih =>
    rw [Scopes.setInner_block, Scopes.setInner_block]
    -- an inner scope holds both names or neither, since it has no `y`
    have hholds : vs.holds (nameIn x y (vs.holds x :: shadows) name) = vs.holds name :=
      congrArg Option.isSome (get?_nameIn hy)
    rw [hholds]
    cases hv : vs.holds name with
    | true =>
      rw [nameIn_of_holds hv, if_pos rfl, if_pos rfl, ← vs.holds_set name x value]
      exact inside ((vs.holds_set name y value).trans hy) h
    | false =>
      rw [nameIn_cons hv]
      exact inside hy ih

/-- Without the innermost scope they are related with one shadow less. -/
theorem tail {shadow : Bool} (h : RenamedScopes x y (shadow :: shadows) scopes scopes') :
    RenamedScopes x y shadows scopes.tail scopes'.tail := by
  cases h with
  | inside hy h => exact h

theorem tail_eq (h : RenamedScopes x y [] scopes scopes') : scopes.tail = scopes'.tail := by
  cases h with
  | here outer hx hy => rfl

/-- A variable that is not called `y` may be added to the innermost scope. The scope whose variable
was renamed is not to get another `x`. -/
theorem declare (h : RenamedScopes x y shadows scopes scopes') {v : Variable}
    (hy : v.name ≠ y) (hx : shadows = [] → v.name ≠ x) :
    ∃ vs vs' outer outer', scopes = ⟨.block, vs⟩ :: outer ∧ scopes' = ⟨.block, vs'⟩ :: outer' ∧
      vs'.holds v.name = vs.holds v.name ∧
      RenamedScopes x y (shadowedBy (decide (v.name = x)) shadows)
        (⟨.block, v :: vs⟩ :: outer) (⟨.block, v :: vs'⟩ :: outer') := by
  -- the new name stays unused in the scope that gets the variable
  have hcons : ∀ vs : Variables, vs.holds y = false → Variables.holds (v :: vs) y = false := by
    intro vs hvs
    rw [Variables.holds_cons, hvs, decide_eq_false hy, Bool.or_self]
  cases h with
  | @here vs outer hx' hy' =>
    have hname := newName_of_ne y (hx rfl)
    refine ⟨vs, _, outer, outer, rfl, rfl, ?_, ?_⟩
    · rw [← Variables.holds_rename hy' hy, hname]
    · have hrename : Variables.rename x y (v :: vs) = v :: vs.rename x y := by
        rw [Variables.rename, List.map_cons, hname, Variables.rename]
      rw [← hrename]
      refine here outer ?_ (hcons vs hy')
      rw [Variables.holds_cons, hx', Bool.or_true]
  | @inside shadows scopes scopes' vs hy' h =>
    refine ⟨vs, vs, scopes, scopes', rfl, rfl, rfl, ?_⟩
    rw [shadowedBy, ← Variables.holds_cons]
    exact inside (hcons vs hy') h

end RenamedScopes

-- ---------------------------------------------------------------------------
-- States
-- ---------------------------------------------------------------------------

/-- States are equal if their globals, depth and streams are, and their inner scopes. -/
theorem State.eq_of_globalOnly_eq {s t : State} (h : s.globalOnly = t.globalOnly)
    (hinner : s.scopes.inner = t.scopes.inner) : s = t := by
  obtain ⟨⟨inner, globals⟩, depth, streams⟩ := s
  obtain ⟨⟨inner', globals'⟩, depth', streams'⟩ := t
  obtain ⟨rfl, rfl, rfl⟩ := State.globalOnly_eq_iff.mp h
  obtain rfl : inner = inner' := hinner
  rfl

/-- The states of two runs that differ in the scopes of blocks only, as `RenamedScopes` says. -/
structure Renamed (x y : String) (shadows : List Bool) (s t : State) : Prop where
  scopes : RenamedScopes x y shadows s.scopes.inner t.scopes.inner
  common : s.globalOnly = t.globalOnly

namespace Renamed

open NullScript.State (globalOnly_eq_iff)

variable {x y name : String} {shadow : Bool} {shadows : List Bool} {s t : State}

theorem depth_eq (h : Renamed x y shadows s t) : s.depth = t.depth :=
  (globalOnly_eq_iff.mp h.common).2.1

theorem streams_eq (h : Renamed x y shadows s t) : s.streams = t.streams :=
  (globalOnly_eq_iff.mp h.common).2.2

/-- Both streams may change in the same way. -/
theorem withStreams (h : Renamed x y shadows s t) (streams : Streams) :
    Renamed x y shadows { s with streams } { t with streams } := by
  obtain ⟨hglobals, hdepth, -⟩ := globalOnly_eq_iff.mp h.common
  exact ⟨h.scopes, globalOnly_eq_iff.mpr ⟨hglobals, hdepth, rfl⟩⟩

/-- The inner scopes of both runs may change if they stay related. -/
theorem withScopes (h : Renamed x y shadows s t) {shadows' : List Bool} {inner inner' : List Scope}
    (hinner : RenamedScopes x y shadows' inner inner') :
    Renamed x y shadows' { s with scopes := { s.scopes with inner } }
      { t with scopes := { t.scopes with inner := inner' } } := by
  obtain ⟨hglobals, hdepth, hstreams⟩ := globalOnly_eq_iff.mp h.common
  exact ⟨hinner, globalOnly_eq_iff.mpr ⟨hglobals, hdepth, hstreams⟩⟩

/-- A name that stands for nothing is not renamed. Otherwise the name and the renamed name stand
for variables that differ in the name at most. -/
theorem get?_cases (h : Renamed x y shadows s t) (hname : name ≠ y) :
    (s.scopes.get? name = none ∧ t.scopes.get? name = none ∧ nameIn x y shadows name = name) ∨
      ∃ v name', s.scopes.get? name = some v ∧
        t.scopes.get? (nameIn x y shadows name) = some { v with name := name' } := by
  obtain ⟨hglobals, -, -⟩ := globalOnly_eq_iff.mp h.common
  -- the inner scopes first, and then the globals, which the runs share
  have hcontent : (t.scopes.get? (nameIn x y shadows name)).map Variable.content =
      (s.scopes.get? name).map Variable.content := by
    rw [Scopes.get?, Scopes.get?, Option.map_or, Option.map_or,
      h.scopes.content_getInner? hname, ← hglobals]
    cases hinner : Scopes.getInner? name s.scopes.inner with
    | some v => rfl
    | none => rw [h.scopes.nameIn_of_none hinner]
  cases hs : s.scopes.get? name with
  -- found nowhere, so the name is not the renamed one and stays as it is
  | none =>
    have hnew := h.scopes.nameIn_of_none (Option.or_eq_none_iff.mp hs).1
    rw [hs, hnew] at hcontent
    exact .inl ⟨rfl, Option.map_eq_none_iff.mp hcontent, hnew⟩
  | some v =>
    rw [hs] at hcontent
    obtain ⟨⟨name', type, isConst, value⟩, ht, hw⟩ := Option.map_eq_some_iff.mp hcontent
    obtain ⟨rfl, rfl, rfl⟩ : type = v.type ∧ isConst = v.isConst ∧ value = v.value := by
      simpa [Variable.content] using hw
    exact .inr ⟨v, name', rfl, ht⟩

/-- A new value under the name and under the renamed name keeps the runs related. -/
theorem set (h : Renamed x y shadows s t) (hname : name ≠ y) (value : Value) :
    Renamed x y shadows { s with scopes := s.scopes.set name value }
      { t with scopes := t.scopes.set (nameIn x y shadows name) value } := by
  have hinner := h.scopes.content_getInner? hname
  unfold Scopes.set
  -- both runs set an inner variable, or both a global one, which is not renamed
  cases hs : Scopes.getInner? name s.scopes.inner with
  | some v =>
    rw [hs] at hinner
    obtain ⟨w, ht, -⟩ := Option.map_eq_some_iff.mp hinner
    rw [ht]
    exact h.withScopes (h.scopes.setInner hname value)
  | none =>
    rw [hs] at hinner
    rw [Option.map_eq_none_iff.mp hinner, h.scopes.nameIn_of_none hs]
    obtain ⟨hglobals, hdepth, hstreams⟩ := globalOnly_eq_iff.mp h.common
    exact ⟨h.scopes, globalOnly_eq_iff.mpr
      ⟨congrArg (fun globals => Variables.set name value globals) hglobals, hdepth, hstreams⟩⟩

/-- A declaration fails in both runs, or adds the variable in both. -/
theorem declare (h : Renamed x y shadows s t) {v : Variable} (hy : v.name ≠ y)
    (hx : shadows = [] → v.name ≠ x) :
    (∃ e, s.scopes.declare v = .error e ∧ t.scopes.declare v = .error e) ∨
      ∃ scopes scopes', s.scopes.declare v = .ok scopes ∧ t.scopes.declare v = .ok scopes' ∧
        Renamed x y (shadowedBy (decide (v.name = x)) shadows) { s with scopes }
          { t with scopes := scopes' } := by
  obtain ⟨vs, vs', outer, outer', hs, ht, hholds, hinner⟩ := h.scopes.declare hy hx
  rw [Scopes.declare_cons hs, Scopes.declare_cons ht, hholds]
  cases hv : vs.holds v.name with
  | true => exact .inl ⟨_, rfl, rfl⟩
  | false => exact .inr ⟨_, _, rfl, rfl, h.withScopes hinner⟩

theorem enterBlock (h : Renamed x y shadows s t) :
    Renamed x y (false :: shadows) s.enterBlock t.enterBlock :=
  h.withScopes (@RenamedScopes.inside x y shadows _ _ [] rfl h.scopes)

theorem leaveBlock (h : Renamed x y (shadow :: shadows) s t) :
    Renamed x y shadows s.leaveBlock t.leaveBlock :=
  h.withScopes h.scopes.tail

/-- Behind the block whose variable was renamed the two runs are in the same state. -/
theorem leaveBlock_eq (h : Renamed x y [] s t) : s.leaveBlock = t.leaveBlock :=
  State.eq_of_globalOnly_eq h.common h.scopes.tail_eq

end Renamed

-- ---------------------------------------------------------------------------
-- Calls
-- ---------------------------------------------------------------------------

section

variable {x y : String} {shadows : List Bool}

open NullScript.Action (Follows)

/-- Built-in functions do the same in both runs. -/
theorem abreast_renamed {excused : Option Failure → Prop} :
    Abreast excused (Renamed x y shadows) where
  run := fun b vs => follows_onStreams (fun _ _ h => h.streams_eq)
    (fun _ _ streams h => h.withStreams streams) (b.run vs)
  depth := fun _ _ h => h.depth_eq

/-- A call of a function sees neither the variable nor its new name. -/
theorem follows_callFunction_renamed (setting : Setting) (steps : Nat) (f : Function)
    (vs : List Value) :
    Follows (fun _ => False) (Renamed x y shadows)
      (callFunction setting (execute setting steps) f vs)
      (callFunction setting (execute setting steps) f vs) := by
  intro s t h
  -- a call only depends on what the two states share, and gives the scopes back as they were
  refine (matches_callFunction setting steps f vs h.common).imp ?_
  rintro s' t' ⟨hcommon, hs, ht⟩
  refine ⟨?_, hcommon⟩
  rw [hs, ht]
  exact h.scopes

end

end NullScript
