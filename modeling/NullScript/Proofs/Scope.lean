import NullScript.Proofs.Reachable

/-!
# NullScript — what the operations on scopes change

* `Scopes.live` — all variables that are alive. The lemmas on `∈` say which ones there are
  after a scope was opened or closed, a variable declared, or a value stored.
* `Scopes.outline` — the open scopes without the values that may change: their kinds, and of each
  variable the name, the type, whether it is constant, and the value if it is. The kind of a scope
  says where a search goes on that does not find a name in it, so an equal outline means that the
  scopes are linked in the same way.
-/

namespace NullScript

-- ---------------------------------------------------------------------------
-- Live variables
-- ---------------------------------------------------------------------------

namespace Variables

theorem mem_of_get? {vs : Variables} {name : String} {x : Variable} (h : vs.get? name = some x) :
    x ∈ vs :=
  List.mem_of_find?_eq_some h

theorem get?_cons (v : Variable) (vs : Variables) (name : String) :
    get? (v :: vs) name = if v.name = name then some v else vs.get? name := by
  unfold get?
  rw [List.find?_cons]
  by_cases h : v.name = name <;> simp [h]

/-- Storing a value changes the variable that the name is looked up to, and no other. -/
theorem mem_set {vs : Variables} {name : String} {value : Value} {y : Variable}
    (hy : y ∈ vs.set name value) :
    y ∈ vs ∨ ∃ x, vs.get? name = some x ∧ y = { x with value } := by
  induction vs with
  | nil => exact .inl hy
  | cons v vs ih =>
    rw [get?_cons]
    unfold set at hy
    -- the first variable of the name gets the value, and the others stay
    split at hy
    · rename_i h
      rcases List.mem_cons.mp hy with rfl | hy
      · exact .inr ⟨v, if_pos h, rfl⟩
      · exact .inl (List.mem_cons_of_mem _ hy)
    · rename_i h
      rw [if_neg h]
      rcases List.mem_cons.mp hy with rfl | hy
      · exact .inl List.mem_cons_self
      · exact (ih hy).imp_left (List.mem_cons_of_mem _)

/-- No variables are made up for a scope; of those with one name only one is kept. -/
theorem mem_of_mem_ofList {vs : List Variable} {y : Variable} (hy : y ∈ ofList vs) : y ∈ vs := by
  induction vs with
  | nil => exact hy
  | cons v vs ih =>
    unfold ofList at hy
    split at hy
    · exact List.mem_cons_of_mem _ (ih hy)
    · rcases List.mem_cons.mp hy with rfl | hy
      · exact List.mem_cons_self
      · exact List.mem_cons_of_mem _ (ih hy)

end Variables

namespace Scopes

/-- The variables of all open scopes. -/
def live (s : Scopes) : List Variable := s.inner.flatMap Scope.bindings ++ s.globals

theorem mem_live {s : Scopes} {y : Variable} :
    y ∈ s.live ↔ (∃ scope ∈ s.inner, y ∈ scope.bindings) ∨ y ∈ s.globals := by
  simp [live]

/-- What is looked up in the inner scopes is in one of them. -/
theorem mem_of_getInner? {name : String} {scopes : List Scope} {x : Variable}
    (h : getInner? name scopes = some x) : ∃ scope ∈ scopes, x ∈ scope.bindings := by
  induction scopes with
  | nil => cases h
  | cons scope outer ih =>
    unfold getInner? at h
    split at h
    · rename_i hx
      cases h
      exact ⟨scope, List.mem_cons_self, Variables.mem_of_get? hx⟩
    · obtain ⟨scope', hmem, hx⟩ := ih h
      exact ⟨scope', List.mem_cons_of_mem _ hmem, hx⟩
    · cases h

/-- **What is looked up is alive.** -/
theorem mem_live_of_get? {s : Scopes} {name : String} {x : Variable}
    (h : s.get? name = some x) : x ∈ s.live := by
  rw [mem_live]
  unfold get? at h
  rcases Option.or_eq_some_iff.mp h with h | ⟨-, h⟩
  · exact .inl (mem_of_getInner? h)
  · exact .inr (Variables.mem_of_get? h)

/-- Storing a value in the inner scopes changes the variable that is found, and no other. -/
theorem mem_setInner {name : String} {value : Value} {scopes : List Scope} {scope : Scope}
    {y : Variable} (hscope : scope ∈ setInner name value scopes) (hy : y ∈ scope.bindings) :
    (∃ scope ∈ scopes, y ∈ scope.bindings) ∨
      ∃ x, getInner? name scopes = some x ∧ y = { x with value } := by
  -- on the scopes; the search goes on behind the scope of a block, and stops at that of a call
  induction scopes with
  | nil => cases hscope
  | cons first outer ih =>
    unfold setInner at hscope
    unfold getInner?
    split at hscope
    · rename_i x hx
      rcases List.mem_cons.mp hscope with rfl | hscope
      · rcases Variables.mem_set hy with hy | ⟨x', hx', rfl⟩
        · exact .inl ⟨first, List.mem_cons_self, hy⟩
        · rw [hx] at hx'
          exact .inr ⟨x', hx', rfl⟩
      · exact .inl ⟨scope, List.mem_cons_of_mem _ hscope, hy⟩
    · rcases List.mem_cons.mp hscope with rfl | hscope
      · exact .inl ⟨scope, List.mem_cons_self, hy⟩
      · refine (ih hscope).imp_left ?_
        rintro ⟨scope', hmem, hy'⟩
        exact ⟨scope', List.mem_cons_of_mem _ hmem, hy'⟩
    · exact .inl ⟨scope, hscope, hy⟩

/-- **Storing a value** changes the variable that is found, and no other. -/
theorem mem_live_set {s : Scopes} {name : String} {value : Value} {y : Variable}
    (hy : y ∈ (s.set name value).live) :
    y ∈ s.live ∨ ∃ x, s.get? name = some x ∧ y = { x with value } := by
  rw [mem_live] at hy ⊢
  unfold set at hy
  unfold get?
  cases hx : getInner? name s.inner with
  | some x =>
    rw [hx] at hy
    rcases hy with ⟨scope, hscope, hy⟩ | hy
    · rcases mem_setInner hscope hy with hy | ⟨x', hx', rfl⟩
      · exact .inl (.inl hy)
      · rw [hx] at hx'
        exact .inr ⟨x', by rw [Option.some_or, hx'], rfl⟩
    · exact .inl (.inr hy)
  | none =>
    rw [hx] at hy
    rcases hy with hy | hy
    · exact .inl (.inl hy)
    · rcases Variables.mem_set hy with hy | ⟨x', hx', rfl⟩
      · exact .inl (.inr hy)
      · exact .inr ⟨x', by rw [Option.none_or, hx'], rfl⟩

/-- **A declaration** adds the variable, and no other. -/
theorem mem_live_declare {s t : Scopes} {x y : Variable} (h : s.declare x = .ok t)
    (hy : y ∈ t.live) : y = x ∨ y ∈ s.live := by
  unfold declare at h
  split at h
  · cases h
  -- the innermost scope is the global one if no other is open
  · cases hinner : s.inner with
    | nil =>
      rw [hinner] at h
      cases h
      simpa [live, hinner] using hy
    | cons scope outer =>
      rw [hinner] at h
      cases h
      simpa [live, hinner, or_assoc] using hy

/-- **Entering a call** adds its parameters, and nothing else. -/
theorem mem_live_pushCall {s : Scopes} {parameters : List Variable} {y : Variable}
    (hy : y ∈ (s.pushCall parameters).live) : y ∈ parameters ∨ y ∈ s.live := by
  simp only [live, pushCall, List.flatMap_cons, List.append_assoc, List.mem_append] at hy ⊢
  exact hy.imp_left Variables.mem_of_mem_ofList

/-- **Leaving a scope** adds nothing. -/
theorem mem_live_pop {s : Scopes} {y : Variable} (hy : y ∈ s.pop.live) :
    y ∈ s.live := by
  rw [mem_live] at hy ⊢
  refine hy.imp_left ?_
  rintro ⟨scope, hscope, hy⟩
  exact ⟨scope, List.mem_of_mem_tail hscope, hy⟩

end Scopes

-- ---------------------------------------------------------------------------
-- Outlines
-- ---------------------------------------------------------------------------

/-- What stays as long as a variable lives. -/
structure Slot where
  name : String
  type : Ty
  isConst : Bool
  /-- The value, if the variable is constant. -/
  constant : Option Value
deriving DecidableEq

/-- What of a variable stays as long as it lives. -/
def Variable.slot (x : Variable) : Slot :=
  ⟨x.name, x.type, x.isConst, if x.isConst then some x.value else none⟩

theorem Variable.slot_store {x : Variable} (hx : x.isConst = false) (value : Value) :
    { x with value }.slot = x.slot := by
  simp [slot, hx]

theorem Variable.isConst_of_slot_eq {x y : Variable} (h : x.slot = y.slot) :
    x.isConst = y.isConst :=
  congrArg Slot.isConst h

/-- The open scopes, innermost first, without what may change in them. The global scope comes last
and is of no kind. -/
abbrev Outline := List (Option ScopeKind × List Slot)

/-- The outline with one more variable in the innermost scope. -/
def Outline.declare (o : Outline) (x : Slot) : Outline :=
  match o with
  | [] => []
  | (kind, slots) :: outer => (kind, x :: slots) :: outer

/-- The part of an outline that a scope contributes. -/
def Scope.outline (scope : Scope) : Option ScopeKind × List Slot :=
  (some scope.kind, scope.bindings.map Variable.slot)

/-- A further variable changes nothing about the kinds. -/
theorem Outline.kinds_declare (o : Outline) (x : Slot) :
    (o.declare x).filterMap Prod.fst = o.filterMap Prod.fst := by
  unfold declare
  cases o with
  | nil => rfl
  | cons scope outer => simp only [List.filterMap_cons]

namespace Variables

/-- Storing a value in a variable that is not constant leaves the slots as they are. -/
theorem map_slot_set {vs : Variables} {name : String} {x : Variable} (value : Value)
    (h : vs.get? name = some x) (hx : x.isConst = false) :
    (vs.set name value).map Variable.slot = vs.map Variable.slot := by
  induction vs with
  | nil => rfl
  | cons v vs ih =>
    rw [get?_cons] at h
    unfold set
    split at h
    · rename_i hname
      cases h
      rw [if_pos hname, List.map_cons, List.map_cons, Variable.slot_store hx]
    · rename_i hname
      rw [if_neg hname, List.map_cons, List.map_cons, ih h]

/-- The slots tell which variable a name is looked up to. -/
theorem map_slot_get? (vs : Variables) (name : String) :
    (vs.get? name).map Variable.slot = (vs.map Variable.slot).find? fun x => x.name = name := by
  rw [List.find?_map]
  rfl

end Variables

namespace Scopes

/-- The outline of the open scopes. -/
def outline (s : Scopes) : Outline :=
  s.inner.map Scope.outline ++ [(none, s.globals.map Variable.slot)]

/-- The outline is that of the inner scopes and the slots of the globals. -/
theorem outline_eq_iff {s t : Scopes} :
    s.outline = t.outline ↔ s.inner.map Scope.outline = t.inner.map Scope.outline ∧
      s.globals.map Variable.slot = t.globals.map Variable.slot := by
  unfold outline
  rw [List.append_singleton_inj, Prod.mk.injEq]
  simp

/-- What the scopes other than the global one were opened for, innermost first. -/
def kinds (s : Scopes) : List ScopeKind := s.inner.map Scope.kind

/-- For scopes of these kinds, the number of the scope in which a search goes on. Scopes are
counted from the outside, and the global one has the number zero. -/
def links : List ScopeKind → List Nat
  | [] => []
  | .block :: outer => outer.length :: links outer
  | .call :: outer => 0 :: links outer

/-- The number of the parent of each scope other than the global one, innermost first. -/
def parents (s : Scopes) : List Nat := links s.kinds

/-- A name that the innermost scope does not hold is searched from its parent on. -/
theorem get?_parent {s : Scopes} {scope : Scope} {outer : List Scope} {name : String} {p : Nat}
    (hinner : s.inner = scope :: outer) (hnone : scope.bindings.get? name = none)
    (hp : s.parents.head? = some p) :
    s.get? name = { s with inner := s.inner.drop (s.inner.length - p) }.get? name := by
  unfold parents kinds at hp
  rw [hinner, List.map_cons] at hp
  unfold get?
  rw [hinner, getInner?, hnone]
  -- behind a block come all scopes outside, and behind a call the global one alone
  cases hkind : scope.kind with
  | block =>
    rw [hkind] at hp
    cases hp
    simp
  | call =>
    rw [hkind] at hp
    cases hp
    simp [getInner?]

theorem kinds_outline (s : Scopes) : s.outline.filterMap Prod.fst = s.kinds := by
  simp [outline, kinds, Scope.outline, List.filterMap_map, Function.comp_def]

theorem length_kinds (s : Scopes) : s.kinds.length + 1 = s.depth := by
  simp [kinds, depth]

/-- **Leaving a scope** takes its part away from the outline. -/
theorem outline_pop {s : Scopes} {kind : ScopeKind} {slots : List Slot} {o : Outline}
    (h : s.outline = (some kind, slots) :: o) : s.pop.outline = o := by
  unfold outline at h
  cases hinner : s.inner with
  | nil =>
    rw [hinner] at h
    cases h
  | cons scope outer =>
    rw [hinner, List.map_cons, List.cons_append] at h
    unfold pop outline
    rw [hinner]
    exact (List.cons.inj h).2

/-- **A declaration** adds a slot to the innermost scope. -/
theorem outline_declare {s t : Scopes} {x : Variable} (h : s.declare x = .ok t) :
    t.outline = s.outline.declare x.slot := by
  unfold declare at h
  split at h
  · cases h
  · unfold outline
    cases hinner : s.inner with
    | nil =>
      rw [hinner] at h
      cases h
      rfl
    | cons scope outer =>
      rw [hinner] at h
      cases h
      rfl

/-- Storing a value in the inner scopes leaves their outline as it is. -/
theorem map_outline_setInner {name : String} {scopes : List Scope} {x : Variable} (value : Value)
    (h : getInner? name scopes = some x) (hx : x.isConst = false) :
    (setInner name value scopes).map Scope.outline = scopes.map Scope.outline := by
  induction scopes with
  | nil => rfl
  | cons scope outer ih =>
    unfold getInner? at h
    unfold setInner
    split at h
    · rename_i hget
      cases h
      simp only [List.map_cons, Scope.outline, Variables.map_slot_set value hget hx]
    · rw [List.map_cons, List.map_cons, ih h]
    · cases h

/-- Storing a value in a variable that is not constant leaves the outline as it is. -/
theorem outline_set {s : Scopes} {name : String} {x : Variable} (value : Value)
    (h : s.get? name = some x) (hx : x.isConst = false) :
    (s.set name value).outline = s.outline := by
  rw [outline_eq_iff]
  unfold get? at h
  unfold set
  cases hget : getInner? name s.inner with
  | some y =>
    rw [hget, Option.some_or] at h
    cases h
    exact ⟨map_outline_setInner value hget hx, rfl⟩
  | none =>
    rw [hget, Option.none_or] at h
    exact ⟨rfl, Variables.map_slot_set value h hx⟩

/-- What a name stands for in the inner scopes is seen in their outline. -/
theorem map_slot_getInner? {name : String} {scopes scopes' : List Scope}
    (h : scopes.map Scope.outline = scopes'.map Scope.outline) :
    (getInner? name scopes).map Variable.slot = (getInner? name scopes').map Variable.slot := by
  -- on both lists of scopes at once
  induction scopes generalizing scopes' with
  | nil =>
    cases scopes' with
    | nil => rfl
    | cons _ _ => cases h
  | cons scope outer ih =>
    cases scopes' with
    | nil => cases h
    | cons scope' outer' =>
      rw [List.map_cons, List.map_cons] at h
      obtain ⟨hscope, houter⟩ := List.cons.inj h
      simp only [Scope.outline, Prod.mk.injEq, Option.some.injEq] at hscope
      obtain ⟨hkind, hslots⟩ := hscope
      -- the two scopes hold the name or they do not, and with the same slot
      have hget : (scope.bindings.get? name).map Variable.slot =
          (scope'.bindings.get? name).map Variable.slot := by
        rw [Variables.map_slot_get?, Variables.map_slot_get?, hslots]
      unfold getInner?
      rw [hkind]
      cases hx : scope.bindings.get? name with
      | some x =>
        cases hx' : scope'.bindings.get? name with
        | some x' =>
          rw [hx, hx'] at hget
          exact hget
        | none =>
          rw [hx, hx'] at hget
          cases hget
      | none =>
        cases hx' : scope'.bindings.get? name with
        | some x' =>
          rw [hx, hx'] at hget
          cases hget
        | none =>
          -- not held, so the search goes on in both, or ends in both at a call
          cases scope'.kind with
          | block => exact ih houter
          | call => rfl

/-- What a name stands for is seen in the outline. -/
theorem map_slot_get? {s t : Scopes} (h : s.outline = t.outline) (name : String) :
    (s.get? name).map Variable.slot = (t.get? name).map Variable.slot := by
  rw [outline_eq_iff] at h
  unfold get?
  rw [Option.map_or, Option.map_or, map_slot_getInner? h.1, Variables.map_slot_get?,
    Variables.map_slot_get?, h.2]

end Scopes

end NullScript
