import NullScript.Proofs.RenamedRuns
import NullScript.Proofs.ScopeDiscipline

/-!
# NullScript — the names of local variables do not matter

Up to the declaration of its variable a block does the same under both names, in the same state. The
declaration is where the two states part, and the end of the block is where they meet again.

* `renamed_local_agrees` — a block and the block with a variable of its own renamed end in the same
  way and leave the same state.
-/

namespace NullScript

variable {α : Type}

-- ---------------------------------------------------------------------------
-- Before the declaration
-- ---------------------------------------------------------------------------

/-- The innermost scope is one of a block and holds no variable of the name. -/
def Frame.Clear (name : String) (frame : Frame) : Prop :=
  ∃ slots outer, frame.scopes = (some .block, slots) :: outer ∧ ∀ slot ∈ slots, slot.name ≠ name

section

variable {name : String} {s : State}

theorem State.clear_enterBlock (s : State) : s.enterBlock.frame.Clear name :=
  ⟨[], _, rfl, List.forall_mem_nil _⟩

/-- A statement that does not declare the name leaves the innermost scope without it. -/
theorem Frame.Clear.extends {before after : Frame} (h : before.Clear name) {st : Statement}
    (hst : st.declaresName name = false) (hafter : st.Extends before after) :
    after.Clear name := by
  rcases hafter with rfl | ⟨v, ⟨value, rfl⟩, rfl⟩
  · exact h
  · -- the innermost scope has one more variable, and it has another name
    obtain ⟨slots, outer, hscopes, hslots⟩ := h
    refine ⟨v.slot :: slots, outer, ?_, List.forall_mem_cons.mpr ⟨?_, hslots⟩⟩
    · rw [Frame.declare, hscopes, Outline.declare]
    · exact of_decide_eq_false hst

/-- A name that the innermost scope does not hold, in terms of that scope. -/
theorem Frame.Clear.scope (h : s.frame.Clear name) :
    ∃ vs outer, s.scopes.inner = ⟨.block, vs⟩ :: outer ∧ vs.holds name = false := by
  obtain ⟨slots, outline, hscopes, hslots⟩ := h
  -- the outline of the scopes tells the kind and the names of the innermost one
  cases hinner : s.scopes.inner with
  | nil =>
    rw [State.frame, Scopes.outline, hinner] at hscopes
    cases hscopes
  | cons scope outer =>
    obtain ⟨kind, vs⟩ := scope
    rw [State.frame, Scopes.outline, hinner] at hscopes
    obtain ⟨hscope, -⟩ := List.cons.inj hscopes
    simp only [Scope.outline, Prod.mk.injEq, Option.some.injEq] at hscope
    obtain ⟨rfl, rfl⟩ := hscope
    refine ⟨vs, outer, rfl, ?_⟩
    have hnone : vs.get? name = none := by
      rw [Variables.get?, List.find?_eq_none]
      intro v hv
      have hname : v.name ≠ name := hslots v.slot (List.mem_map_of_mem hv)
      simpa using hname
    rw [Variables.holds, hnone]
    rfl

end

/-- Both runs are in the same state, before the variable is declared. -/
def Undeclared (x y : String) (s t : State) : Prop :=
  t = s ∧ s.frame.Clear x ∧ s.frame.Clear y

section

open NullScript.Action (Corresponds Keeps)

variable {x y : String}

/-- What leaves the innermost scope without the two names does the same in both runs. -/
theorem corresponds_undeclared {m : Action α}
    (hm : Keeps True (fun s => s.frame.Clear x ∧ s.frame.Clear y) (fun _ => True) m) :
    Corresponds (Failure.UpTo x y) (Undeclared x y) (Undeclared x y) (Undeclared x y) m m := by
  rintro s t ⟨rfl, hs⟩
  have h := hm t hs
  -- the action is the same, and so is the state
  cases hr : m t with
  | unfinished => exact rfl
  | failed e t' =>
    rw [hr] at h
    exact ⟨e, t', rfl, .inl rfl, rfl, h⟩
  | done a t' =>
    rw [hr] at h
    exact ⟨t', rfl, rfl, h.1⟩

-- ---------------------------------------------------------------------------
-- The declaration
-- ---------------------------------------------------------------------------

/-- Declared under either name, a variable leaves states that differ in the name only, or fails for
the same reason. -/
theorem corresponds_declareVariable_undeclared (hxy : x ≠ y) (type : Ty) (isConst : Bool)
    (value : Value) :
    Corresponds (Failure.UpTo x y) (Undeclared x y) (Renamed x y []) (Undeclared x y)
      (declareVariable ⟨x, type, isConst, value⟩) (declareVariable ⟨y, type, isConst, value⟩) := by
  rintro s t ⟨rfl, hx, hy⟩
  rw [declareVariable_apply, declareVariable_apply]
  dsimp only
  split
  · obtain ⟨vs, outer, hinner, hvx⟩ := hx.scope
    obtain ⟨vs', outer', hinner', hvy⟩ := hy.scope
    rw [hinner] at hinner'
    cases hinner'
    -- neither name is taken in the innermost scope, so both declarations succeed
    rw [Scopes.declare_cons hinner, Scopes.declare_cons hinner, hvx, hvy]
    refine ⟨_, rfl, ?_, rfl⟩
    -- the scope with `y` is the renamed scope with `x`
    have hrename : (⟨y, type, isConst, value⟩ :: vs : Variables) =
        Variables.rename x y (⟨x, type, isConst, value⟩ :: vs) := by
      rw [Variables.rename, List.map_cons, newName, if_pos rfl]
      exact congrArg _ (Variables.rename_of_not_holds y hvx).symm
    dsimp only
    rw [hrename]
    refine .here outer ?_ ?_
    · rw [Variables.holds_cons, decide_eq_true rfl, Bool.true_or]
    · rw [Variables.holds_cons, hvy, Bool.or_false, decide_eq_false hxy]
  · -- the value does not have the type, and no name is given
    exact ⟨_, t, rfl, .inl rfl, rfl, hx, hy⟩

/-- The declaration of the variable itself. Its initial value does not mean the variable. -/
theorem corresponds_declare_local (hxy : x ≠ y) (setting : Setting) (steps : Nat) (isConst : Bool)
    (type : Ty) (value : Option Expr) :
    Corresponds (Failure.UpTo x y) (Undeclared x y) (Renamed x y []) (Undeclared x y)
      (execute setting steps (.declare isConst x type value))
      (execute setting steps (.declare isConst y type value)) := by
  cases steps with
  | zero => exact fun _ _ _ => rfl
  | succ steps =>
    rw [execute_succ, execute_succ]
    cases value with
    -- the initial value is evaluated in the same state, before there is a variable
    | none => exact corresponds_declareVariable_undeclared hxy type isConst .void
    | some e =>
      have hkeeps : Keeps True (fun s => s.frame.Clear x ∧ s.frame.Clear y) (fun _ => True)
          (evaluate setting steps e) :=
        ((keeps_frame setting steps).1 e).keeps fun frame => frame.Clear x ∧ frame.Clear y
      exact (corresponds_undeclared hkeeps).bind fun v =>
        corresponds_declareVariable_undeclared hxy type isConst v

-- ---------------------------------------------------------------------------
-- Blocks
-- ---------------------------------------------------------------------------

/-- The statements of a block, from where the variable is not declared yet. -/
theorem corresponds_executeAll_renameLocal (setting : Setting) (steps : Nat)
    {body : List Statement} (hx : body.countP (·.declaresName x) = 1) (hy : y ∉ varsOf body) :
    Corresponds (Failure.UpTo x y) (Undeclared x y) (fun s t => s.leaveBlock = t.leaveBlock)
      (fun s t => s.leaveBlock = t.leaveBlock) (executeAll (execute setting steps) body)
      (executeAll (execute setting steps) (renameLocal x y body)) := by
  have hsame : ∀ s t, Undeclared x y s t → s.leaveBlock = t.leaveBlock :=
    fun s t h => congrArg State.leaveBlock h.1.symm
  -- on the statements before the declaration, which do not use the name `y`
  induction body with
  | nil => cases hx
  | cons st rest ih =>
    have hrest : y ∉ varsOf rest := fun h => hy (List.mem_append_right _ h)
    have hst : y ∉ st.vars := not_mem_vars_of_mem hy List.mem_cons_self
    rw [List.countP_cons] at hx
    cases hdeclares : st.declaresName x with
    | true =>
      obtain ⟨isConst, type, value, rfl⟩ := Statement.eq_declare_of_declaresName hdeclares
      have hxy : x ≠ y := ne_of_mem_of_not_mem List.mem_cons_self hst
      -- it was the only declaration of the name in the block itself
      rw [hdeclares, if_pos rfl, Nat.add_eq_right, List.countP_eq_zero] at hx
      rw [renameLocal, if_pos rfl, executeAll, executeAll]
      refine ((corresponds_declare_local hxy setting steps isConst type value).imp
        (fun _ _ h => h) hsame).bind ?_
      intro flow
      cases flow with
      | next =>
        -- behind the declaration the two runs differ in the name
        have hall := corresponds_executeAll_renamed (sameRenamed_execute setting steps) []
          hrest fun _ st' hst' => Bool.eq_false_iff.mpr (hx st' hst')
        exact hall.imp (fun _ _ h => h.leaveBlock_eq) fun _ _ h => h.leaveBlock_eq
      | returned v =>
        exact (Action.corresponds_pure _).imp (fun _ _ h => h.leaveBlock_eq) fun _ _ h => h
    | false =>
      -- the declaration is among the statements behind
      rw [hdeclares, if_neg Bool.false_ne_true, Nat.add_zero] at hx
      have hname : st.declaresName y = false := Statement.declaresName_of_not_mem_vars hst
      have hkeeps : Keeps True (fun s => s.frame.Clear x ∧ s.frame.Clear y) (fun _ => True)
          (execute setting steps st) :=
        Action.keeps_of_leaves fun s hs => ((keeps_frame setting steps).2 st s).imp
          fun t ht => ⟨hs.1.extends hdeclares ht, hs.2.extends hname ht⟩
      rw [renameLocal_cons x y hdeclares, executeAll, executeAll]
      refine ((corresponds_undeclared hkeeps).imp (fun _ _ h => h) hsame).bind ?_
      intro flow
      cases flow with
      | next => exact ih hx hrest
      | returned v => exact (Action.corresponds_pure _).imp hsame fun _ _ h => h

/-- **The names of local variables do not matter.** Let a block declare a variable `x` once in its
own scope, and whatever it likes in the blocks inside of it, and let `y` be a name that does not
occur in it. With its variable renamed the block declares `y` instead of `x`, and ends in the same
way from every state: both runs are cut short by the bound on the steps, give the same value, or
fail for the same reason, save that a failed assignment to the variable gives its name. They leave
the same scopes, streams and number of calls in progress. -/
theorem renamed_local_agrees {body : List Statement} (hx : body.countP (·.declaresName x) = 1)
    (hy : y ∉ varsOf body) :
    (renameLocal x y body).countP (·.declaresName x) = 0 ∧
    (renameLocal x y body).countP (·.declaresName y) = 1 ∧
    ∀ (setting : Setting) (steps : Nat) (s : State),
      (executeBlock (execute setting steps) body s).Corresponds (Failure.UpTo x y) Eq Eq
        (executeBlock (execute setting steps) (renameLocal x y body) s) := by
  obtain ⟨hcountx, hcounty⟩ := countP_declaresName_renameLocal hx hy
  refine ⟨hcountx, hcounty, fun setting steps s => ?_⟩
  -- both blocks are opened in the same state, and closed where the states meet
  exact (corresponds_executeAll_renameLocal setting steps hx hy).between
    (fun s _ h => ⟨congrArg State.enterBlock h.symm, s.clear_enterBlock, s.clear_enterBlock⟩)
    (fun _ _ h => h) (fun _ _ h => h) s s rfl

/-- A block in which `n` is a parameter first, then a constant of the block, and then a variable of
a block inside of it. -/
def shadowing : List Statement :=
  [.perform (.call "addBase" [.identifier "n"]),
    .declare true "n" .int (some (.identifier "n")),
    .branch (.literal (.bool true))
      [.perform (.identifier "n"),
        .declare false "n" .int (some (.identifier "n")),
        .assign (.identifier "n") (.literal (.int 7))] none,
    .assign (.identifier "n") (.literal (.int 8))]

/-- The parameter and the variable of the inner block keep their name. The last assignment fails. -/
theorem renamed_local_agrees_shadowing :
    shadowing.countP (·.declaresName "n") = 1 ∧ "m" ∉ varsOf shadowing ∧
    (executeBlock (execute ⟨[.addBase], 2⟩ 9) shadowing Session.midCall.state).Corresponds
      (Failure.UpTo "n" "m") Eq Eq
      (executeBlock (execute ⟨[.addBase], 2⟩ 9)
        [.perform (.call "addBase" [.identifier "n"]),
          .declare true "m" .int (some (.identifier "n")),
          .branch (.literal (.bool true))
            [.perform (.identifier "m"),
              .declare false "n" .int (some (.identifier "m")),
              .assign (.identifier "n") (.literal (.int 7))] none,
          .assign (.identifier "m") (.literal (.int 8))]
        Session.midCall.state) :=
  ⟨by decide, by decide,
    (@renamed_local_agrees "n" "m" shadowing (by decide) (by decide)).2.2 _ 9 _⟩

end

end NullScript
