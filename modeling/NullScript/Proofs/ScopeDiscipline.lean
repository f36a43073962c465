import NullScript.Proofs.Scope

/-!
# NullScript — scope discipline

Scopes are opened and closed in pairs, however a block or a call ends, and variables are only added
to the innermost scope. `State.frame` is what running a part of a program gives back as it was:
the number of calls in progress and the outline of the open scopes.

* `frame_preserved` — evaluating an expression and executing a block leave the frame as it was. A
  statement does so too, except that a declaration may add one variable to the innermost scope.
  The variable that an assignment has found is still there when the value has been evaluated, and
  after a program only the global scope is open.
-/

namespace NullScript

/-- The number of calls in progress and the outline of the open scopes. -/
structure Frame where
  depth : Nat
  scopes : Outline
deriving DecidableEq

/-- The frame with one more variable in the innermost scope. -/
def Frame.declare (frame : Frame) (x : Variable) : Frame :=
  { frame with scopes := frame.scopes.declare x.slot }

/-- The frame with one more call in progress. -/
def Frame.call (frame : Frame) : Frame := { frame with depth := frame.depth + 1 }

namespace State

/-- What running a part of a program gives back as it was. -/
def frame (s : State) : Frame := ⟨s.depth, s.scopes.outline⟩

/-- The innermost scope is of a kind, and the rest of the frame is given. -/
def Inside (kind : Option ScopeKind) (rest : Frame) (s : State) : Prop :=
  ∃ slots, s.frame = ⟨rest.depth, (kind, slots) :: rest.scopes⟩

theorem inside_enterBlock (s : State) : s.enterBlock.Inside (some .block) s.frame :=
  ⟨[], rfl⟩

/-- Leaving the innermost scope gives back the rest of the frame. -/
theorem Inside.leaveBlock {s : State} {kind : ScopeKind} {rest : Frame}
    (h : s.Inside (some kind) rest) : s.leaveBlock.frame = rest := by
  obtain ⟨slots, h⟩ := h
  obtain ⟨hdepth, hscopes⟩ := Frame.mk.inj h
  have hpop : s.leaveBlock.scopes.outline = rest.scopes := Scopes.outline_pop hscopes
  rw [frame, hpop]
  exact congrArg (Frame.mk · rest.scopes) hdepth

theorem inside_enterCall (s : State) (parameters : List Variable) :
    (s.enterCall parameters).Inside (some .call) s.frame.call :=
  ⟨_, rfl⟩

/-- Leaving a call gives back the rest of the frame, with one call less. -/
theorem Inside.leaveCall {s : State} {rest : Frame} (h : s.Inside (some .call) rest.call) :
    s.leaveCall.frame = rest := by
  obtain ⟨slots, h⟩ := h
  obtain ⟨hdepth, hscopes⟩ := Frame.mk.inj h
  have hdepth' : s.leaveCall.depth = rest.depth := Nat.sub_eq_of_eq_add hdepth
  have hpop : s.leaveCall.scopes.outline = rest.scopes := Scopes.outline_pop hscopes
  rw [frame, hdepth', hpop]

/-- A declaration stays in the innermost scope. -/
theorem Inside.declare {s : State} {kind : Option ScopeKind} {rest : Frame} (h : s.Inside kind rest)
    {t : State} {x : Variable} (ht : t.frame = s.frame.declare x) : t.Inside kind rest := by
  obtain ⟨slots, h⟩ := h
  refine ⟨x.slot :: slots, ?_⟩
  rw [ht, h]
  rfl

end State

-- ---------------------------------------------------------------------------
-- Changes of variables
-- ---------------------------------------------------------------------------

variable {α : Type} {late : Prop}

/-- A declaration adds its variable to the frame, or is refused and leaves the frame as it was. -/
theorem ensures_declareVariable_frame (x : Variable) (s : State) :
    (declareVariable x s).Ensures late (fun _ t => t.frame = s.frame.declare x)
      fun _ t => t.frame = s.frame := by
  rw [declareVariable_apply]
  split
  · cases h : s.scopes.declare x with
    | error e => exact rfl
    | ok scopes => exact congrArg (Frame.mk s.depth) (Scopes.outline_declare h)
  · exact rfl

/-- Storing a value in a variable that is not constant leaves the frame as it was. -/
theorem ensures_storeValue_frame {name : String} {v : Value} {s : State}
    (h : ∀ x, s.scopes.get? name = some x → x.isConst = false) :
    (storeValue name v s).Ensures late (fun _ t => t.frame = s.frame)
      fun _ t => t.frame = s.frame := by
  rw [storeValue_apply]
  split
  · exact rfl
  · rename_i x hx
    split
    · exact congrArg (Frame.mk s.depth) (Scopes.outline_set v hx (h x hx))
    · exact rfl

/-- A name that stands for a variable stands for one with the same slot in every state with the
same frame. -/
theorem get?_of_frame_eq {s t : State} (h : t.frame = s.frame) {name : String} {x : Variable}
    (hx : s.scopes.get? name = some x) : ∃ y, t.scopes.get? name = some y ∧ y.slot = x.slot := by
  have hslot := Scopes.map_slot_get? (Frame.mk.inj h).2 name
  rw [hx] at hslot
  exact Option.map_eq_some_iff.mp hslot

-- ---------------------------------------------------------------------------
-- Statements, blocks and calls
-- ---------------------------------------------------------------------------

/-- The statement declares a variable with this name and type, and constant or not as this one. -/
def Statement.Declares (st : Statement) (x : Variable) : Prop :=
  ∃ value, st = .declare x.isConst x.name x.type value

/-- What a statement does to the frame: a declaration may add a variable, anything else leaves it
as it is. -/
def Statement.Extends (st : Statement) (before after : Frame) : Prop :=
  after = before ∨ ∃ x, st.Declares x ∧ after = before.declare x

/-- A statement stays in the innermost scope. -/
theorem State.Inside.extends {s t : State} {kind : Option ScopeKind} {rest : Frame}
    (h : s.Inside kind rest) {st : Statement} (ht : st.Extends s.frame t.frame) :
    t.Inside kind rest := by
  rcases ht with ht | ⟨x, -, ht⟩
  · obtain ⟨slots, h⟩ := h
    exact ⟨slots, ht.trans h⟩
  · exact h.declare ht

/-- However the action ends, the frame is afterwards what it was. -/
abbrev Action.KeepsFrame (m : Action α) : Prop :=
  ∀ frame, Keeps True (fun s => s.frame = frame) (fun _ => True) m

/-- What keeps the frame keeps whatever holds of the frame. -/
theorem Action.KeepsFrame.keeps {m : Action α} (hm : m.KeepsFrame) (P : Frame → Prop) :
    Keeps True (fun s => P s.frame) (fun _ => True) m := by
  intro s hs
  exact (hm s.frame s rfl).imp (fun _ _ ht => ⟨(congrArg P ht.1).mpr hs, trivial⟩)
    fun _ _ ht => (congrArg P ht).mpr hs

/-- What keeps the frame keeps it also apart from the variables of the innermost scope. -/
theorem Action.KeepsFrame.inside {m : Action α} (hm : m.KeepsFrame) (kind : Option ScopeKind)
    (rest : Frame) : Keeps True (State.Inside kind rest) (fun _ => True) m :=
  hm.keeps fun frame => ∃ slots, frame = ⟨rest.depth, (kind, slots) :: rest.scopes⟩

section

variable {setting : Setting} {eval : Expr → Action Value} {exec : Statement → Action Flow}
  (hexec : ∀ st s, (exec st s).Leaves fun t => st.Extends s.frame t.frame)

include hexec in
/-- Executing statements one after the other adds variables to the innermost scope alone. -/
theorem keeps_executeAll_inside (kind : Option ScopeKind) (rest : Frame)
    (body : List Statement) :
    Action.Keeps True (State.Inside kind rest) (fun _ => True) (executeAll exec body) := by
  refine keeps_executeAll trivial fun st _ => Action.keeps_of_leaves fun s hs => ?_
  exact Answer.Leaves.imp (hexec st s) fun t ht => hs.extends ht

include hexec in
/-- **A block** keeps the frame: its statements only add to the scope that is left behind it. -/
theorem keeps_executeBlock_frame (body : List Statement) :
    (executeBlock exec body).KeepsFrame := by
  intro frame
  refine (keeps_executeAll_inside hexec (some .block) frame body).between ?_
    fun _ hs => hs.leaveBlock
  rintro s rfl
  exact s.inside_enterBlock

include hexec in
/-- **A call** keeps the frame, whether it is refused or its body runs. -/
theorem keeps_callFunction_frame (f : Function) (vs : List Value) :
    (callFunction setting exec f vs).KeepsFrame := by
  intro frame
  -- the body is a block in the scope of the call
  have hblock := (keeps_executeBlock_frame hexec f.body).inside (some .call) frame.call
  have hbody : Action.Keeps True (fun s => s.frame = frame) (fun _ => True)
      (Action.inCall (f.bind vs) (executeBlock exec f.body)) := by
    refine hblock.between ?_ fun _ hs => hs.leaveCall
    rintro s rfl
    exact s.inside_enterCall (f.bind vs)
  intro s hs
  rw [callFunction_apply]
  split
  · exact hs
  · exact hbody.bind (fun _ _ => Action.keeps_lift fun _ _ => trivial) s hs

/-- **An assignment** keeps the frame. -/
theorem keeps_executeAssign_frame {value : Expr} (heval : (eval value).KeepsFrame)
    (target : Expr) : (executeAssign eval target value).KeepsFrame := by
  intro frame
  cases target with
  | identifier name =>
    rintro s rfl
    rw [executeAssign_identifier]
    -- refused before the value is evaluated, for a name that stands for nothing or a constant
    split
    · exact rfl
    · rename_i x hx
      split
      · exact rfl
      · rename_i hconst
        rw [Answer.ensures_bind]
        refine (heval s.frame s rfl).imp (fun v t ht => ?_) fun _ _ ht => ht
        -- the value may have been computed by calls, but the variable is still there
        obtain ⟨y, hy, hslot⟩ := get?_of_frame_eq ht.1 hx
        have hyconst : y.isConst = false := by
          rw [Variable.isConst_of_slot_eq hslot]
          exact Bool.of_not_eq_true hconst
        have hstore : ∀ y', t.scopes.get? name = some y' → y'.isConst = false := by
          intro y' hy'
          rw [hy] at hy'
          cases hy'
          exact hyconst
        exact (ensures_storeValue_frame hstore).imp (fun _ _ h => ⟨h.trans ht.1, trivial⟩)
          fun _ _ h => h.trans ht.1
  | _ => exact Action.keeps_fail _

/-- **A declaration** adds its variable at most, once its value has been evaluated. -/
theorem leaves_executeDeclare_frame (heval : ∀ e, (eval e).KeepsFrame)
    (isConst : Bool) (name : String) (type : Ty) (value : Option Expr) (s : State) :
    (executeDeclare eval isConst name type value s).Leaves fun t =>
      (Statement.declare isConst name type value).Extends s.frame t.frame := by
  -- the value leaves the frame as it was, so only the variable itself can be new
  have hdeclare : ∀ v t, t.frame = s.frame →
      (declareVariable ⟨name, type, isConst, v⟩ t).Leaves fun t' =>
        (Statement.declare isConst name type value).Extends s.frame t'.frame := by
    intro v t ht
    have hvariable : (declareVariable ⟨name, type, isConst, v⟩ t).Ensures True _ _ :=
      ensures_declareVariable_frame _ t
    refine hvariable.leaves ?_ ?_
    · intro _ t' ht'
      rw [ht] at ht'
      exact .inr ⟨⟨name, type, isConst, v⟩, ⟨value, rfl⟩, ht'⟩
    · intro _ t' ht'
      exact .inl (ht'.trans ht)
  cases value with
  | none => exact hdeclare .void s rfl
  | some e =>
    have hbind : ((eval e >>= fun v => declareVariable ⟨name, type, isConst, v⟩) s).Ensures True
        (fun _ t => (Statement.declare isConst name type (some e)).Extends s.frame t.frame)
        fun _ t => (Statement.declare isConst name type (some e)).Extends s.frame t.frame := by
      rw [Answer.ensures_bind]
      exact (heval e s.frame s rfl).imp (fun v t ht => (hdeclare v t ht.1).ensures)
        fun _ _ ht => .inl ht
    exact hbind.leaves (fun _ _ h => h) fun _ _ h => h

end

-- ---------------------------------------------------------------------------
-- Every step
-- ---------------------------------------------------------------------------

/-- What evaluation and execution do to the frame, for every bound on the steps. -/
theorem keeps_frame (setting : Setting) (steps : Nat) :
    (∀ e, (evaluate setting steps e).KeepsFrame) ∧
      ∀ st s, (execute setting steps st s).Leaves fun t => st.Extends s.frame t.frame := by
  -- on the steps: each part of an expression or statement runs with one step less
  induction steps with
  | zero => exact ⟨fun _ _ _ _ => trivial, fun _ _ _ ht => by cases ht⟩
  | succ steps ih =>
    obtain ⟨heval, hexec⟩ := ih
    constructor
    · intro e frame
      rw [evaluate_succ]
      exact keeps_evaluateWith closedUnderOperations_true (fun _ _ hs => hs)
        (fun _ _ _ _ _ => trivial) (fun e' _ => heval e' frame)
        fun _ f vs _ _ _ => keeps_callFunction_frame hexec f vs frame
    · intro st s
      rw [execute_succ]
      -- a declaration is the one statement that may extend the frame
      by_cases hst : ∃ isConst name type value, st = .declare isConst name type value
      · obtain ⟨isConst, name, type, value, rfl⟩ := hst
        exact leaves_executeDeclare_frame heval isConst name type value s
      · have hkeeps : Action.Keeps True (fun t => t.frame = s.frame) (Flow.Gives fun _ => True)
            (executeWith (evaluate setting steps) (execute setting steps) steps st) := by
          refine keeps_executeWith trivial (fun _ _ _ => trivial) (fun e _ => heval e s.frame)
            (fun body _ => (keeps_executeBlock_frame hexec body s.frame).imp
              fun flow _ => flow.gives_true)
            (fun target value _ => (keeps_executeAssign_frame (heval value) target s.frame).imp
              fun flow _ => flow.gives_true) ?_
          intro isConst name type value _ h _
          exact absurd ⟨isConst, name, type, value, h⟩ hst
        exact (hkeeps.leaves rfl).imp fun _ ht => .inl ht

/-- Between two programs no call is in progress and only the global scope is open. -/
theorem Session.Idle.inside {maxDepth : Nat} {s : Session} (hs : s.Idle maxDepth) :
    s.state.Inside none ⟨0, []⟩ := by
  refine hs.invariant (fun _ => ⟨[], rfl⟩) ?_ ?_ ?_
  · intro functions steps e
    exact ((keeps_frame ⟨functions, maxDepth⟩ steps).1 e).inside none ⟨0, []⟩
  · intro functions steps st
    refine Action.keeps_of_leaves fun t ht => ?_
    exact Answer.Leaves.imp ((keeps_frame ⟨functions, maxDepth⟩ steps).2 st t)
      fun _ h => ht.extends h
  · intro functions steps body
    have hexec := (keeps_frame ⟨functions, maxDepth⟩ steps).2
    exact (keeps_executeBlock_frame hexec body).inside none ⟨0, []⟩

/-- As many calls in progress, and as many open scopes, which are linked in the same way. -/
structure State.SameLinks (s t : State) : Prop where
  depth : t.depth = s.depth
  openScopes : t.scopes.depth = s.scopes.depth
  parents : t.scopes.parents = s.scopes.parents

/-- A declaration does not change what the open scopes were opened for. -/
theorem State.kinds_of_frame {s t : State}
    (h : t.frame = s.frame ∨ ∃ x, t.frame = s.frame.declare x) :
    t.scopes.kinds = s.scopes.kinds := by
  rw [← Scopes.kinds_outline, ← Scopes.kinds_outline]
  rcases h with h | ⟨x, h⟩
  · exact congrArg (fun frame => frame.scopes.filterMap Prod.fst) h
  · rw [(Frame.mk.inj h).2]
    exact Outline.kinds_declare _ _

/-- A declaration changes neither the calls in progress nor the open scopes and their links. -/
theorem State.sameLinks {s t : State}
    (h : t.frame = s.frame ∨ ∃ x, t.frame = s.frame.declare x) : s.SameLinks t := by
  have hdepth : t.depth = s.depth := by
    rcases h with h | ⟨x, h⟩
    · exact congrArg Frame.depth h
    · exact (Frame.mk.inj h).1
  have hkinds := State.kinds_of_frame h
  refine ⟨hdepth, ?_, ?_⟩
  · rw [← Scopes.length_kinds, ← Scopes.length_kinds, hkinds]
  · rw [Scopes.parents, Scopes.parents, hkinds]

/-- A statement changes neither the calls in progress nor the links of the open scopes. -/
theorem Statement.Extends.sameLinks {st : Statement} {s t : State}
    (h : st.Extends s.frame t.frame) : s.SameLinks t := by
  rcases h with h | ⟨x, -, h⟩
  · exact State.sameLinks (.inl h)
  · exact State.sameLinks (.inr ⟨x, h⟩)

/-- **Scope discipline.** Whatever the session, and however evaluation and execution end:
expressions and blocks leave the frame as it was, and so does a statement except for a variable
that it declares in the innermost scope. The calls in progress and the open scopes with their links
are the same afterwards. The variable that an assignment has found is still there when the value
has been evaluated. After a program one scope is open and no call is in progress. -/
theorem frame_preserved (maxDepth : Nat) (s : Session) (steps : Nat) :
    (∀ e, (s.evaluate maxDepth steps e).Leaves fun t =>
      s.state.SameLinks t ∧ t.frame = s.state.frame) ∧
    (∀ body, (s.executeBlock maxDepth steps body).Leaves fun t =>
      s.state.SameLinks t ∧ t.frame = s.state.frame) ∧
    (∀ st, (s.execute maxDepth steps st).Leaves fun t =>
      s.state.SameLinks t ∧ st.Extends s.state.frame t.frame) ∧
    (∀ name x value, s.state.scopes.get? name = some x →
      (s.evaluate maxDepth steps value).Leaves fun t =>
        ∃ y, t.scopes.get? name = some y ∧ y.slot = x.slot) ∧
    (s.Idle maxDepth → ∀ p i, s.interpret maxDepth steps p = some i →
      i.session.state.scopes.depth = 1 ∧ i.session.state.depth = 0) := by
  -- each part of the result is read off the frame
  obtain ⟨heval, hexec⟩ := keeps_frame (s.setting maxDepth) steps
  have hsame : ∀ t : State, t.frame = s.state.frame →
      s.state.SameLinks t ∧ t.frame = s.state.frame :=
    fun t ht => ⟨State.sameLinks (.inl ht), ht⟩
  refine ⟨fun e => ((heval e _).leaves rfl).imp hsame,
    fun body => ((keeps_executeBlock_frame hexec body _).leaves rfl).imp hsame,
    fun st => Answer.Leaves.imp (hexec st s.state) fun t ht => ⟨ht.sameLinks, ht⟩, ?_, ?_⟩
  · intro name x value hx
    exact ((heval value _).leaves rfl).imp fun t ht => get?_of_frame_eq ht hx
  · intro hs p i hi
    obtain ⟨slots, hframe⟩ := (hs.interpret hi).inside
    obtain ⟨hdepth, hscopes⟩ := Frame.mk.inj hframe
    refine ⟨?_, hdepth⟩
    rw [← Scopes.length_kinds, ← Scopes.kinds_outline, hscopes]
    rfl

/-- The parameter of a call is still there after a further call. -/
theorem frame_preserved_midCall :
    Session.midCall.state.scopes.get? "n" = some ⟨"n", .int, false, .int 3⟩ ∧
    (Session.midCall.evaluate 2 9 (.call "addBase" [.identifier "n"])).Leaves fun t =>
      ∃ y, t.scopes.get? "n" = some y ∧ y.slot = ⟨"n", .int, false, none⟩ :=
  ⟨rfl, (frame_preserved 2 .midCall 9).2.2.2.1 "n" ⟨"n", .int, false, .int 3⟩ _ rfl⟩

end NullScript
