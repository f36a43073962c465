import NullScript.Proofs.Arena
import NullScript.Proofs.CallDepth

/-!
# NullScript — rejected operations

An assignment, a declaration or a call that is rejected has no effect of its own. What is checked
first fails with nothing evaluated; what is checked after an expression or the arguments have been
evaluated fails in the state that this has led to. An assignment that is not rejected changes the
value of one variable.

* `Statement.FailsAtOnce`, `Expr.FailsAtOnce` — a failure with nothing evaluated.
* `Session.execute_assign`, `Session.execute_declare` — an assignment and a declaration, by how
  their expression ends.
* `Session.call_rejected`, `Session.call_refused` — a call that fails for its arguments or its
  depth.
* `rejections_have_no_effect` — all of this for one session.
-/

namespace NullScript

/-- The statement fails in the state that it starts in, whatever the expressions and statements in
it would do: none of them is evaluated or executed. -/
def Statement.FailsAtOnce (st : Statement) (why : Failure) (s : State) : Prop :=
  ∀ eval exec rounds, executeWith eval exec rounds st s = .failed why s

/-- The expression fails in the state that it starts in, whatever the expressions in it would do and
the statements of functions: none of them is evaluated or executed. -/
def Expr.FailsAtOnce (setting : Setting) (e : Expr) (why : Failure) (s : State) : Prop :=
  ∀ eval exec, evaluateWith setting eval exec e s = .failed why s

/-- The states are the same except for the value that a variable has got. -/
structure State.Stores (name : String) (value : Value) (s t : State) : Prop where
  depth : t.depth = s.depth
  streams : t.streams = s.streams
  parents : t.scopes.arena.map Prod.fst = s.scopes.arena.map Prod.fst
  /-- The variable that the name stands for has got the value. -/
  lookup : ∀ i other, t.scopes.arena.lookup? i other =
    if s.scopes.home? name = some i ∧ other = name then
      (s.scopes.arena.lookup? i other).map fun x => { x with value }
    else s.scopes.arena.lookup? i other

/-- Storing a value changes the value of one variable. -/
theorem State.stores_set (s : State) (name : String) (value : Value) :
    s.Stores name value { s with scopes := s.scopes.set name value } where
  depth := rfl
  streams := rfl
  parents := s.scopes.map_fst_arena_set name value
  lookup := s.scopes.lookup?_set name value

namespace Session

variable (s : Session) (maxDepth steps : Nat)

-- ---------------------------------------------------------------------------
-- Assignments
-- ---------------------------------------------------------------------------

/-- An assignment to an unknown name fails at once. -/
theorem assign_unknown {s : State} {name : String} (h : s.scopes.get? name = none) (value : Expr) :
    (Statement.assign (.identifier name) value).FailsAtOnce (.unknownVariable name) s := by
  intro eval exec rounds
  show executeAssign eval (.identifier name) value s = _
  rw [executeAssign_identifier, h]

/-- An assignment to a constant fails at once. -/
theorem assign_constant {s : State} {name : String} {x : Variable}
    (h : s.scopes.get? name = some x) (hx : x.isConst) (value : Expr) :
    (Statement.assign (.identifier name) value).FailsAtOnce (.constantAssigned name) s := by
  intro eval exec rounds
  show executeAssign eval (.identifier name) value s = _
  rw [executeAssign_identifier, h]
  exact if_pos hx

/-- An assignment to anything but a name fails at once. -/
theorem assign_unsupported {target : Expr} (h : ∀ name, target ≠ .identifier name) (value : Expr)
    (s : State) : (Statement.assign target value).FailsAtOnce (.unsupported .assignment) s := by
  intro eval exec rounds
  cases target with
  | identifier name => exact absurd rfl (h name)
  | _ => rfl

/-- What an assignment does to a variable that is not constant, by how its right side ends. The
type is that of the variable before. -/
def assigned (name : String) (type : Ty) : Answer Value → Answer Flow
  | .unfinished => .unfinished
  | .failed e t => .failed e t
  | .done v t =>
    if v.fits type then .done .next { t with scopes := t.scopes.set name v }
    else .failed (.mismatch (.slot type) v) t

/-- The right side leaves the variable where it is. -/
theorem get?_behind {value : Expr} {v : Value} {t : State} {name : String} {x : Variable}
    (hx : s.state.scopes.get? name = some x)
    (h : s.evaluate maxDepth steps value = .done v t) :
    t.scopes.home? name = s.state.scopes.home? name ∧
      ∃ y, t.scopes.get? name = some y ∧ y.slot = x.slot := by
  -- evaluating the right side keeps the frame, which tells where names are
  have hkeeps := (keeps_frame (s.setting maxDepth) steps).1 value s.state.frame s.state rfl
  have hframe : t.frame = s.state.frame := by
    rw [show NullScript.evaluate (s.setting maxDepth) steps value s.state = .done v t from h]
      at hkeeps
    exact hkeeps.1
  exact ⟨Scopes.home?_of_outline_eq (Frame.mk.inj hframe).2 name, get?_of_frame_eq hframe hx⟩

/-- **An assignment** to a variable that is not constant. -/
theorem execute_assign {name : String} {x : Variable} (hx : s.state.scopes.get? name = some x)
    (hconst : x.isConst = false) (value : Expr) :
    s.execute maxDepth (steps + 1) (.assign (.identifier name) value) =
      assigned name x.type (s.evaluate maxDepth steps value) := by
  show executeAssign (NullScript.evaluate (s.setting maxDepth) steps) (.identifier name) value
    s.state = assigned name x.type (NullScript.evaluate (s.setting maxDepth) steps value s.state)
  rw [executeAssign_identifier, hx]
  dsimp only
  rw [if_neg (by rw [hconst]; decide), Action.bind_apply]
  cases h : NullScript.evaluate (s.setting maxDepth) steps value s.state with
  | unfinished => rfl
  | failed e t => rfl
  | done v t =>
    -- the right side may have changed the value of the variable, but not its type
    obtain ⟨-, y, hy, hslot⟩ := s.get?_behind maxDepth steps hx h
    have htype : y.type = x.type := congrArg Slot.type hslot
    dsimp only
    rw [storeValue_apply, hy]
    dsimp only
    rw [htype]
    rfl

-- ---------------------------------------------------------------------------
-- Declarations
-- ---------------------------------------------------------------------------

/-- How the initial value of a declaration is evaluated; without one it is `null`. -/
def initial : Option Expr → Answer Value
  | some e => s.evaluate maxDepth steps e
  | none => .done .void s.state

/-- **A declaration** whose initial value has been evaluated. -/
theorem execute_declare {isConst : Bool} {name : String} {type : Ty} {value : Option Expr}
    {v : Value} {t : State} (h : s.initial maxDepth steps value = .done v t) :
    s.execute maxDepth (steps + 1) (.declare isConst name type value) =
      declareVariable ⟨name, type, isConst, v⟩ t := by
  cases value with
  | none =>
    cases h
    rfl
  | some e =>
    have he : NullScript.evaluate (s.setting maxDepth) steps e s.state = .done v t := h
    show (NullScript.evaluate (s.setting maxDepth) steps e >>= fun v =>
      declareVariable ⟨name, type, isConst, v⟩) s.state = _
    rw [Action.bind_apply, he]

-- ---------------------------------------------------------------------------
-- Calls
-- ---------------------------------------------------------------------------

/-- What the parameters of a function take: of a built-in one, or else of a declared one. -/
def parameters? (name : String) : Option (List ParameterKind) :=
  match Builtin.find? name with
  | some b => some b.parameterKinds
  | none => (s.functions.find? name).map Function.parameterKinds

/-- A call of an unknown function fails at once. -/
theorem call_unknownFunction {name : String} (h : s.parameters? name = none)
    (arguments : List Expr) (t : State) :
    (Expr.call name arguments).FailsAtOnce (s.setting maxDepth) (.unknownFunction name) t := by
  intro eval exec
  unfold parameters? at h
  split at h
  · cases h
  · next hb =>
    rw [evaluateWith_call, call_unknown _ _ _ _ hb (Option.map_eq_none_iff.mp h)]
    rfl

/-- **A call with wrong arguments** fails in the state that they have led to. -/
theorem call_rejected {name : String} {kinds : List ParameterKind}
    (hkinds : s.parameters? name = some kinds) {eval : Expr → Action Value}
    {arguments : List Expr} {vs : List Value} {t : State}
    (hargs : evaluateAll eval arguments s.state = .done vs t) {e : Failure}
    (hcheck : checkArguments kinds vs = .error e) (exec : Statement → Action Flow) :
    evaluateWith (s.setting maxDepth) eval exec (.call name arguments) s.state = .failed e t := by
  unfold parameters? at hkinds
  -- built-in and declared functions check their arguments in the same way
  split at hkinds
  · next b hb =>
    cases hkinds
    rw [evaluateWith_call, call_builtin _ _ _ _ hb, Action.bind_apply, hargs]
    dsimp only
    rw [hcheck]
    rfl
  · next hb =>
    obtain ⟨f, hf, rfl⟩ := Option.map_eq_some_iff.mp hkinds
    rw [evaluateWith_call, call_declared _ _ _ _ hb hf, Action.bind_apply, hargs]
    dsimp only
    rw [hcheck]
    rfl

/-- **A call that is too deep** fails in the state that the arguments have led to. -/
theorem call_refused {name : String} {f : Function} (hb : Builtin.find? name = none)
    (hf : s.functions.find? name = some f) {eval : Expr → Action Value} {arguments : List Expr}
    {vs : List Value} {t : State} (hargs : evaluateAll eval arguments s.state = .done vs t)
    (hcheck : checkArguments f.parameterKinds vs = .ok ()) (hdepth : maxDepth ≤ t.depth)
    (exec : Statement → Action Flow) :
    evaluateWith (s.setting maxDepth) eval exec (.call name arguments) s.state =
      .failed (.callTooDeep f.name maxDepth) t := by
  rw [evaluateWith_call, call_declared _ _ _ _ hb hf, Action.bind_apply, hargs]
  dsimp only
  rw [hcheck]
  exact Function.refused_iff.mpr hdepth exec

-- ---------------------------------------------------------------------------
-- All of them
-- ---------------------------------------------------------------------------

/-- What becomes of assignments, declarations and calls in a session. -/
structure Rejects : Prop where
  /-- A name that stands for nothing. -/
  unknown : ∀ name value, s.state.scopes.get? name = none →
    (Statement.assign (.identifier name) value).FailsAtOnce (.unknownVariable name) s.state
  constant : ∀ name value x, s.state.scopes.get? name = some x → x.isConst →
    (Statement.assign (.identifier name) value).FailsAtOnce (.constantAssigned name) s.state
  /-- A target that is not a name. -/
  unsupported : ∀ target value, (∀ name, target ≠ .identifier name) →
    (Statement.assign target value).FailsAtOnce (.unsupported .assignment) s.state
  /-- What fails at once does so in every run of the session. -/
  atOnce : ∀ st why, Statement.FailsAtOnce st why s.state →
    s.execute maxDepth (steps + 1) st = .failed why s.state
  /-- Any other assignment ends as its right side does; if that gives a value, the value is stored,
  or it does not fit and nothing is stored. -/
  assigned : ∀ name value x, s.state.scopes.get? name = some x → x.isConst = false →
    s.execute maxDepth (steps + 1) (.assign (.identifier name) value) =
      Session.assigned name x.type (s.evaluate maxDepth steps value)
  /-- What is stored is the value of the variable that the name stood for before. -/
  stored : ∀ name value x v t, s.state.scopes.get? name = some x →
    s.evaluate maxDepth steps value = .done v t →
    t.Stores name v { t with scopes := t.scopes.set name v } ∧
      t.scopes.home? name = s.state.scopes.home? name ∧
      ∃ y, t.scopes.get? name = some y ∧ y.slot = x.slot
  /-- A declaration whose initial value does not fit its type. -/
  misfit : ∀ isConst name type value v t, s.initial maxDepth steps value = .done v t →
    v.fits type = false →
    s.execute maxDepth (steps + 1) (.declare isConst name type value) =
      .failed (.mismatch (.slot type) v) t
  /-- A declaration of a name that the innermost scope holds. -/
  duplicate : ∀ isConst name type value v t, s.initial maxDepth steps value = .done v t →
    v.fits type → t.scopes.declares name →
    s.execute maxDepth (steps + 1) (.declare isConst name type value) =
      .failed (.duplicateVariable name) t
  /-- A declaration does not fail otherwise, once its initial value has been evaluated. -/
  declared : ∀ isConst name type value v t, s.initial maxDepth steps value = .done v t →
    v.fits type → t.scopes.declares name = false →
    ∃ scopes, t.scopes.declare ⟨name, type, isConst, v⟩ = .ok scopes ∧
      s.execute maxDepth (steps + 1) (.declare isConst name type value) =
        .done .next { t with scopes }
  /-- A function that does not exist. -/
  unknownFunction : ∀ name arguments, s.parameters? name = none →
    (Expr.call name arguments).FailsAtOnce (s.setting maxDepth) (.unknownFunction name) s.state ∧
      s.evaluate maxDepth (steps + 1) (.call name arguments) =
        .failed (.unknownFunction name) s.state
  /-- Arguments that the parameters do not take: whatever statements would do, none is executed. -/
  rejected : ∀ name kinds arguments vs t e, s.parameters? name = some kinds →
    evaluateAll (NullScript.evaluate (s.setting maxDepth) steps) arguments s.state = .done vs t →
    checkArguments kinds vs = .error e →
    (∀ exec, evaluateWith (s.setting maxDepth) (NullScript.evaluate (s.setting maxDepth) steps) exec
      (.call name arguments) s.state = .failed e t) ∧
      s.evaluate maxDepth (steps + 1) (.call name arguments) = .failed e t
  /-- Too many calls in progress: whatever statements would do, none is executed. -/
  refused : ∀ name f arguments vs t, Builtin.find? name = none → s.functions.find? name = some f →
    evaluateAll (NullScript.evaluate (s.setting maxDepth) steps) arguments s.state = .done vs t →
    checkArguments f.parameterKinds vs = .ok () → maxDepth ≤ t.depth →
    (∀ exec, evaluateWith (s.setting maxDepth) (NullScript.evaluate (s.setting maxDepth) steps) exec
      (.call name arguments) s.state = .failed (.callTooDeep f.name maxDepth) t) ∧
      s.evaluate maxDepth (steps + 1) (.call name arguments) =
        .failed (.callTooDeep f.name maxDepth) t

end Session

/-- **Rejected operations have no effect of their own**, in any session. -/
theorem rejections_have_no_effect (s : Session) (maxDepth steps : Nat) :
    s.Rejects maxDepth steps where
  unknown _ value h := Session.assign_unknown h value
  constant _ value _ h hx := Session.assign_constant h hx value
  unsupported _ value h := Session.assign_unsupported h value s.state
  atOnce _ _ h := h _ _ _
  assigned _ value _ hx hconst := s.execute_assign maxDepth steps hx hconst value
  stored name _ _ v t hx h :=
    ⟨t.stores_set name v, s.get?_behind maxDepth steps hx h⟩
  -- the value is checked before the name
  misfit isConst name type value v t h hfits := by
    rw [s.execute_declare maxDepth steps h, declareVariable_apply, hfits]
    rfl
  duplicate isConst name type value v t h hfits hdeclares := by
    rw [s.execute_declare maxDepth steps h, declareVariable_apply, hfits, Scopes.declare,
      if_pos hdeclares]
    rfl
  declared isConst name type value v t h hfits hdeclares := by
    obtain ⟨scopes, hdeclare⟩ := Scopes.exists_declare (x := ⟨name, type, isConst, v⟩) hdeclares
    refine ⟨scopes, hdeclare, ?_⟩
    rw [s.execute_declare maxDepth steps h, declareVariable_apply, hfits, hdeclare]
    rfl
  unknownFunction name arguments h :=
    have hfails := s.call_unknownFunction maxDepth h arguments s.state
    ⟨hfails, hfails _ _⟩
  rejected name kinds arguments vs t e hkinds hargs hcheck :=
    have hfails := s.call_rejected maxDepth hkinds hargs hcheck
    ⟨hfails, hfails _⟩
  refused name f arguments vs t hb hf hargs hcheck hdepth :=
    have hfails := s.call_refused maxDepth hb hf hargs hcheck hdepth
    ⟨hfails, hfails _⟩

/-- In the middle of a call: a constant cannot be assigned to, a function that does not exist cannot
be called, and a second call fails for its arguments after the first one has been evaluated. -/
theorem rejections_have_no_effect_midCall :
    Session.midCall.Reachable 2 ∧
      Session.midCall.execute 2 9
          (.assign (.identifier "base") (.call "print" [.literal .null])) =
        .failed (.constantAssigned "base") Session.midCall.state ∧
      Session.midCall.evaluate 2 9 (.call "missing" [.call "print" [.literal .null]]) =
        .failed (.unknownFunction "missing") Session.midCall.state ∧
      Session.midCall.evaluate 2 9 (.call "addBase" [.identifier "n", .identifier "n"]) =
        .failed (.argumentCount 1 2) Session.midCall.state :=
  have h := rejections_have_no_effect .midCall 2 8
  ⟨Session.reachable_midCall,
    h.atOnce _ _ (h.constant _ _ ⟨"base", .int, true, .int 4⟩ rfl rfl),
    (h.unknownFunction "missing" _ rfl).2,
    (h.rejected "addBase" [.slot .int] _ [.int 3, .int 3] _ _ rfl rfl rfl).2⟩

end NullScript
