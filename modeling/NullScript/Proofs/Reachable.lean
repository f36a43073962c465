import NullScript.Proofs.Invariant

/-!
# NullScript — reachable sessions

A session is used from outside by running programs, expressions, statements and blocks in any
order; `Session.Idle` holds of what it is between two of them. While one of them runs, the session
passes through further states: scopes are opened for blocks and calls, and every expression and
statement inside starts from such a state. `Session.Reachable` holds of all of them. Its rules
follow the evaluator. They ask less than it does (a block may be entered at any moment), so what
holds of every reachable session holds at every moment of every run.

* `Session.Reachable.invariant` — an invariant that the evaluator keeps and that survives the
  opening of scopes holds in every reachable session.
-/

namespace NullScript

namespace Session

variable {maxDepth : Nat}

/-- The sessions that arise between programs. -/
inductive Idle (maxDepth : Nat) : Session → Prop
  | new (streams : Streams) : Idle maxDepth (.new streams)
  | interpret {s : Session} {steps : Nat} {p : Program} {i : Interpretation} :
    Idle maxDepth s → s.interpret maxDepth steps p = some i → Idle maxDepth i.session
  | evaluate {s : Session} {steps : Nat} {e : Expr} {t : State} :
    Idle maxDepth s → (s.evaluate maxDepth steps e).state? = some t →
    Idle maxDepth { s with state := t }
  | execute {s : Session} {steps : Nat} {st : Statement} {t : State} :
    Idle maxDepth s → (s.execute maxDepth steps st).state? = some t →
    Idle maxDepth { s with state := t }
  | executeBlock {s : Session} {steps : Nat} {body : List Statement} {t : State} :
    Idle maxDepth s → (s.executeBlock maxDepth steps body).state? = some t →
    Idle maxDepth { s with state := t }

/-- The sessions that arise at all, also in the middle of a program. -/
inductive Reachable (maxDepth : Nat) : Session → Prop
  | idle {s : Session} : Idle maxDepth s → Reachable maxDepth s
  /-- A program has declared its functions. -/
  | declared {s : Session} (fs : List Function) :
    Idle maxDepth s → Reachable maxDepth { s with functions := (register s.functions fs).2 }
  | evaluate {s : Session} {steps : Nat} {e : Expr} {t : State} :
    Reachable maxDepth s → (s.evaluate maxDepth steps e).state? = some t →
    Reachable maxDepth { s with state := t }
  | execute {s : Session} {steps : Nat} {st : Statement} {t : State} :
    Reachable maxDepth s → (s.execute maxDepth steps st).state? = some t →
    Reachable maxDepth { s with state := t }
  | executeBlock {s : Session} {steps : Nat} {body : List Statement} {t : State} :
    Reachable maxDepth s → (s.executeBlock maxDepth steps body).state? = some t →
    Reachable maxDepth { s with state := t }
  | enterBlock {s : Session} :
    Reachable maxDepth s → Reachable maxDepth { s with state := s.state.enterBlock }
  /-- The arguments of a call have been evaluated and checked, and it is not too deep. -/
  | enterCall {s : Session} {steps : Nat} {name : String} {f : Function} {arguments : List Expr}
      {vs : List Value} {t : State} :
    Reachable maxDepth s → s.functions.find? name = some f →
    evaluateAll (NullScript.evaluate (s.setting maxDepth) steps) arguments s.state = .done vs t →
    checkArguments f.parameterKinds vs = .ok () → t.depth < maxDepth →
    Reachable maxDepth { s with state := t.enterCall (f.bind vs) }

/-- The functions that a program runs with: its own ones and those that were declared before. -/
def functionsFor (s : Session) (p : Program) : FunctionTable :=
  (register s.functions p.functions.byName).2

/-- What running a program gives, by how its statements end. -/
theorem interpret_apply (s : Session) (maxDepth steps : Nat) (p : Program) :
    s.interpret maxDepth steps p =
      match executeAll (NullScript.execute ⟨s.functionsFor p, maxDepth⟩ steps) p.statements
        s.state with
      | .unfinished => none
      | .failed e t =>
        some ⟨(register s.functions p.functions.byName).1, some e, ⟨s.functionsFor p, t⟩⟩
      | .done _ t =>
        some ⟨(register s.functions p.functions.byName).1, none, ⟨s.functionsFor p, t⟩⟩ := rfl

/-- The session behind a program that has run: it has the functions that the program ran with, and
the state that its statements left. -/
theorem interpret_eq_some {s : Session} {steps : Nat} {p : Program} {i : Interpretation}
    (h : s.interpret maxDepth steps p = some i) :
    i.session.functions = s.functionsFor p ∧
      (executeAll (NullScript.execute ⟨s.functionsFor p, maxDepth⟩ steps) p.statements
        s.state).state? = some i.session.state := by
  rw [interpret_apply] at h
  cases hr : executeAll (NullScript.execute ⟨s.functionsFor p, maxDepth⟩ steps) p.statements
      s.state with
  | unfinished =>
    rw [hr] at h
    cases h
  | failed e t =>
    rw [hr] at h
    cases h
    exact ⟨rfl, rfl⟩
  | done flow t =>
    rw [hr] at h
    cases h
    exact ⟨rfl, rfl⟩

section

variable {I : State → Prop} (hnew : ∀ streams, I ⟨.empty, 0, streams⟩)
  (heval : ∀ functions steps e,
    Action.Keeps True I (fun _ => True) (NullScript.evaluate ⟨functions, maxDepth⟩ steps e))
  (hexec : ∀ functions steps st,
    Action.Keeps True I (fun _ => True) (NullScript.execute ⟨functions, maxDepth⟩ steps st))
  (hblock : ∀ functions steps body, Action.Keeps True I (fun _ => True)
    (NullScript.executeBlock (NullScript.execute ⟨functions, maxDepth⟩ steps) body))

include hnew heval hexec hblock

/-- What holds of a new session and is kept by the evaluator holds between two programs. -/
theorem Idle.invariant {s : Session} (hs : s.Idle maxDepth) : I s.state := by
  induction hs with
  | new streams => exact hnew streams
  | @interpret s steps p _ _ h ih =>
    -- a program only executes its statements one after the other
    have hall := keeps_executeAll (F := fun _ => True) trivial fun st (_ : st ∈ p.statements) =>
      hexec (s.functionsFor p) steps st
    exact hall.leaves ih _ (interpret_eq_some h).2
  | evaluate _ h ih => exact (heval _ _ _).leaves ih _ h
  | execute _ h ih => exact (hexec _ _ _).leaves ih _ h
  | executeBlock _ h ih => exact (hblock _ _ _).leaves ih _ h

/-- **Invariants of sessions.** What holds of a new session, is kept by the evaluator and survives
the opening of scopes holds in every reachable session. -/
theorem Reachable.invariant (henterBlock : ∀ s, I s → I s.enterBlock)
    (henterCall : ∀ functions steps name f arguments vs s t, I s →
      functions.find? name = some f →
      evaluateAll (NullScript.evaluate ⟨functions, maxDepth⟩ steps) arguments s = .done vs t →
      checkArguments f.parameterKinds vs = .ok () → t.depth < maxDepth →
      I (t.enterCall (f.bind vs)))
    {s : Session} (hs : s.Reachable maxDepth) : I s.state := by
  induction hs with
  -- declaring functions leaves the state as it is
  | idle h => exact h.invariant hnew heval hexec hblock
  | declared _ h => exact h.invariant hnew heval hexec hblock
  | evaluate _ h ih => exact (heval _ _ _).leaves ih _ h
  | execute _ h ih => exact (hexec _ _ _).leaves ih _ h
  | executeBlock _ h ih => exact (hblock _ _ _).leaves ih _ h
  | enterBlock _ ih => exact henterBlock _ ih
  | enterCall _ hf hargs hcheck hdepth ih =>
    exact henterCall _ _ _ _ _ _ _ _ ih hf hargs hcheck hdepth

end

end Session

-- ---------------------------------------------------------------------------
-- A session in the middle of a call
-- ---------------------------------------------------------------------------

/-- A function that adds the global `base` to its argument. -/
def Function.addBase : Function where
  name := "addBase"
  parameters := [⟨"n", .int⟩]
  returns := .int
  body := [.giveBack (some (.additive (.identifier "n") [(.plus, .identifier "base")]))]

namespace Session

/-- The session in which the body of `addBase` runs, called on `3` while `base` is `4`. -/
def midCall : Session where
  functions := [.addBase]
  state :=
    { scopes := ⟨[⟨.call, [⟨"n", .int, false, .int 3⟩]⟩], [⟨"base", .int, true, .int 4⟩]⟩
      depth := 1
      streams := ⟨⟨[], false⟩, ⟨.empty, none, false⟩⟩ }

/-- The session is reached by declaring the constant and the function, and calling it. -/
theorem reachable_midCall : midCall.Reachable 2 := by
  have hnew : Idle 2 (.new midCall.state.streams) := .new _
  -- the constant is declared first, and then the function
  have hdeclare : ((Session.new midCall.state.streams).execute 2 2
      (.declare true "base" .int (some (.literal (.int 4))))).state? =
      some ⟨⟨[], midCall.state.scopes.globals⟩, 0, midCall.state.streams⟩ := rfl
  have hdeclared := Reachable.declared [.addBase] (hnew.execute hdeclare)
  have hargument : evaluateAll (NullScript.evaluate ⟨[.addBase], 2⟩ 1) [.literal (.int 3)]
      ⟨⟨[], midCall.state.scopes.globals⟩, 0, midCall.state.streams⟩ =
      .done [.int 3] ⟨⟨[], midCall.state.scopes.globals⟩, 0, midCall.state.streams⟩ := rfl
  have hfind : FunctionTable.find? [.addBase] "addBase" = some .addBase := rfl
  exact hdeclared.enterCall hfind hargument rfl (by decide)

end Session

end NullScript
