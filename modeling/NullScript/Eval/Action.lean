import NullScript.Scope
import NullScript.Streams

/-!
# NullScript — actions on the state of a running program

A running program has open scopes, a number of calls in progress and two streams. An action works
on that state: it fails or gives a value, and leaves a state behind in both cases. Running a
program is done with a bound on the number of steps; an action that reaches the bound is
*unfinished* and leaves nothing behind.

Actions form a lawful monad. A failure or an unfinished action ends the sequence that it stands
in; `Action.bind_apply` says so.
-/

namespace NullScript

/-- The state of a running program. -/
structure State where
  scopes : Scopes
  /-- The number of calls of declared functions that are in progress. -/
  depth : Nat
  streams : Streams

namespace State

/-- Opens the scope of a block. -/
def enterBlock (s : State) : State := { s with scopes := s.scopes.pushBlock }

/-- Closes the scope of a block. -/
def leaveBlock (s : State) : State := { s with scopes := s.scopes.pop }

/-- Opens the scope of a call, which holds the parameters. -/
def enterCall (parameters : List Variable) (s : State) : State :=
  { s with scopes := s.scopes.pushCall parameters, depth := s.depth + 1 }

/-- Closes the scope of a call. -/
def leaveCall (s : State) : State := { s with scopes := s.scopes.pop, depth := s.depth - 1 }

end State

/-- How an action ends. -/
inductive Answer (α : Type) where
  /-- The bound on the number of steps was reached. -/
  | unfinished
  | failed (why : Failure) (state : State)
  | done (value : α) (state : State)

/-- Something that a program does. -/
def Action (α : Type) : Type := State → Answer α

namespace Action

variable {α β : Type}

/-- Gives a value and does nothing. -/
@[always_inline, inline]
protected def pure (a : α) : Action α := fun s => .done a s

/-- One action after the other. -/
@[always_inline, inline]
protected def bind (m : Action α) (f : α → Action β) : Action β := fun s =>
  match m s with
  | .unfinished => .unfinished
  | .failed e s => .failed e s
  | .done a s => f a s

instance : Monad Action where
  pure := Action.pure
  bind := Action.bind

/-- What a sequence does, by how its first action ends. -/
theorem bind_apply (m : Action α) (f : α → Action β) (s : State) :
    (m >>= f) s =
      match m s with
      | .unfinished => .unfinished
      | .failed e s => .failed e s
      | .done a s => f a s := rfl

instance : LawfulMonad Action :=
  .mk' Action
    (fun m => by
      funext s
      simp only [Functor.map, Action.bind, Function.comp, Action.pure]
      cases m s <;> rfl)
    (fun _ _ => rfl)
    (fun m f g => by
      funext s
      simp only [bind_apply]
      cases m s <;> rfl)

/-- Reaches the bound. -/
def unfinished : Action α := fun _ => .unfinished

/-- Fails and does nothing else. -/
@[always_inline, inline]
def fail (e : Failure) : Action α := fun s => .failed e s

/-- An outcome that does not depend on the state. -/
@[always_inline, inline]
def lift (r : Except Failure α) : Action α := fun s =>
  match r with
  | .ok a => .done a s
  | .error e => .failed e s

/-- The open scopes. -/
@[always_inline, inline]
def scopes : Action Scopes := fun s => .done s.scopes s

/-- The number of calls in progress. -/
@[always_inline, inline]
def depth : Action Nat := fun s => .done s.depth s

/-- Puts other scopes in place of the open ones. -/
@[always_inline, inline]
def setScopes (scopes : Scopes) : Action Unit := fun s => .done () { s with scopes }

/-- Something that is done with the streams alone. -/
@[always_inline, inline]
def onStreams (f : Streams → Except Failure α × Streams) : Action α := fun s =>
  match f s.streams with
  | (.ok a, streams) => .done a { s with streams }
  | (.error e, streams) => .failed e { s with streams }

/-- Runs an action between two changes of the state. The second one is made however the action
ends. -/
@[always_inline, inline]
def between (enter leave : State → State) (m : Action α) : Action α := fun s =>
  match m (enter s) with
  | .unfinished => .unfinished
  | .failed e s => .failed e (leave s)
  | .done a s => .done a (leave s)

/-- What is left between two changes of the state, by how the action ends. -/
theorem between_apply (enter leave : State → State) (m : Action α) (s : State) :
    between enter leave m s =
      match m (enter s) with
      | .unfinished => .unfinished
      | .failed e t => .failed e (leave t)
      | .done a t => .done a (leave t) := rfl

/-- Runs an action in the scope of a new block. -/
@[always_inline, inline]
def inBlock (m : Action α) : Action α := between .enterBlock .leaveBlock m

/-- Runs an action in the scope of a new call. -/
@[always_inline, inline]
def inCall (parameters : List Variable) (m : Action α) : Action α :=
  between (.enterCall parameters) .leaveCall m

end Action

end NullScript
