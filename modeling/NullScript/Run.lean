import NullScript.Program.Source
import NullScript.Session

/-!
# NullScript — running a source text

A text is run only if reading it reports no error. Reports go to a handler, which counts them and
may have taken others before: a run goes by what the count has grown by. A handler that keeps the
reports gives the list of them, which holds errors in the text, or else failures.
-/

namespace NullScript

/-- The limits of a run. -/
structure Config where
  limits : Limits
  maxDepth : Nat

/-- The usual limit on nested calls. -/
def Config.defaultDepth : Nat := 200

def Config.default : Config := ⟨.default, Config.defaultDepth⟩

/-- Something reported during a run. -/
inductive Report where
  | source (e : SourceError)
  | failure (f : Failure)
deriving DecidableEq

/-- What takes reports, one by one. -/
structure Handler (α : Type) where
  take : α → Report → α
  /-- The number of reports that have been taken. -/
  count : α → Nat

namespace Handler

/-- Takes reports in order. -/
def takeAll {α : Type} (handler : Handler α) (before : α) (reports : List Report) : α :=
  reports.foldl handler.take before

/-- Keeps all reports. -/
def collecting : Handler (List Report) := ⟨fun reports r => reports ++ [r], List.length⟩

end Handler

/-- How a run ended. -/
inductive Outcome where
  | completed
  /-- The text has this many errors, and nothing was executed. -/
  | rejected (errors : Nat)
  | failed
deriving DecidableEq, Repr

/-- A run that has come to its end. -/
structure RunInto (α : Type) where
  outcome : Outcome
  /-- What the handler has made of the reports. -/
  reports : α
  streams : Streams

/-- A run with the list of all that was reported. -/
abbrev Run := RunInto (List Report)

/-- The failures of a program, in the order in which they are reported. -/
def Interpretation.failures (i : Interpretation) : List Failure :=
  i.redefined ++ i.failure.toList

/-- Reads and runs a text, and gives a handler what there is to report. There is no result if the
bound on the number of steps is reached. -/
def runInto {α : Type} (handler : Handler α) (before : α) (config : Config) (steps : Nat)
    (streams : Streams) (source : String) : Option (RunInto α) :=
  let parsed := parseSource config.limits source
  let read := handler.takeAll before (parsed.errors.map .source)
  let errors := handler.count read - handler.count before
  if 0 < errors then some ⟨.rejected errors, read, streams⟩
  else
    ((Session.new streams).interpret config.maxDepth steps parsed.program).map fun i =>
      let ran := handler.takeAll read (i.failures.map .failure)
      let outcome := if handler.count before < handler.count ran then .failed else .completed
      ⟨outcome, ran, i.session.state.streams⟩

/-- Reads and runs a text, and keeps all reports. -/
def runSource (config : Config) (steps : Nat) (streams : Streams) (source : String) : Option Run :=
  runInto .collecting [] config steps streams source

end NullScript
