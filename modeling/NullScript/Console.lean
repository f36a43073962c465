import NullScript.Run

/-!
# NullScript — the console

From the command line, reports and the lines that a program writes go to one standard output, in the
order in which they come up. What is reported is printed at once. Errors in the text are given up on
when there are more than a limit: the program is then left in the middle of reading the text, and
nothing further is reported.
-/

namespace NullScript

/-- How the program leaves: its exit code, what it has printed, and what it has not read of the
standard input. -/
structure Exit where
  code : Nat
  printed : ByteArray
  unread : List UInt8

/-- Text on a line of its own. -/
def lineBytes (text : String) : ByteArray := (text ++ "\n").toUTF8

/-- Lines of text. -/
def lines : List String → ByteArray
  | [] => .empty
  | text :: texts => lineBytes text ++ lines texts

/-- The line that is printed when there are too many errors. -/
def givingUp : String := "Encountered too many errors, exiting..."

/-- The line for a failure. -/
def failureLine (f : Failure) : String := "Interpreter error: " ++ f.message

/-- What reports are printed on. -/
structure Console where
  /-- How many errors in the text are shown before giving up. -/
  maxErrors : Nat
  /-- All that has been printed. -/
  printed : ByteArray
  /-- The number of reports. -/
  count : Nat
  /-- Has the program been left? -/
  left : Bool

namespace Console

/-- Nothing is printed. -/
def new (maxErrors : Nat) : Console := ⟨maxErrors, .empty, 0, false⟩

/-- Prints a line. -/
def print (c : Console) (text : String) : Console :=
  { c with printed := c.printed ++ lineBytes text }

/-- Prints a report. Errors in the text have a limit, and failures have none. -/
def take (c : Console) (r : Report) : Console :=
  if c.left then c
  else
    match r with
    | .source e =>
      let shown := { c.print e.message with count := c.count + 1 }
      if shown.maxErrors < shown.count then { shown.print givingUp with left := true } else shown
    | .failure f => { c.print (failureLine f) with count := c.count + 1 }

/-- The console takes reports, and is not asked for anything else. -/
def handler : Handler Console := ⟨take, count⟩

/-- The program leaves. -/
def exit (c : Console) (unread : List UInt8) : Exit :=
  ⟨if c.left || 0 < c.count then 1 else 0, c.printed, unread⟩

/-- The output of a program that goes on behind what has been printed. -/
def output (c : Console) : Output := ⟨c.printed, none, false⟩

/-- The console behind what a program has written. -/
def behind (c : Console) (output : Output) : Console := { c with printed := output.written }

/-- Runs a program on the console: its functions are declared, then its statements are executed.
There is no result if the bound on the number of steps is reached. -/
def interpret (c : Console) (maxDepth steps : Nat) (input : Input) (p : Program) :
    Option (Console × Input) :=
  let (redefined, functions) := Session.register [] p.functions.byName
  let declared := handler.takeAll c (redefined.map .failure)
  let state : State := ⟨.empty, 0, ⟨input, declared.output⟩⟩
  match executeAll (execute ⟨functions, maxDepth⟩ steps) p.statements state with
  | .unfinished => none
  | .failed e s => some ((declared.behind s.streams.output).take (.failure e), s.streams.input)
  | .done _ s => some (declared.behind s.streams.output, s.streams.input)

end Console

end NullScript
