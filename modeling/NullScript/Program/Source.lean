import NullScript.Program.Statement
import NullScript.Token.Lexer

/-!
# NullScript — reading programs

A program text is a sequence of functions and statements in any order. Reading stops at the first
token that starts neither. Comments and the layout of the text play no part: the program depends
on the other tokens alone, and faults are located by them.

The errors of a text are reported in the order in which they come up when each token is read from
the text only once the one before it has been consumed: what is wrong with the characters up to a
token stands before what is noticed at that token. What lies behind the token at which reading
stopped is not looked at.
-/

namespace NullScript

namespace Parsed

/-- The program with one more statement in front. -/
def consStatement (s : Statement) (p : Program) : Program :=
  { p with statements := s :: p.statements }

/-- The program with one more function in front. -/
def consFunction (f : Function) (p : Program) : Program :=
  { p with functions := f :: p.functions }

instance : Cost Program := ⟨fun _ => 0⟩

/-- Reads functions and statements as long as there are any. Of several functions with one name
the first is kept, and each later one is reported. -/
def program (known : List String) (ts : List Token) : Parsed ts Program :=
  (function ts).andThen fun f us hu =>
    match f with
    | .parsed f =>
      have hu : us.length < ts.length := hu
      if f.name ∈ known then
        noting (.duplicateFunction f.name) us ((program known us).widen (Nat.le_of_lt hu))
      else
        (program (f.name :: known) us).andThen fun p vs hv =>
          give (consFunction f p) vs (by show vs.length ≤ ts.length; omega)
    | .malformed =>
      have hu : us.length < ts.length := hu
      (program known us).widen (Nat.le_of_lt hu)
    | .absent =>
      (statement us).andThen fun s vs hv =>
        match s with
        | .parsed s =>
          have hv : vs.length < us.length := hv
          (program known vs).andThen fun p ws hw =>
            give (consStatement s p) ws (by show ws.length ≤ ts.length; omega)
        | .malformed =>
          have hv : vs.length < us.length := hv
          (program known vs).widen (by omega)
        | .absent => give ⟨[], []⟩ vs (by show vs.length ≤ ts.length; omega)
termination_by ts.length
decreasing_by all_goals omega

/-- Reads a program, and reports a token that is left. -/
def wholeProgram (ts : List Token) : Parsed ts Program :=
  let r := program [] ts
  if r.rest.isEmpty then r
  else { r with faults := r.faults ++ [⟨.invalidExpression, r.rest.length⟩] }

end Parsed

/-- The readings that a program consists of: those of comments are joined with the next one. -/
def significant : List Reading → List Reading
  | [] => []
  | r :: rs =>
    match r.token, significant rs with
    | some (.comment _), next :: others => { next with errors := r.errors ++ next.errors } :: others
    | _, others => r :: others

/-- The errors of a text, given its readings and the faults that its tokens show. The first of the
readings has `left` tokens behind it, itself included. Readings behind the last one that was asked
for are not looked at. -/
def interleave (last : Nat) : Nat → List Reading → List Fault → List SourceError
  | _, [], _ => []
  | left, r :: rs, faults =>
    let here := faults.takeWhile fun f => f.left = left
    r.errors ++ here.map (fun f => ⟨.grammar f.cause, r.position⟩) ++
      if left ≤ last then []
      else interleave last (left - 1) rs (faults.drop here.length)

/-- A program text that has been read. -/
structure SourceProgram where
  program : Program
  errors : List SourceError

/-- Reads a program text. There is a program even if there are errors: what could be kept. -/
def parseSource (limits : Limits) (source : String) : SourceProgram :=
  let rs := significant (readings limits source.toList)
  let tokens := rs.filterMap Reading.token
  let parsed := Parsed.wholeProgram tokens
  ⟨parsed.value, interleave parsed.rest.length tokens.length rs parsed.faults⟩

end NullScript
