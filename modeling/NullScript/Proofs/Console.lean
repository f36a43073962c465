import NullScript.CommandLine
import NullScript.Proofs.Outcome

/-!
# NullScript — the command line agrees with the library

On the console reports and the output of the program share one stream of bytes, and the program may
be left while its text is still being read. What is printed is nevertheless what a run gives that
keeps its reports and its output apart: the errors in the text up to the limit, or else the reports
around the output.

* `Console.takeAll_source` — what is printed of errors in the text.
* `follows_behind` — a program does the same whatever has been written before.
* `command_line_agrees` — what is printed, the exit code, and what is read of the input.
-/

namespace NullScript

-- ---------------------------------------------------------------------------
-- Reports on the console
-- ---------------------------------------------------------------------------

theorem lines_append (xs ys : List String) : lines (xs ++ ys) = lines xs ++ lines ys := by
  induction xs with
  | nil => rw [List.nil_append, lines, ByteArray.empty_append]
  | cons x xs ih => rw [List.cons_append, lines, lines, ih, ByteArray.append_assoc]

theorem lines_singleton (x : String) : lines [x] = lineBytes x := by
  rw [lines, lines, ByteArray.append_empty]

theorem Handler.takeAll_append {α : Type} (handler : Handler α) (before : α)
    (rs rs' : List Report) :
    handler.takeAll before (rs ++ rs') = handler.takeAll (handler.takeAll before rs) rs' :=
  List.foldl_append

namespace Console

variable {c : Console}

theorem takeAll_handler_cons (c : Console) (r : Report) (rs : List Report) :
    handler.takeAll c (r :: rs) = handler.takeAll (c.take r) rs := rfl

/-- What the console shows behind lines for this many reports. -/
def after (c : Console) (texts : List String) (reports : Nat) : Console :=
  { c with printed := c.printed ++ lines texts, count := c.count + reports }

theorem after_nil (c : Console) : c.after [] 0 = c := by
  rw [after, lines, ByteArray.append_empty, Nat.add_zero]

/-- Lines behind lines are shown in a row, and their reports add up. -/
theorem after_after (c : Console) (xs ys : List String) (m n : Nat) :
    (c.after xs m).after ys n = c.after (xs ++ ys) (m + n) := by
  unfold after
  rw [lines_append, ByteArray.append_assoc, Nat.add_assoc]

/-- The program is left. -/
def leave (c : Console) : Console := { c.after [givingUp] 0 with left := true }

/-- A failure is printed, and the program is not left for it. -/
theorem take_failure (hleft : c.left = false) (f : Failure) :
    c.take (.failure f) = c.after [failureLine f] 1 := by
  rw [take, hleft, after, lines_singleton]
  rfl

/-- An error in the text is printed, and it is the last one if there are too many. -/
theorem take_source (hleft : c.left = false) (e : SourceError) :
    c.take (.source e) =
      if c.count < c.maxErrors then c.after [e.message] 1 else (c.after [e.message] 1).leave := by
  rw [take, hleft, leave, after_after, after, after, lines_append, lines_singleton,
    lines_singleton, ← ByteArray.append_assoc]
  by_cases hroom : c.count < c.maxErrors
  · -- there is room for one more error
    have hmore : ¬c.maxErrors < c.count + 1 := by omega
    rw [if_pos hroom]
    exact if_neg hmore
  · -- this is the first error too many
    have hlast : c.maxErrors < c.count + 1 := by omega
    rw [if_neg hroom]
    exact if_pos hlast

/-- Once the program has been left, nothing is printed any more. -/
theorem takeAll_left (h : c.left = true) (rs : List Report) : handler.takeAll c rs = c := by
  have htake (r : Report) : c.take r = c := if_pos h
  induction rs with
  | nil => rfl
  | cons r rs ih => rw [takeAll_handler_cons, htake, ih]

/-- Failures are all printed. -/
theorem takeAll_failure (hleft : c.left = false) (failures : List Failure) :
    handler.takeAll c (failures.map .failure) =
      c.after (failures.map failureLine) failures.length := by
  -- induction on the failures, each printed behind the ones before it
  induction failures generalizing c with
  | nil => exact c.after_nil.symm
  | cons f failures ih =>
    have hbehind : handler.takeAll (c.after [failureLine f] 1) (failures.map .failure) = _ :=
      ih hleft
    rw [after_after, Nat.add_comm] at hbehind
    rw [List.map_cons, takeAll_handler_cons, take_failure hleft]
    exact hbehind

/-- Errors in the text are all printed if they are not too many. -/
theorem takeAll_source (hleft : c.left = false) {errors : List SourceError}
    (hroom : c.count + errors.length ≤ c.maxErrors) :
    handler.takeAll c (errors.map .source) =
      c.after (errors.map SourceError.message) errors.length := by
  -- induction on the errors, for each of which there is room
  induction errors generalizing c with
  | nil => exact c.after_nil.symm
  | cons e errors ih =>
    rw [List.length_cons] at hroom
    have hroom' : c.count + 1 + errors.length ≤ c.maxErrors := by omega
    have hbehind : handler.takeAll (c.after [e.message] 1) (errors.map .source) = _ :=
      ih hleft hroom'
    rw [after_after, Nat.add_comm] at hbehind
    rw [List.map_cons, takeAll_handler_cons, take_source hleft, if_pos (by omega)]
    exact hbehind

/-- At the first error too many the program is left. -/
theorem takeAll_source_leave (hleft : c.left = false) {first rest : List SourceError}
    {e : SourceError} (hfull : c.count + first.length = c.maxErrors) :
    handler.takeAll c ((first ++ e :: rest).map .source) =
      (c.after ((first ++ [e]).map SourceError.message) (first.length + 1)).leave := by
  -- the errors that fill the limit, then the one behind them; the rest is not printed
  have hfirst := takeAll_source hleft (Nat.le_of_eq hfull)
  have hnoRoom : ¬c.count + first.length < c.maxErrors := by omega
  have hleave := (@take_source (c.after (first.map SourceError.message) first.length)
    hleft e).trans (if_neg hnoRoom)
  rw [after_after] at hleave
  rw [List.map_append, Handler.takeAll_append, hfirst, List.map_cons, takeAll_handler_cons,
    hleave, takeAll_left rfl, List.map_append]
  rfl

/-- **Too many errors** in the text are printed up to the first one that is too many. -/
theorem takeAll_source_of_lt (hleft : c.left = false) (hcount : c.count ≤ c.maxErrors)
    {errors : List SourceError} (hmany : c.maxErrors < c.count + errors.length) :
    handler.takeAll c (errors.map .source) =
      (c.after ((errors.take (c.maxErrors - c.count + 1)).map SourceError.message)
        (c.maxErrors - c.count + 1)).leave := by
  -- the errors are split at the first one for which there is no room
  obtain ⟨room, hroom⟩ := Nat.exists_eq_add_of_le hcount
  have hlt : room < errors.length := by omega
  have hlength : (errors.take room).length = room := List.length_take_of_le (Nat.le_of_lt hlt)
  have hleave := @takeAll_source_leave c hleft (errors.take room) (errors.drop (room + 1))
    errors[room] (by rw [hlength, hroom])
  rw [List.getElem_cons_drop, List.take_append_drop, hlength] at hleave
  rw [hleave, hroom, Nat.add_sub_cancel_left, List.take_append_getElem]

end Console

-- ---------------------------------------------------------------------------
-- Programs that write behind something else
-- ---------------------------------------------------------------------------

variable {α : Type} {excused : Option Failure → Prop}

/-- The output with something written before. -/
def Output.behind (before : ByteArray) (o : Output) : Output :=
  { o with written := before ++ o.written }

/-- The streams with something written before. -/
def Streams.behind (before : ByteArray) (s : Streams) : Streams :=
  { s with output := s.output.behind before }

/-- The state with something written before. -/
def State.behind (before : ByteArray) (s : State) : State :=
  { s with streams := s.streams.behind before }

variable {before : ByteArray}

theorem Streams.input_behind (s : Streams) : (s.behind before).input = s.input := rfl

theorem Streams.output_behind (s : Streams) :
    (s.behind before).output = s.output.behind before := rfl

theorem State.scopes_behind (s : State) : (s.behind before).scopes = s.scopes := rfl

theorem State.streams_behind (s : State) :
    (s.behind before).streams = s.streams.behind before := rfl

/-- Writing behind something leads to the same, with that before it. -/
theorem Output.write_behind (o : Output) (bytes : ByteArray) :
    (o.behind before).write bytes = ((o.write bytes).1, (o.write bytes).2.behind before) := by
  unfold write behind
  cases o.room with
  | none =>
    dsimp only
    rw [ByteArray.append_assoc]
  | some room =>
    dsimp only
    rw [ByteArray.append_assoc]

/-- So does writing a line. -/
theorem Output.writeLine_behind (o : Output) (text : String) :
    (o.behind before).writeLine text =
      ((o.writeLine text).1, (o.writeLine text).2.behind before) := by
  unfold writeLine
  rw [write_behind]
  obtain ⟨r, o⟩ := o.write (text.toUTF8.push newlineByte)
  cases r <;> rfl

/-- `print` does the same behind something written before. -/
theorem Builtin.runPrint_behind (vs : List Value) (s : Streams) :
    runPrint vs (s.behind before) = ((runPrint vs s).1, (runPrint vs s).2.behind before) := by
  cases vs with
  | nil => rfl
  | cons v vs =>
    cases vs with
    | nil =>
      simp only [runPrint]
      rw [Streams.output_behind, Output.writeLine_behind]
      obtain ⟨r, o⟩ := s.output.writeLine v.display
      cases r <;> rfl
    | cons w vs => rfl

/-- `readInput` does not look at what has been written. -/
theorem Builtin.runReadInput_behind (s : Streams) :
    runReadInput (s.behind before) = ((runReadInput s).1, (runReadInput s).2.behind before) := by
  unfold runReadInput
  rw [Streams.input_behind]
  obtain ⟨r, input⟩ := s.input.readLine
  cases r with
  | ok line => cases line <;> rfl
  | error e => rfl

/-- Built-in functions do the same. -/
theorem Builtin.run_behind (b : Builtin) (vs : List Value) (s : Streams) :
    b.run vs (s.behind before) = ((b.run vs s).1, (b.run vs s).2.behind before) := by
  cases b with
  | print => exact runPrint_behind vs s
  | readInput => exact runReadInput_behind s
  | isNumber => rfl
  | typeName => rfl

open NullScript.Action (Follows)

/-- The second state is the first one with something written before. -/
def Behind (before : ByteArray) (s t : State) : Prop := t = s.behind before

/-- Built-in functions and the depth of calls do not see what was written before. -/
theorem abreast_behind : Abreast excused (Behind before) where
  run := by
    rintro b vs s t rfl
    unfold Action.onStreams
    rw [State.streams_behind, b.run_behind]
    obtain ⟨r, streams⟩ := b.run vs s.streams
    cases r with
    | ok a => exact ⟨_, rfl, rfl⟩
    | error e => exact .inr ⟨_, rfl, rfl⟩
  depth := by
    rintro s t rfl
    rfl

/-- A declaration does the same behind something written before. -/
theorem follows_declareVariable_behind (x : Variable) :
    Follows excused (Behind before) (declareVariable x) (declareVariable x) := by
  rintro s t rfl
  rw [declareVariable_apply, declareVariable_apply, State.scopes_behind]
  split
  · cases s.scopes.declare x with
    | error e => exact .inr ⟨_, rfl, rfl⟩
    | ok scopes => exact ⟨_, rfl, rfl⟩
  · exact .inr ⟨_, rfl, rfl⟩

/-- So does an assignment. -/
theorem follows_storeValue_behind (name : String) (v : Value) :
    Follows excused (Behind before) (storeValue name v) (storeValue name v) := by
  rintro s t rfl
  rw [storeValue_apply, storeValue_apply, State.scopes_behind]
  split
  · exact .inr ⟨_, rfl, rfl⟩
  · split
    · exact ⟨_, rfl, rfl⟩
    · exact .inr ⟨_, rfl, rfl⟩

/-- **What has been written before plays no part**: evaluation and execution do the same behind
it. -/
theorem follows_behind (setting : Setting) (steps : Nat) :
    (∀ e, Follows excused (Behind before) (evaluate setting steps e) (evaluate setting steps e)) ∧
      ∀ st, Follows excused (Behind before) (execute setting steps st)
        (execute setting steps st) := by
  -- induction on the steps: calls and rounds of loops have one step less
  induction steps with
  | zero => exact ⟨fun _ _ _ _ => .inr rfl, fun _ _ _ _ => .inr rfl⟩
  | succ steps ih =>
    have hbehind : Abreast excused (Behind before) := abreast_behind
    -- scopes are the same in both states
    have hget : ∀ s t name, Behind before s t → s.scopes.get? name = t.scopes.get? name := by
      rintro s t name rfl
      rfl
    -- so is every change of them that blocks and calls make
    have hchange (change : State → State)
        (h : ∀ s, change (s.behind before) = (change s).behind before) :
        ∀ s t, Behind before s t → Behind before (change s) (change t) := by
      rintro s t rfl
      exact h s
    have hblock : ∀ body, Follows excused (Behind before)
        (executeBlock (execute setting steps) body) (executeBlock (execute setting steps) body) :=
      fun body => follows_executeBlock (hchange .enterBlock fun _ => rfl)
        (hchange .leaveBlock fun _ => rfl) fun st _ => ih.2 st
    constructor
    · intro e
      rw [evaluate_succ]
      refine follows_evaluateWith hbehind (fun _ => rfl)
        (fun name _ s t => hget s t name) (fun e' _ => ih.1 e') fun _ f vs _ => ?_
      exact follows_callFunction hbehind.depth (.inl rfl)
        ((hblock f.body).between (hchange (.enterCall (f.bind vs)) fun _ => rfl)
          (hchange .leaveCall fun _ => rfl))
    · intro st
      rw [execute_succ]
      exact follows_executeWith hget (.inl rfl) (fun e _ => ih.1 e) (fun body _ => hblock body)
        follows_storeValue_behind follows_declareVariable_behind

-- ---------------------------------------------------------------------------
-- Programs on the console
-- ---------------------------------------------------------------------------

/-- Answers that match end alike, with something written before in the second one. -/
theorem Answer.Matches.ending?_eq {r r' : Answer α}
    (h : r.Matches (fun _ => False) (Behind before) r') :
    r'.ending? = r.ending?.map fun x => (x.1, x.2.behind before) := by
  cases r with
  | unfinished => rw [h.resolve_left id]; rfl
  | failed e s =>
    obtain ⟨t, rfl, rfl⟩ := h.resolve_left id
    rfl
  | done a s =>
    obtain ⟨t, rfl, rfl⟩ := h
    rfl

/-- Statements end in the same way behind something written before. -/
theorem ending?_executeAll_behind (setting : Setting) (steps : Nat) (body : List Statement)
    (s : State) :
    (executeAll (execute setting steps) body (s.behind before)).ending? =
      (executeAll (execute setting steps) body s).ending?.map fun x =>
        (x.1, x.2.behind before) := by
  have hfollows : Follows (fun _ => False) (Behind before)
      (executeAll (execute setting steps) body) (executeAll (execute setting steps) body) :=
    follows_executeAll fun st _ => (follows_behind setting steps).2 st
  exact (hfollows s _ rfl).ending?_eq

/-- What running a program on the console gives, by how its statements end. -/
theorem Console.interpret_eq_map_ending? (c : Console) (maxDepth steps : Nat) (input : Input)
    (p : Program) :
    c.interpret maxDepth steps input p =
      let registered := Session.register [] p.functions.byName
      let declared := handler.takeAll c (registered.1.map .failure)
      ((executeAll (execute ⟨registered.2, maxDepth⟩ steps) p.statements
        ⟨.empty, 0, ⟨input, declared.output⟩⟩).ending?).map fun x =>
          (handler.takeAll (declared.behind x.2.streams.output) (x.1.toList.map .failure),
            x.2.streams.input) := by
  unfold interpret
  dsimp only
  generalize executeAll _ p.statements _ = r
  cases r <;> rfl

/-- The console behind a program that has been run. -/
def Console.behindRun (c : Console) (i : Interpretation) : Console :=
  { c with
    printed := c.printed ++ lines (i.redefined.map failureLine) ++
      i.session.state.streams.output.written ++ lines (i.failure.toList.map failureLine)
    count := c.count + i.failures.length }

/-- **A program on the console** does what it does with an output of its own. What it writes there
is printed behind the functions that are left out and before the failure that ends it. -/
theorem Console.interpret_eq {c : Console} (hleft : c.left = false) (maxDepth steps : Nat)
    (input : Input) (p : Program) :
    c.interpret maxDepth steps input p =
      ((Session.new ⟨input, ⟨.empty, none, false⟩⟩).interpret maxDepth steps p).map fun i =>
        (c.behindRun i, i.session.state.streams.input) := by
  rw [interpret_eq_map_ending?, Session.interpret_eq_map_ending?]
  dsimp only
  rw [takeAll_failure hleft]
  -- the functions that are left out have been reported when the statements start
  generalize hdeclared : c.after _ _ = declared
  have hoff : declared.left = false := by rw [← hdeclared]; exact hleft
  -- the statements start in a new session, behind what has been printed for them
  have hstart : (⟨.empty, 0, ⟨input, declared.output⟩⟩ : State) =
      (Session.new ⟨input, ⟨.empty, none, false⟩⟩).state.behind declared.printed := by
    rw [State.behind, Streams.behind, Output.behind]
    exact congrArg (fun written => State.mk .empty 0 ⟨input, ⟨written, none, false⟩⟩)
      ByteArray.append_empty.symm
  have hfunctions : (Session.new ⟨input, ⟨.empty, none, false⟩⟩).functionsFor p =
    (Session.register [] p.functions.byName).2 := rfl
  rw [hstart, ending?_executeAll_behind, Option.map_map, Option.map_map, hfunctions]
  congr 1
  -- both endings show the same lines: left-out functions, the output, the failure
  funext x
  refine Prod.ext ?_ rfl
  refine (@takeAll_failure (declared.behind _) hoff _).trans ?_
  rw [← hdeclared]
  unfold after behind behindRun
  dsimp only
  rw [Nat.add_assoc, ← List.length_append]
  rfl

-- ---------------------------------------------------------------------------
-- Runs from the command line
-- ---------------------------------------------------------------------------

namespace Invocation

variable (i : Invocation) (steps : Nat) (input : ByteArray) (text : String)

/-- A text with errors is not run, and leaves what has been printed of them. -/
theorem run_of_count_pos {read : Console} (hcount : 0 < read.count)
    (hread : Console.handler.takeAll (.new i.maxErrors)
      ((parseSource .default text).errors.map .source) = read) :
    i.run steps input text = some ⟨1, read.printed, input.data.toList⟩ := by
  have hstop : (read.left || 0 < read.count) = true := by
    rw [decide_eq_true hcount, Bool.or_true]
  unfold run prepare
  dsimp only
  rw [hread, if_pos hstop]
  exact congrArg (fun code => some (Exit.mk code read.printed input.data.toList)) (if_pos hstop)

/-- Errors in the text that are not too many are all printed. -/
theorem run_of_errors (h : (parseSource .default text).errors ≠ [])
    (hroom : (parseSource .default text).errors.length ≤ i.maxErrors) :
    i.run steps input text = some ⟨1,
      lines ((parseSource .default text).errors.map SourceError.message), input.data.toList⟩ := by
  have hroom' : 0 + (parseSource .default text).errors.length ≤ i.maxErrors := by omega
  -- the console starts without lines, so the limit is all the room there is
  have hread := @Console.takeAll_source (.new i.maxErrors) rfl _ hroom'
  have hcount : 0 < 0 + (parseSource .default text).errors.length := by
    have := List.length_pos_iff.mpr h
    omega
  rw [run_of_count_pos i steps input text hcount hread]
  exact congrArg (fun printed => some (Exit.mk 1 printed input.data.toList))
    ByteArray.empty_append

/-- Of too many errors in the text the first ones are printed. -/
theorem run_of_tooManyErrors (h : i.maxErrors < (parseSource .default text).errors.length) :
    i.run steps input text = some ⟨1,
      lines (((parseSource .default text).errors.take (i.maxErrors + 1)).map
        SourceError.message ++ [givingUp]), input.data.toList⟩ := by
  have hmany : i.maxErrors < 0 + (parseSource .default text).errors.length := by omega
  have hread := @Console.takeAll_source_of_lt (.new i.maxErrors) rfl (Nat.zero_le _) _ hmany
  rw [Console.leave, Console.after_after] at hread
  have hcount : 0 < 0 + (i.maxErrors + 1 + 0) := by omega
  rw [run_of_count_pos i steps input text hcount hread]
  exact congrArg (fun printed => some (Exit.mk 1 printed input.data.toList))
    ByteArray.empty_append

/-- A text without errors is run. -/
theorem run_of_noErrors (h : (parseSource .default text).errors = []) :
    i.run steps input text =
      ((Session.new (plainStreams input)).interpret i.maxDepth steps
        (parseSource .default text).program).map fun j =>
          ((Console.new i.maxErrors).behindRun j).exit j.session.state.streams.input.bytes := by
  -- nothing is reported, so the program is run
  have hprepare : i.prepare text =
      .ok (.new i.maxErrors, (parseSource .default text).program) := by
    unfold prepare
    dsimp only
    rw [h]
    rfl
  unfold run
  rw [hprepare]
  show i.execute steps input (.new i.maxErrors) (parseSource .default text).program = _
  rw [execute, Console.interpret_eq rfl, Option.map_map]
  rfl

end Invocation

/-- The functions that are left out follow from the program. -/
theorem Session.redefined_of_interpret {streams : Streams} {maxDepth steps : Nat} {p : Program}
    {i : Interpretation} (h : (Session.new streams).interpret maxDepth steps p = some i) :
    i.redefined = p.redefined.map .builtinRedefined := by
  rw [interpret_eq_map_ending?] at h
  obtain ⟨x, -, rfl⟩ := Option.map_eq_some_iff.mp h
  exact register_fst _ _

/-- What is left behind a program of which nothing had been printed. -/
theorem Console.exit_behindRun (maxErrors : Nat) (i : Interpretation) (unread : List UInt8) :
    ((Console.new maxErrors).behindRun i).exit unread =
      ⟨if i.failures.isEmpty then 0 else 1,
        lines (i.redefined.map failureLine) ++ i.session.state.streams.output.written ++
          lines (i.failure.toList.map failureLine), unread⟩ := by
  unfold exit behindRun new
  dsimp only
  rw [ByteArray.empty_append]
  cases i.failures with
  | nil => rfl
  | cons f failures => simp

/-- **The command line agrees with the library.** A text without errors is run as from the library:
the lines for the functions that are left out, what the program writes, and the line for the failure
that ends it are printed, and the exit code tells whether anything was reported. Errors in the text
are printed in order, at most one more than the limit and then that there are too many; nothing is
run then, and nothing of the input is read. -/
theorem command_line_agrees {args : List String} {contentOf : String → Option ByteArray}
    {i : Invocation} {text : String} (hargs : Invocation.ofArguments args = .run i)
    (htext : i.script.content? contentOf = some text) (steps : Nat) (input : ByteArray) :
    let parsed := parseSource .default text
    let ran := runSource ⟨.default, i.maxDepth⟩ steps (Invocation.plainStreams input) text
    let exit := commandLine steps args contentOf input
    (parsed.errors = [] →
      (ran = none → exit = none) ∧
      ∀ r, ran = some r → ∃ final : Option Failure,
        r.reports =
          (parsed.program.redefined.map Failure.builtinRedefined ++ final.toList).map .failure ∧
        exit = some ⟨if r.reports.isEmpty then 0 else 1,
          lines (parsed.program.redefined.map fun name => failureLine (.builtinRedefined name)) ++
            r.streams.output.written ++ lines (final.toList.map failureLine),
          r.streams.input.bytes⟩) ∧
    (parsed.errors ≠ [] → parsed.errors.length ≤ i.maxErrors →
      exit = some ⟨1, lines (parsed.errors.map SourceError.message), input.data.toList⟩) ∧
    (i.maxErrors < parsed.errors.length →
      exit = some ⟨1, lines ((parsed.errors.take (i.maxErrors + 1)).map SourceError.message ++
        [givingUp]), input.data.toList⟩) := by
  -- the arguments ask for a run, and the text is there
  have hexit : commandLine steps args contentOf input = i.run steps input text := by
    unfold commandLine
    rw [hargs]
    dsimp only
    rw [htext]
  intro parsed ran exit
  rw [show exit = i.run steps input text from hexit]
  refine ⟨fun herrors => ?_, i.run_of_errors steps input text,
    i.run_of_tooManyErrors steps input text⟩
  -- the library runs the text from the same streams
  have hran := runInto_of_noErrors Handler.counts_collecting [] ⟨.default, i.maxDepth⟩ steps
    (Invocation.plainStreams input) text herrors
  rw [show ran = _ from hran, i.run_of_noErrors steps input text herrors]
  refine ⟨fun hnone => ?_, fun r hr => ?_⟩
  · -- the run does not come to its end on either side
    rw [Option.map_eq_none_iff] at hnone ⊢
    exact hnone
  · -- it does, and the failure that ends it is the last line and the last report
    obtain ⟨j, hj, rfl⟩ := Option.map_eq_some_iff.mp hr
    have hj' : (Session.new (Invocation.plainStreams input)).interpret i.maxDepth steps
      (parseSource .default text).program = some j := hj
    have hredefined := Session.redefined_of_interpret hj'
    refine ⟨j.failure, ?_, ?_⟩
    · rw [Handler.takeAll_collecting, List.nil_append, Interpretation.failures, hredefined]
    · rw [hj', Option.map_some, Console.exit_behindRun, hredefined, Handler.takeAll_collecting,
        List.nil_append, List.isEmpty_map, List.map_map]
      rfl

/-- One error more than the limit, and a program that prints a line between its two failures. -/
theorem command_line_agrees_overriding :
    Invocation.ofArguments ["--max-errors", "1", "--std-in", "var )"] =
        .run ⟨.code "var )", 1, 200⟩ ∧
      Invocation.ofArguments ["--std-in", overriding] = .run ⟨.code overriding, 10, 200⟩ ∧
      commandLine 9 ["--max-errors", "1", "--std-in", "var )"] (fun _ => none) .empty =
        some ⟨1, lines (["Error at line: 1, column: 5: Expected a type.",
          "Error at line: 1, column: 5: Invalid expression."] ++ [givingUp]), []⟩ ∧
      ∃ (r : Run) (final : Option Failure),
        r.reports = [.failure (.builtinRedefined "print"),
          .failure (.typeMismatch (.slot Ty.string.orNull) (some .int))] ∧
        r.streams.output.written.data.toList = utf8 "a\n" ∧
        r.reports = ([Failure.builtinRedefined "print"] ++ final.toList).map .failure ∧
        commandLine 9 ["--std-in", overriding] (fun _ => none) .empty =
          some ⟨1, lines [failureLine (.builtinRedefined "print")] ++
            r.streams.output.written ++ lines (final.toList.map failureLine),
            r.streams.input.bytes⟩ := by
  -- the two command lines and the two texts, evaluated
  have hargs : Invocation.ofArguments ["--max-errors", "1", "--std-in", "var )"] =
      .run ⟨.code "var )", 1, 200⟩ := by decide +kernel
  have hargs' : Invocation.ofArguments ["--std-in", overriding] =
      .run ⟨.code overriding, 10, 200⟩ := by decide +kernel
  have herrors : (parseSource .default "var )").errors =
      [⟨.grammar .typeExpected, ⟨1, 5, 4⟩⟩, ⟨.grammar .invalidExpression, ⟨1, 5, 4⟩⟩] := by
    decide +kernel
  have hnone : (parseSource .default overriding).errors = [] := by decide +kernel
  have hredefined : (parseSource .default overriding).program.redefined = ["print"] := by
    decide +kernel
  have hran : (runSource ⟨.default, 200⟩ 9 (Invocation.plainStreams .empty) overriding).map
      (fun r => (r.reports, r.streams.output.written.data.toList)) =
      some ([.failure (.builtinRedefined "print"),
        .failure (.typeMismatch (.slot Ty.string.orNull) (some .int))], utf8 "a\n") := by
    decide +kernel
  -- the run prints a line between its two failures
  obtain ⟨r, hr, hreports⟩ := Option.map_eq_some_iff.mp hran
  obtain ⟨hreports, hwritten⟩ := Prod.mk.inj hreports
  refine ⟨hargs, hargs', ?_, r, ?_⟩
  · have hmany := (@command_line_agrees _ (fun _ => none) _ _ hargs rfl 9 .empty).2.2
    rw [herrors] at hmany
    exact hmany (by decide)
  · obtain ⟨final, hfinal, hexit⟩ :=
      ((@command_line_agrees _ (fun _ => none) _ _ hargs' rfl 9 .empty).1 hnone).2 r hr
    rw [hredefined] at hfinal hexit
    rw [hreports] at hexit
    exact ⟨final, hreports, hwritten, hfinal, hexit⟩

end NullScript
