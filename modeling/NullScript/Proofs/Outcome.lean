import NullScript.Proofs.Declarations
import NullScript.Proofs.Simulation
import NullScript.Run

/-!
# NullScript — how runs end

A text with errors is rejected with their number, whatever the handler has counted before, and
nothing is executed. The run of any other text is that of its program: first the functions with the
name of a built-in one are reported and left out, then the top-level statements are executed up to
and including the first one that returns or fails, and that failure is the last thing reported.

* `executes_iff` — executing statements in order, as a relation.
* `Course.Of` — what the run of a program amounts to, whatever the order of its functions.
* `outcome_law` — how runs end, for every handler that counts.
-/

namespace NullScript

-- ---------------------------------------------------------------------------
-- Handlers that count
-- ---------------------------------------------------------------------------

namespace Handler

variable {α : Type} {handler : Handler α}

/-- Each report counts for one. -/
def Counts (handler : Handler α) : Prop :=
  ∀ before r, handler.count (handler.take before r) = handler.count before + 1

theorem counts_collecting : collecting.Counts :=
  fun before r => by simp [collecting]

theorem takeAll_nil (before : α) : handler.takeAll before [] = before := rfl

/-- Reports one after the other count for their number. -/
theorem Counts.takeAll (h : handler.Counts) (before : α) (rs : List Report) :
    handler.count (handler.takeAll before rs) = handler.count before + rs.length := by
  induction rs generalizing before with
  | nil => rfl
  | cons r rs ih =>
    show handler.count (handler.takeAll (handler.take before r) rs) = _
    rw [ih, h, List.length_cons]
    omega

/-- The handler that collects all reports has them in order, behind those from before. -/
theorem takeAll_collecting (before rs : List Report) :
    collecting.takeAll before rs = before ++ rs := by
  induction rs generalizing before with
  | nil => simp [takeAll]
  | cons r rs ih =>
    show collecting.takeAll (before ++ [r]) rs = _
    rw [ih, List.append_assoc, List.singleton_append]

end Handler

-- ---------------------------------------------------------------------------
-- Statements in order
-- ---------------------------------------------------------------------------

/-- Executing statements in order, up to and including the first one that returns or fails, ends
with this failure, if there is one, and leaves this state. -/
inductive Executes (exec : Statement → Action Flow) :
    List Statement → State → Option Failure → State → Prop where
  | nil {s : State} : Executes exec [] s none s
  | next {st : Statement} {rest : List Statement} {s t u : State} {e : Option Failure} :
    exec st s = .done .next t → Executes exec rest t e u → Executes exec (st :: rest) s e u
  | returned {st : Statement} {rest : List Statement} {s t : State} {v : Value} :
    exec st s = .done (.returned v) t → Executes exec (st :: rest) s none t
  | failed {st : Statement} {rest : List Statement} {s t : State} {e : Failure} :
    exec st s = .failed e t → Executes exec (st :: rest) s (some e) t

/-- The failure that an answer ends with, if there is one, and the state that it leaves. -/
def Answer.ending? {α : Type} : Answer α → Option (Option Failure × State)
  | .unfinished => none
  | .failed e t => some (some e, t)
  | .done _ t => some (none, t)

/-- Executing statements in order, as a relation, is what the evaluator does. -/
theorem executes_iff {exec : Statement → Action Flow} {body : List Statement} {s t : State}
    {e : Option Failure} :
    Executes exec body s e t ↔ (executeAll exec body s).ending? = some (e, t) := by
  constructor
  · intro h
    -- on the derivation: one case for each way a statement can end
    induction h with
    | nil => rfl
    | next hst _ ih =>
      rw [executeAll, Action.bind_apply, hst]
      exact ih
    | returned hst =>
      rw [executeAll, Action.bind_apply, hst]
      rfl
    | failed hst =>
      rw [executeAll, Action.bind_apply, hst]
      rfl
  · intro h
    -- on the statements, with the answer of the first one
    induction body generalizing s with
    | nil =>
      cases h
      exact .nil
    | cons st rest ih =>
      rw [executeAll, Action.bind_apply] at h
      cases hst : exec st s with
      | unfinished =>
        rw [hst] at h
        cases h
      | failed e' t' =>
        rw [hst] at h
        cases h
        exact .failed hst
      | done flow t' =>
        rw [hst] at h
        cases flow with
        | next => exact .next hst (ih h)
        | returned v =>
          cases h
          exact .returned hst

/-- What running a program gives, by how its statements end. -/
theorem Session.interpret_eq_map_ending? (s : Session) (maxDepth steps : Nat) (p : Program) :
    s.interpret maxDepth steps p =
      ((executeAll (NullScript.execute ⟨s.functionsFor p, maxDepth⟩ steps) p.statements
        s.state).ending?).map fun x =>
          ⟨(register s.functions p.functions.byName).1, x.1, ⟨s.functionsFor p, x.2⟩⟩ := by
  rw [interpret_apply]
  cases executeAll (NullScript.execute ⟨s.functionsFor p, maxDepth⟩ steps) p.statements s.state <;>
    rfl

-- ---------------------------------------------------------------------------
-- The course of a run
-- ---------------------------------------------------------------------------

/-- The bytes of a text in UTF-8. -/
def utf8 (text : String) : List UInt8 := text.toUTF8.data.toList

/-- The names of built-in functions are ordered in the same way by their characters and by their
bytes. -/
theorem Builtin.utf8_lt_of_le (a b : Builtin) (hne : a.name ≠ b.name) (hle : a.name ≤ b.name) :
    utf8 a.name < utf8 b.name := by
  revert hne hle
  -- there are finitely many built-in functions, and all pairs of their names are compared
  cases a <;> cases b <;> decide +kernel

/-- Names in strict order are all different. -/
theorem nodup_of_pairwise_utf8 {names : List String}
    (h : names.Pairwise fun a b => utf8 a < utf8 b) : names.Nodup := by
  refine h.imp ?_
  rintro a b hlt rfl
  exact List.lt_irrefl _ hlt

/-- What the run of a program amounts to. -/
structure Course where
  /-- The names of the functions that are left out. -/
  redefined : List String
  /-- The failure that ends it, if there is one. -/
  failure : Option Failure
  streams : Streams

namespace Course

/-- All that is reported. -/
def reports (c : Course) : List Report :=
  (c.redefined.map Failure.builtinRedefined ++ c.failure.toList).map .failure

/-- The run, for a handler that has taken other reports before. -/
def toRun {α : Type} (c : Course) (handler : Handler α) (before : α) : RunInto α where
  outcome := if c.reports.isEmpty then .completed else .failed
  reports := handler.takeAll before c.reports
  streams := c.streams

/-- It is the run of the program. Nothing depends on the order of the program's functions. -/
structure Of (c : Course) (p : Program) (config : Config) (steps : Nat) (streams : Streams) :
    Prop where
  /-- What is left out are the functions with the name of a built-in one. -/
  mem_redefined : ∀ name,
    name ∈ c.redefined ↔ (∃ b : Builtin, b.name = name) ∧ p.functions.declares name
  /-- They are reported in the order of their names' bytes, and each of them once. -/
  sorted : c.redefined.Pairwise fun a b => utf8 a < utf8 b
  /-- The statements are executed with all other functions. -/
  executes : ∃ (table : FunctionTable) (state : State),
    (∀ name, table.find? name =
      if (Builtin.find? name).isSome then none else p.functions.find? name) ∧
    Executes (execute ⟨table, config.maxDepth⟩ steps) p.statements ⟨.empty, 0, streams⟩
      c.failure state ∧
    state.streams = c.streams

end Course

/-- The names of the functions that are left out, in the order in which they are declared. -/
def Program.redefined (p : Program) : List String :=
  (p.functions.byName.filter fun f => (Builtin.find? f.name).isSome).map Function.name

namespace Program

variable {p : Program}

/-- The functions that are left out are those with the name of a built-in one. -/
theorem mem_redefined (name : String) :
    name ∈ p.redefined ↔ (∃ b : Builtin, b.name = name) ∧ p.functions.declares name := by
  have hdeclares : p.functions.declares name ↔ ∃ f ∈ p.functions, f.name = name := by
    simp [FunctionTable.declares, FunctionTable.find?]
  rw [hdeclares, ← Builtin.isSome_find?, redefined]
  constructor
  · intro h
    obtain ⟨f, hf, rfl⟩ := List.mem_map.mp h
    obtain ⟨hf, hbuiltin⟩ := List.mem_filter.mp hf
    -- the order by name has the same members as the table
    exact ⟨hbuiltin, f, (FunctionTable.perm_byName _).mem_iff.mp hf, rfl⟩
  · rintro ⟨hbuiltin, f, hf, rfl⟩
    exact List.mem_map_of_mem
      (List.mem_filter.mpr ⟨(FunctionTable.perm_byName _).mem_iff.mpr hf, hbuiltin⟩)

/-- The functions that are left out come in the order of their names' bytes. -/
theorem sorted_redefined (hnodup : (p.functions.map Function.name).Nodup) :
    p.redefined.Pairwise fun a b => utf8 a < utf8 b := by
  have hperm := (FunctionTable.perm_byName p.functions).map Function.name
  have hnodup : (p.functions.byName.map Function.name).Nodup := hperm.nodup_iff.mpr hnodup
  have hle := (FunctionTable.pairwise_byName p.functions).map Function.name fun _ _ => id
  have hsub : p.redefined.Sublist (p.functions.byName.map Function.name) :=
    List.filter_sublist.map Function.name
  -- they come in the order of their characters, and no name comes twice
  refine ((hle.sublist hsub).and (hnodup.sublist hsub)).imp_of_mem ?_
  rintro a b ha hb ⟨hle, hne⟩
  -- all of these names belong to built-in functions, for which both orders are the same
  obtain ⟨⟨x, rfl⟩, -⟩ := (mem_redefined a).mp ha
  obtain ⟨⟨y, rfl⟩, -⟩ := (mem_redefined b).mp hb
  exact Builtin.utf8_lt_of_le x y hne hle

end Program

/-- The order in which functions are left out follows from which ones are. -/
theorem Course.Of.redefined_eq {c : Course} {p : Program} {config : Config} {steps : Nat}
    {streams : Streams} (h : c.Of p config steps streams)
    (hnodup : (p.functions.map Function.name).Nodup) : c.redefined = p.redefined := by
  have hsorted := p.sorted_redefined hnodup
  have hperm : c.redefined.Perm p.redefined := by
    refine (List.perm_ext_iff_of_nodup (nodup_of_pairwise_utf8 h.sorted)
      (nodup_of_pairwise_utf8 hsorted)).mpr ?_
    intro name
    rw [h.mem_redefined, p.mem_redefined]
  -- two lists in strict order with the same members are the same
  refine hperm.eq_of_pairwise ?_ h.sorted hsorted
  intro a b _ _ hab hba
  exact absurd hba (List.lt_asymm hab)

/-- The functions that a program runs with in a new session: its own ones, but for those that are
left out. -/
theorem Session.find?_functionsFor_new {p : Program}
    (hnodup : (p.functions.map Function.name).Nodup) (streams : Streams) (name : String) :
    ((Session.new streams).functionsFor p).find? name =
      if (Builtin.find? name).isSome then none else p.functions.find? name := by
  have hperm := FunctionTable.perm_byName p.functions
  have hnodup' := (hperm.map Function.name).nodup_iff.mpr hnodup
  rw [functionsFor, find?_register hnodup', FunctionTable.find?_eq_of_perm hnodup hperm]
  simp [Session.new, FunctionTable.find?]

/-- It says what the interpretation of the program reported and did. -/
structure Course.Describes (c : Course) (i : Interpretation) : Prop where
  redefined : i.redefined = c.redefined.map .builtinRedefined
  failure : i.failure = c.failure
  streams : i.session.state.streams = c.streams

theorem Course.Describes.reports_eq {c : Course} {i : Interpretation} (h : c.Describes i) :
    c.reports = i.failures.map .failure := by
  rw [reports, Interpretation.failures, h.redefined, h.failure]

/-- The run is the one that the interpretation of the program makes. -/
theorem Course.Describes.toRun_eq {α : Type} {handler : Handler α} {c : Course}
    {i : Interpretation} (h : c.Describes i) (before : α) :
    c.toRun handler before =
      ⟨if i.failures.isEmpty then .completed else .failed,
        handler.takeAll before (i.failures.map .failure), i.session.state.streams⟩ := by
  rw [toRun, h.reports_eq, h.streams, List.isEmpty_map]

/-- Every interpretation has a course. -/
theorem Session.exists_describes {p : Program} {streams : Streams} {maxDepth steps : Nat}
    {i : Interpretation} (h : (Session.new streams).interpret maxDepth steps p = some i) :
    ∃ c : Course, c.Describes i := by
  rw [interpret_eq_map_ending?] at h
  obtain ⟨⟨e, t⟩, -, rfl⟩ := Option.map_eq_some_iff.mp h
  exact ⟨⟨p.redefined, e, t.streams⟩, register_fst _ _, rfl, rfl⟩

/-- **The course of a program** is what running it in a new session gives. -/
theorem Course.of_iff {c : Course} {p : Program} {config : Config} {steps : Nat}
    {streams : Streams} (hnodup : (p.functions.map Function.name).Nodup) :
    c.Of p config steps streams ↔
      ∃ i, (Session.new streams).interpret config.maxDepth steps p = some i ∧ c.Describes i := by
  have hfind := Session.find?_functionsFor_new hnodup streams
  have hregister : (Session.register (Session.new streams).functions p.functions.byName).1 =
      p.redefined.map .builtinRedefined := Session.register_fst _ _
  rw [Session.interpret_eq_map_ending?, hregister]
  constructor
  · -- both tables find the same functions under each name, so the two runs are the same
    intro h
    obtain ⟨table, state, htable, hexec, hstreams⟩ := h.executes
    have hsame : ∀ name, (Setting.mk table config.maxDepth).functions.find? name =
        (Setting.mk ((Session.new streams).functionsFor p) config.maxDepth).functions.find? name :=
      fun name => (htable name).trans (hfind name).symm
    rw [execute_eq_of_find?_eq hsame rfl] at hexec
    refine ⟨_, Option.map_eq_some_iff.mpr ⟨_, executes_iff.mp hexec, rfl⟩, ?_, rfl, hstreams⟩
    rw [h.redefined_eq hnodup]
  · -- the table of the session is one that the course may have
    rintro ⟨i, hi, hdescribes⟩
    obtain ⟨⟨e, t⟩, hend, rfl⟩ := Option.map_eq_some_iff.mp hi
    have hnames : p.redefined = c.redefined :=
      (List.map_inj_right fun _ _ h => Failure.builtinRedefined.inj h).mp hdescribes.redefined
    have hexec := executes_iff.mpr hend
    have hfailure : e = c.failure := hdescribes.failure
    refine ⟨fun name => ?_, ?_, ?_⟩
    · rw [← hnames]
      exact p.mem_redefined name
    · rw [← hnames]
      exact p.sorted_redefined hnodup
    · exact ⟨_, t, hfind, hfailure ▸ hexec, hdescribes.streams⟩

-- ---------------------------------------------------------------------------
-- The outcome
-- ---------------------------------------------------------------------------

/-- In a program that was read without an error no two functions have one name. -/
theorem nodup_names_of_errors_eq_nil {limits : Limits} {source : String}
    (h : (parseSource limits source).errors = []) :
    ((parseSource limits source).program.functions.map Function.name).Nodup := by
  -- no error of the source means that no fault of its tokens was noticed
  have hclean : (Parsed.wholeProgram (codeTokens limits source.toList)).faults = [] := by
    refine wholeProgram_faults_eq_nil ?_
    rw [h]
    exact nofun
  have hprogram : (parseSource limits source).program =
      (Parsed.wholeProgram (codeTokens limits source.toList)).value := by
    rw [← filterMap_token_significant]
    rfl
  rw [hprogram]
  exact (Parsed.wholeProgram_derived hclean).2.1

section

variable {α : Type} {handler : Handler α} (hcounts : handler.Counts) (before : α)
  (config : Config) (steps : Nat) (streams : Streams) (source : String)

include hcounts

/-- A text with errors is rejected. -/
theorem runInto_of_errors (h : (parseSource config.limits source).errors ≠ []) :
    runInto handler before config steps streams source =
      some ⟨.rejected (parseSource config.limits source).errors.length,
        handler.takeAll before ((parseSource config.limits source).errors.map .source),
        streams⟩ := by
  have hcount := hcounts.takeAll before
    ((parseSource config.limits source).errors.map Report.source)
  have hpos := List.length_pos_iff.mpr h
  rw [List.length_map] at hcount
  unfold runInto
  dsimp only
  -- the errors are counted on top of what the handler has counted before
  rw [hcount, Nat.add_sub_cancel_left, if_pos hpos]

/-- A text without errors is run, and all that the handler counts from then on are failures. -/
theorem runInto_of_noErrors (h : (parseSource config.limits source).errors = []) :
    runInto handler before config steps streams source =
      ((Session.new streams).interpret config.maxDepth steps
        (parseSource config.limits source).program).map fun i =>
          ⟨if i.failures.isEmpty then .completed else .failed,
            handler.takeAll before (i.failures.map .failure), i.session.state.streams⟩ := by
  -- more was counted if and only if something failed
  have hcount : ∀ i : Interpretation,
      handler.count before < handler.count (handler.takeAll before (i.failures.map .failure)) ↔
        ¬i.failures.isEmpty := by
    intro i
    rw [hcounts.takeAll, List.length_map, List.isEmpty_iff_length_eq_zero]
    omega
  unfold runInto
  dsimp only
  rw [h, List.map_nil, Handler.takeAll_nil, if_neg (by omega)]
  congr 1
  funext i
  by_cases hnone : i.failures.isEmpty
  -- the outcome is decided by what was counted, which says whether anything failed
  · rw [if_pos hnone, if_neg fun hlt => (hcount i).mp hlt hnone]
  · rw [if_neg hnone, if_pos ((hcount i).mpr hnone)]

end

/-- **How runs end.** A text with errors is rejected with exactly their number, however many
reports the handler has taken before; they are all that is reported, nothing is written and no
input is read. The run of any other text, if it comes to its end, is that of the program, whatever
the order of its functions, and is completed if and only if it has nothing to report. A call of a
built-in function runs that function, whatever functions there are. -/
theorem outcome_law {α : Type} {handler : Handler α} (hcounts : handler.Counts) (before : α)
    (config : Config) (steps : Nat) (streams : Streams) (source : String) :
    ((parseSource config.limits source).errors ≠ [] →
      runInto handler before config steps streams source =
        some ⟨.rejected (parseSource config.limits source).errors.length,
          handler.takeAll before ((parseSource config.limits source).errors.map .source),
          streams⟩) ∧
    ((parseSource config.limits source).errors = [] →
      (∀ run, runInto handler before config steps streams source = some run ↔
        ∃ c : Course, c.Of (parseSource config.limits source).program config steps streams ∧
          run = c.toRun handler before) ∧
      ∀ table, table.Perm (parseSource config.limits source).program.functions →
        (Session.new streams).interpret config.maxDepth steps
            ⟨(parseSource config.limits source).program.statements, table⟩ =
          (Session.new streams).interpret config.maxDepth steps
            (parseSource config.limits source).program) ∧
    ∀ (setting : Setting) (b : Builtin) (arguments : List Expr),
      evaluate setting (steps + 1) (.call b.name arguments) = (do
        let vs ← evaluateAll (evaluate setting steps) arguments
        .lift (checkArguments b.parameterKinds vs)
        .onStreams (b.run vs)) := by
  refine ⟨runInto_of_errors hcounts before config steps streams source, ?_, ?_⟩
  · intro herrors
    have hnodup := nodup_names_of_errors_eq_nil herrors
    refine ⟨fun run => ?_, fun table htable => ?_⟩
    · -- a run is the run of the course that its interpretation has
      rw [runInto_of_noErrors hcounts before config steps streams source herrors,
        Option.map_eq_some_iff]
      constructor
      · rintro ⟨i, hi, rfl⟩
        obtain ⟨c, hc⟩ := Session.exists_describes hi
        exact ⟨c, (Course.of_iff hnodup).mpr ⟨i, hi, hc⟩, (hc.toRun_eq before).symm⟩
      · rintro ⟨c, hc, rfl⟩
        obtain ⟨i, hi, hdescribes⟩ := (Course.of_iff hnodup).mp hc
        exact ⟨i, hi, (hdescribes.toRun_eq before).symm⟩
    · -- the functions are sorted by name first, which undoes any other order
      unfold Session.interpret
      rw [FunctionTable.byName_eq_of_perm hnodup htable]
  · intro setting b arguments
    rw [evaluate_succ, evaluateWith_call, call_builtin _ _ _ _ b.find?_name]

/-- A function with the name of a built-in one, which is called nevertheless: once with a text, and
once with a number. -/
def overriding : String := "fun print() { } print(\"a\") print(1) print(\"b\")"

/-- The handler has taken a report before. The first text has two errors. In the second one the
declared function is left out, and the third statement is not executed any more. -/
theorem outcome_law_overriding :
    Handler.collecting.Counts ∧
      runInto .collecting [.failure .divisionByZero] .default 9 Session.midCall.state.streams
          "var )" =
        some ⟨.rejected 2,
          [.failure .divisionByZero, .source ⟨.grammar .typeExpected, ⟨1, 5, 4⟩⟩,
            .source ⟨.grammar .invalidExpression, ⟨1, 5, 4⟩⟩],
          Session.midCall.state.streams⟩ ∧
      ∃ c : Course,
        c.Of (parseSource Config.default.limits overriding).program .default 9
          Session.midCall.state.streams ∧
        runInto .collecting [.failure .divisionByZero] .default 9 Session.midCall.state.streams
          overriding = some (c.toRun .collecting [.failure .divisionByZero]) ∧
        c.reports = [.failure (.builtinRedefined "print"),
          .failure (.typeMismatch (.slot Ty.string.orNull) (some .int))] := by
  have hlaw := outcome_law Handler.counts_collecting [.failure .divisionByZero] .default 9
    Session.midCall.state.streams
  -- the texts are read, and the second one is run, by evaluation
  have herrors : (parseSource Config.default.limits "var )").errors =
      [⟨.grammar .typeExpected, ⟨1, 5, 4⟩⟩, ⟨.grammar .invalidExpression, ⟨1, 5, 4⟩⟩] := by
    decide +kernel
  have hnone : (parseSource Config.default.limits overriding).errors = [] := by decide +kernel
  have hreports : (runInto .collecting [.failure .divisionByZero] .default 9
      Session.midCall.state.streams overriding).map RunInto.reports =
      some [.failure .divisionByZero, .failure (.builtinRedefined "print"),
        .failure (.typeMismatch (.slot Ty.string.orNull) (some .int))] := by
    decide +kernel
  refine ⟨Handler.counts_collecting, ?_, ?_⟩
  · have hrejected := (hlaw "var )").1 (by rw [herrors]; exact nofun)
    rw [herrors] at hrejected
    exact hrejected
  · obtain ⟨run, hrun, hrun'⟩ := Option.map_eq_some_iff.mp hreports
    obtain ⟨c, hc, rfl⟩ := (((hlaw overriding).2.1 hnone).1 run).mp hrun
    refine ⟨c, hc, hrun, ?_⟩
    rw [Course.toRun, Handler.takeAll_collecting] at hrun'
    exact List.append_cancel_left hrun'

end NullScript
