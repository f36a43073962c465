import NullScript.Proofs.Reachable
import NullScript.Proofs.Simulation

/-!
# NullScript — programs without loops come to their end

A call jumps to a body that is no part of the call, so the size of what is left to do may grow with
every call. What shrinks is the number of further calls that may be nested. A part of a program that
has no loops comes to its end within a number of steps that is bounded by its own size and, for each
further call that may be nested, the size of all functions together.

* `ends_of_loopFree` — the bound on the steps, from which the end is reached.
* `interpret_terminates` — for a program without loops, run where no function with loops has been
  declared before, there is a number of steps from which on it gives one and the same result.
* `earlier_loop_never_ends` — what was declared before does count.
-/

namespace NullScript

-- ---------------------------------------------------------------------------
-- No loops
-- ---------------------------------------------------------------------------

mutual

/-- No loop occurs in the statement. -/
def Statement.loopFree : Statement → Bool
  | .branch _ body otherwise => allLoopFree body && otherwiseLoopFree otherwise
  | .loop _ _ => false
  | .giveBack _ => true
  | .perform _ => true
  | .assign _ _ => true
  | .declare _ _ _ _ => true

/-- No loop occurs in the statements. -/
def allLoopFree : List Statement → Bool
  | [] => true
  | st :: rest => st.loopFree && allLoopFree rest

/-- No loop occurs in the second block of a branch, if it has one. -/
def otherwiseLoopFree : Option (List Statement) → Bool
  | none => true
  | some body => allLoopFree body

end

/-- A statement among statements without loops has none. -/
theorem loopFree_of_mem {body : List Statement} (h : allLoopFree body = true) {st : Statement}
    (hst : st ∈ body) : st.loopFree = true := by
  induction body with
  | nil => cases hst
  | cons first rest ih =>
    rw [allLoopFree, Bool.and_eq_true] at h
    rcases List.mem_cons.mp hst with rfl | hst
    · exact h.1
    · exact ih h.2 hst

/-- The blocks of a statement without loops have none either. -/
theorem Statement.allLoopFree_of_mem_blocks {st : Statement} (h : st.loopFree = true)
    {body : List Statement} (hbody : body ∈ st.blocks) : allLoopFree body = true := by
  cases st with
  | branch condition body' otherwise =>
    rw [loopFree, Bool.and_eq_true] at h
    rcases List.mem_cons.mp hbody with rfl | hbody
    · exact h.1
    · cases otherwise with
      | none => cases hbody
      | some other =>
        rw [Option.toList_some, List.mem_singleton] at hbody
        rw [hbody]
        exact h.2
  | loop condition body' => cases h
  | _ => cases hbody

/-- No loop occurs in the body of a function of the table. -/
def FunctionTable.LoopFree (table : FunctionTable) : Prop :=
  ∀ f ∈ table, allLoopFree f.body = true

/-- No loop occurs among the statements and in the functions of the program. -/
structure Program.LoopFree (p : Program) : Prop where
  statements : allLoopFree p.statements = true
  functions : p.functions.LoopFree

-- ---------------------------------------------------------------------------
-- Sizes
-- ---------------------------------------------------------------------------

/-- An operand of a chain is smaller than the chain. -/
theorem sizeOf_lt_of_mem_map_snd {Op : Type} [SizeOf Op] {rest : List (Op × Expr)} {e : Expr}
    (h : e ∈ rest.map Prod.snd) : sizeOf e < sizeOf rest := by
  obtain ⟨⟨op, e'⟩, hmem, rfl⟩ := List.mem_map.mp h
  have hlt := List.sizeOf_lt_of_mem hmem
  rw [Prod.mk.sizeOf_spec] at hlt
  show sizeOf e' < sizeOf rest
  omega

/-- The parts of an expression are smaller. -/
theorem Expr.sizeOf_lt_of_mem_parts {e e' : Expr} (h : e' ∈ e.parts) :
    sizeOf e' < sizeOf e := by
  cases e with
  | disjunction first others | conjunction first others =>
    rcases List.mem_cons.mp h with rfl | h
    · simp only [disjunction.sizeOf_spec, conjunction.sizeOf_spec]
      omega
    · have hothers := List.sizeOf_lt_of_mem h
      simp only [disjunction.sizeOf_spec, conjunction.sizeOf_spec]
      omega
  | additive first others | multiplicative first others =>
    rcases List.mem_cons.mp h with rfl | h
    · simp only [additive.sizeOf_spec, multiplicative.sizeOf_spec]
      omega
    · have hothers := sizeOf_lt_of_mem_map_snd h
      simp only [additive.sizeOf_spec, multiplicative.sizeOf_spec]
      omega
  | comparison left _ right | orElse left right =>
    simp only [parts, List.mem_cons, List.not_mem_nil, or_false] at h
    simp only [comparison.sizeOf_spec, orElse.sizeOf_spec]
    rcases h with rfl | rfl <;> omega
  | cast operand _ | unary _ operand =>
    rw [parts, List.mem_singleton] at h
    subst h
    simp only [cast.sizeOf_spec, unary.sizeOf_spec]
    omega
  | literal d | identifier name => cases h
  | call name arguments =>
    rw [parts] at h
    have harguments := List.sizeOf_lt_of_mem h
    rw [call.sizeOf_spec]
    omega

/-- The expressions of a statement are smaller. -/
theorem Statement.sizeOf_lt_of_mem_parts {st : Statement} {e : Expr} (h : e ∈ st.parts) :
    sizeOf e < sizeOf st := by
  cases st with
  | branch condition _ _ | loop condition _ | perform condition | assign _ condition =>
    rw [parts, List.mem_singleton] at h
    subst h
    simp only [branch.sizeOf_spec, loop.sizeOf_spec, perform.sizeOf_spec, assign.sizeOf_spec]
    omega
  | giveBack value | declare _ _ _ value =>
    cases value with
    | none => cases h
    | some e' =>
      rw [parts, Option.toList_some, List.mem_singleton] at h
      subst h
      simp only [giveBack.sizeOf_spec, declare.sizeOf_spec, Option.some.sizeOf_spec]
      omega

/-- The statements in the blocks of a statement are smaller. -/
theorem Statement.sizeOf_lt_of_mem_blocks {st st' : Statement} {body : List Statement}
    (hbody : body ∈ st.blocks) (h : st' ∈ body) : sizeOf st' < sizeOf st := by
  have hlt := List.sizeOf_lt_of_mem h
  cases st with
  | branch condition body' otherwise =>
    rw [branch.sizeOf_spec]
    rcases List.mem_cons.mp hbody with rfl | hbody
    · omega
    · cases otherwise with
      | none => cases hbody
      | some other =>
        rw [Option.toList_some, List.mem_singleton] at hbody
        subst hbody
        rw [Option.some.sizeOf_spec]
        omega
  | loop condition body' =>
    rw [blocks, List.mem_singleton] at hbody
    subst hbody
    rw [loop.sizeOf_spec]
    omega
  | _ => cases hbody

/-- The body of a declared function is smaller than all functions together. -/
theorem FunctionTable.sizeOf_body_lt {table : FunctionTable} {f : Function} (hf : f ∈ table) :
    sizeOf f.body < sizeOf table := by
  have hlt := List.sizeOf_lt_of_mem hf
  have hbody : sizeOf f.body < sizeOf f := by
    obtain ⟨name, parameters, returns, body⟩ := f
    rw [Function.mk.sizeOf_spec]
    show sizeOf body < _
    omega
  omega

-- ---------------------------------------------------------------------------
-- Coming to an end
-- ---------------------------------------------------------------------------

/-- How many steps are enough for something of a size, with so many calls in progress. -/
noncomputable def Setting.enough (setting : Setting) (size depth : Nat) : Nat :=
  size + (setting.maxDepth - depth) * sizeOf setting.functions

/-- A part needs fewer steps than the whole. -/
theorem Setting.enough_lt (setting : Setting) (depth : Nat) {size size' : Nat}
    (h : size < size') : setting.enough size depth < setting.enough size' depth :=
  Nat.add_lt_add_right h _

/-- A statement of the body of a function needs fewer steps than any call of the function, since
fewer further calls may be nested. -/
theorem Setting.enough_body_lt {setting : Setting} {f : Function} (hf : f ∈ setting.functions)
    {st : Statement} (hst : st ∈ f.body) {depth : Nat} (hdepth : depth < setting.maxDepth)
    (size : Nat) : setting.enough (sizeOf st) (depth + 1) < setting.enough size depth := by
  have hst' := List.sizeOf_lt_of_mem hst
  have hbody := FunctionTable.sizeOf_body_lt hf
  have hleft : setting.maxDepth - depth = (setting.maxDepth - (depth + 1)) + 1 := by omega
  unfold enough
  rw [hleft, Nat.succ_mul]
  omega

/-- An action comes to an end from every state with so many calls in progress, and leaves a state
with as many. -/
abbrev Action.Ends {α : Type} (depth : Nat) (m : Action α) : Prop :=
  Action.Keeps False (fun s => s.depth = depth) (fun _ => True) m

/-- A declaration comes to an end. -/
theorem ends_declareVariable (depth : Nat) (x : Variable) :
    (declareVariable x).Ends depth := by
  intro s hs
  rw [declareVariable_apply]
  split
  · cases s.scopes.declare x with
    | error e => exact hs
    | ok scopes => exact ⟨hs, trivial⟩
  · exact hs

/-- Storing a value comes to an end. -/
theorem ends_storeValue (depth : Nat) (name : String) (v : Value) :
    (storeValue name v).Ends depth := by
  intro s hs
  rw [storeValue_apply]
  split
  · exact hs
  · split
    · exact ⟨hs, trivial⟩
    · exact hs

theorem ends_executeBlock {exec : Statement → Action Flow} {depth : Nat} {body : List Statement}
    (hexec : ∀ st ∈ body, (exec st).Ends depth) : (executeBlock exec body).Ends depth :=
  (keeps_executeAll trivial hexec).between (fun _ hs => hs) fun _ hs => hs

/-- A call comes to an end if the statements of its body do, with one call more in progress. -/
theorem ends_callFunction {setting : Setting} {exec : Statement → Action Flow} {depth : Nat}
    {f : Function} (vs : List Value)
    (hexec : depth < setting.maxDepth → ∀ st ∈ f.body, (exec st).Ends (depth + 1)) :
    (callFunction setting exec f vs).Ends depth := by
  intro s hs
  rw [callFunction_apply]
  split
  · exact hs
  · rename_i hdeep
    rw [hs, Nat.not_le] at hdeep
    -- the depth goes up by one for the body, and down behind it
    have hbody : (Action.inCall (f.bind vs) (executeBlock exec f.body)).Ends depth :=
      (ends_executeBlock (hexec hdeep)).between (fun t ht => congrArg (· + 1) ht)
        fun t ht => congrArg (· - 1) ht
    exact hbody.bind (fun _ _ => Action.keeps_lift fun _ _ => trivial) s hs

/-- One step of execution comes to an end if its parts do. -/
theorem ends_executeWith {eval : Expr → Action Value} {exec : Statement → Action Flow}
    {depth : Nat} {st : Statement} (hst : st.loopFree = true)
    (heval : ∀ e ∈ st.parts, (eval e).Ends depth)
    (hblock : ∀ body ∈ st.blocks, (executeBlock exec body).Ends depth) (rounds : Nat) :
    (executeWith eval exec rounds st).Ends depth := by
  have hkeeps : Action.Keeps False (fun s => s.depth = depth) (Flow.Gives fun _ => True)
      (executeWith eval exec rounds st) := by
    refine keeps_executeWith trivial ?_ heval
      (fun body hbody => (hblock body hbody).imp fun flow _ => flow.gives_true) ?_ ?_
    -- loops are excluded, which is what `loopFree` is for
    · rintro condition body rfl
      cases hst
    · rintro target value rfl
      refine keeps_executeAssign (heval value List.mem_cons_self) fun name v _ => ?_
      exact (ends_storeValue depth name v).imp fun flow _ => flow.gives_true
    · intro isConst name type value v _ _
      exact (ends_declareVariable depth _).imp fun flow _ => flow.gives_true
  exact hkeeps.imp fun _ _ => trivial

/-- **What has no loops comes to an end** within any number of steps that is enough for its size,
if the declared functions have no loops either. -/
theorem ends_of_loopFree {setting : Setting} (hfunctions : setting.functions.LoopFree)
    (steps depth : Nat) :
    (∀ e, setting.enough (sizeOf e) depth < steps → (evaluate setting steps e).Ends depth) ∧
      ∀ st : Statement, st.loopFree = true → setting.enough (sizeOf st) depth < steps →
        (execute setting steps st).Ends depth := by
  -- on the steps, for every number of calls in progress, as a call changes that number
  induction steps generalizing depth with
  | zero =>
    constructor
    · intro e h
      exact absurd h (Nat.not_lt_zero _)
    · intro st _ h
      exact absurd h (Nat.not_lt_zero _)
  | succ steps ih =>
    constructor
    · intro e henough
      have hle : setting.enough (sizeOf e) depth ≤ steps := Nat.le_of_lt_succ henough
      have hparts : ∀ e' ∈ e.parts, (evaluate setting steps e').Ends depth := by
        intro e' he'
        have hlt := setting.enough_lt depth (Expr.sizeOf_lt_of_mem_parts he')
        exact (ih depth).1 e' (Nat.lt_of_lt_of_le hlt hle)
      rw [evaluate_succ]
      refine keeps_evaluateWith closedUnderOperations_true (fun _ _ hs => hs)
        (fun _ _ _ _ _ => trivial) hparts fun _ f vs hf _ _ => ?_
      have hmem : f ∈ setting.functions := List.mem_of_find?_eq_some hf
      refine ends_callFunction vs fun hdepth st hst => ?_
      -- the body is larger than the call, but one call fewer may be nested in it
      have hlt := Setting.enough_body_lt hmem hst hdepth (sizeOf e)
      exact (ih (depth + 1)).2 st (loopFree_of_mem (hfunctions f hmem) hst)
        (Nat.lt_of_lt_of_le hlt hle)
    · intro st hst henough
      have hle : setting.enough (sizeOf st) depth ≤ steps := Nat.le_of_lt_succ henough
      have hparts : ∀ e ∈ st.parts, (evaluate setting steps e).Ends depth := by
        intro e he
        have hlt := setting.enough_lt depth (Statement.sizeOf_lt_of_mem_parts he)
        exact (ih depth).1 e (Nat.lt_of_lt_of_le hlt hle)
      have hblocks : ∀ body ∈ st.blocks,
          (executeBlock (execute setting steps) body).Ends depth := by
        intro body hbody
        refine ends_executeBlock fun st' hst' => ?_
        have hloopFree := loopFree_of_mem (Statement.allLoopFree_of_mem_blocks hst hbody) hst'
        have hlt := setting.enough_lt depth (Statement.sizeOf_lt_of_mem_blocks hbody hst')
        exact (ih depth).2 st' hloopFree (Nat.lt_of_lt_of_le hlt hle)
      rw [execute_succ]
      exact ends_executeWith hst hparts hblocks steps

-- ---------------------------------------------------------------------------
-- Programs
-- ---------------------------------------------------------------------------

/-- From some number of steps on, statements without loops end in one and the same way. -/
theorem exists_executeAll_eq {setting : Setting} (hfunctions : setting.functions.LoopFree)
    {body : List Statement} (hbody : allLoopFree body = true) (s : State) :
    ∃ n, executeAll (execute setting n) body s ≠ .unfinished ∧
      ∀ m ≥ n, executeAll (execute setting m) body s = executeAll (execute setting n) body s := by
  have hends : (executeAll (execute setting (setting.enough (sizeOf body) s.depth)) body).Ends
      s.depth := by
    refine keeps_executeAll trivial fun st hst => ?_
    exact (ends_of_loopFree hfunctions _ s.depth).2 st (loopFree_of_mem hbody hst)
      (setting.enough_lt s.depth (List.sizeOf_lt_of_mem hst))
  have hfinished : executeAll (execute setting (setting.enough (sizeOf body) s.depth)) body s ≠
      .unfinished := by
    intro h
    -- an action that ends is not left unfinished
    have hs := hends s rfl
    rw [h] at hs
    exact hs
  refine ⟨setting.enough (sizeOf body) s.depth, hfinished, fun m hm => ?_⟩
  -- more steps make no difference to a run that has come to its end
  have hfollows := follows_executeAll fun st (_ : st ∈ body) =>
    (follows_more_steps setting hm).2 st
  exact (hfollows s s rfl).eq hfinished

/-- Registering functions without loops adds none to the table. -/
theorem FunctionTable.LoopFree.register {table : FunctionTable} (htable : table.LoopFree)
    {fs : List Function} (hfs : ∀ f ∈ fs, allLoopFree f.body = true) :
    FunctionTable.LoopFree (Session.register table fs).2 := by
  induction fs generalizing table with
  | nil => exact htable
  | cons f fs ih =>
    rw [List.forall_mem_cons] at hfs
    rw [Session.register]
    split
    · exact ih htable hfs.2
    · refine ih (fun g hg => ?_) hfs.2
      rcases List.mem_cons.mp hg with rfl | hg
      · exact hfs.1
      · exact htable g (List.mem_filter.mp hg).1

/-- No loop occurs in what a program runs in a session: neither among its statements nor in the
body of a function, be it the program's own or one that was declared before. -/
structure Program.LoopFreeIn (p : Program) (s : Session) : Prop where
  statements : allLoopFree p.statements = true
  functions : (s.functionsFor p).LoopFree

/-- **Programs without loops terminate**, whatever the state of the session and the limit on nested
calls: from some number of steps on, running the program gives a result, and always the same one.
A function that was declared before may be called, so unless the program declares one of the same
name its body counts. There are no such functions in a new session, and none with loops as long as
no program with loops has run. -/
theorem interpret_terminates (maxDepth : Nat) (s : Session) (p : Program) :
    (p.LoopFreeIn s → ∃ n i, ∀ m ≥ n, s.interpret maxDepth m p = some i) ∧
    (p.LoopFree → s.functions.LoopFree → p.LoopFreeIn s ∧
      ∀ m i, s.interpret maxDepth m p = some i → i.session.functions.LoopFree) := by
  constructor
  · rintro ⟨hstatements, hfunctions⟩
    obtain ⟨n, hfinished, hsame⟩ :=
      @exists_executeAll_eq ⟨s.functionsFor p, maxDepth⟩ hfunctions _ hstatements s.state
    -- the result of a run is made from the way its statements end
    have hresult : ∃ i, s.interpret maxDepth n p = some i := by
      rw [Session.interpret_apply]
      cases hr : executeAll (execute ⟨s.functionsFor p, maxDepth⟩ n) p.statements s.state with
      | unfinished => exact absurd hr hfinished
      | failed e t => exact ⟨_, rfl⟩
      | done flow t => exact ⟨_, rfl⟩
    obtain ⟨i, hi⟩ := hresult
    refine ⟨n, i, fun m hm => ?_⟩
    rw [← hi, Session.interpret_apply, Session.interpret_apply, hsame m hm]
  · rintro ⟨hstatements, hfunctions⟩ hs
    -- the table of the run holds old functions and those of the program
    have hall : (s.functionsFor p).LoopFree :=
      hs.register fun f hf => hfunctions f (List.mem_mergeSort.mp hf)
    refine ⟨⟨hstatements, hall⟩, fun m i hi => ?_⟩
    rw [(Session.interpret_eq_some hi).1]
    exact hall

/-- A function that calls itself without end. -/
def Function.descend : Function where
  name := "descend"
  parameters := []
  returns := .int
  body := [.giveBack (some (.call "descend" []))]

/-- Endless recursion comes to an end at the limit on nested calls. -/
theorem interpret_terminates_descend :
    Program.LoopFree ⟨[.perform (.call "descend" [])], [.descend]⟩ ∧
    ∃ n i, ∀ m ≥ n, Session.interpret (.new Session.midCall.state.streams) 200 m
      ⟨[.perform (.call "descend" [])], [.descend]⟩ = some i := by
  have hp : Program.LoopFree ⟨[.perform (.call "descend" [])], [.descend]⟩ := by
    refine ⟨by decide, fun f hf => ?_⟩
    rw [List.mem_singleton] at hf
    rw [hf]
    decide
  have hnew : (Session.new Session.midCall.state.streams).functions.LoopFree := by
    intro f hf
    cases hf
  obtain ⟨hend, hin⟩ := interpret_terminates 200 (.new Session.midCall.state.streams)
    ⟨[.perform (.call "descend" [])], [.descend]⟩
  exact ⟨hp, hend (hin hp hnew).1⟩

-- ---------------------------------------------------------------------------
-- Loops that were declared before
-- ---------------------------------------------------------------------------

/-- A loop whose condition stays true, and whose body leaves the state as it is, exhausts every
bound on its rounds. -/
theorem repeatWhile_eq_unfinished {condition : Action Bool} {body : Action Flow} {s : State}
    (hcondition : condition s = .unfinished ∨ condition s = .done true s)
    (hbody : body s = .unfinished ∨ body s = .done .next s) (rounds : Nat) :
    repeatWhile condition body rounds s = .unfinished := by
  induction rounds with
  | zero => rfl
  | succ rounds ih =>
    rw [repeatWhile, Action.bind_apply]
    rcases hcondition with hcondition | hcondition
    · rw [hcondition]
    · rw [hcondition]
      dsimp only
      rw [if_pos rfl, Action.bind_apply]
      rcases hbody with hbody | hbody
      · rw [hbody]
      · -- one round has been made in vain
        rw [hbody]
        exact ih

/-- A function that repeats an empty block without end. -/
def Function.spin : Function where
  name := "spin"
  parameters := []
  returns := .void
  body := [.loop (.literal (.bool true)) []]

/-- The body of `spin` never comes to an end. -/
theorem executeAll_spin (setting : Setting) (steps : Nat) (s : State) :
    executeAll (execute setting steps) Function.spin.body s = .unfinished := by
  have hloop : execute setting steps (.loop (.literal (.bool true)) []) s = .unfinished := by
    -- with few steps even the condition is cut short, and with more the loop runs into its bound
    cases steps with
    | zero => rfl
    | succ steps =>
      refine repeatWhile_eq_unfinished ?_ (.inr rfl) steps
      cases steps with
      | zero => exact .inl rfl
      | succ steps => exact .inr rfl
  rw [Function.spin, executeAll, Action.bind_apply, hloop]

/-- A call of `spin` never comes to an end either, if it is the declared function of its name and
the call may be made. -/
theorem evaluate_spin {setting : Setting} (hspin : setting.functions.find? "spin" = some .spin)
    (steps : Nat) {s : State} (hdepth : s.depth < setting.maxDepth) :
    evaluate setting steps (.call "spin" []) s = .unfinished := by
  cases steps with
  | zero => rfl
  | succ steps =>
    have hbuiltin : Builtin.find? "spin" = none := by decide
    rw [evaluate_succ, evaluateWith_call, call_declared _ _ _ _ hbuiltin hspin]
    -- there are no arguments, so the call is what is left
    show callFunction setting (execute setting steps) .spin [] s = .unfinished
    rw [callFunction_apply, if_neg (Nat.not_le.mpr hdepth), Action.bind_apply]
    have hcall : Action.inCall (Function.bind .spin [])
        (executeBlock (execute setting steps) Function.spin.body) s = .unfinished := by
      rw [Action.inCall, Action.between_apply, executeBlock, Action.inBlock, Action.between_apply,
        executeAll_spin]
    rw [hcall]

namespace Session

/-- What the program that declares `spin` leaves behind. It has no statements. -/
def spinning : Session := ⟨[.spin], ⟨.empty, 0, midCall.state.streams⟩⟩

/-- That session is between two programs: the one that declares `spin` has run. -/
theorem idle_spinning (maxDepth : Nat) : spinning.Idle maxDepth := by
  have hrun : (Session.new midCall.state.streams).interpret maxDepth 0 ⟨[], [.spin]⟩ =
      some ⟨[], none, spinning⟩ := by
    rw [interpret, FunctionTable.byName, List.mergeSort_singleton]
    rfl
  exact (Idle.new midCall.state.streams).interpret hrun

end Session

/-- **A loop of an earlier program** can keep a program without loops from coming to its end: the
function that holds it stays declared, and may be called. -/
theorem earlier_loop_never_ends :
    Session.spinning.Reachable 200 ∧ Program.LoopFree ⟨[.perform (.call "spin" [])], []⟩ ∧
    ∀ steps, Session.spinning.interpret 200 steps ⟨[.perform (.call "spin" [])], []⟩ = none := by
  refine ⟨.idle (Session.idle_spinning 200),
    ⟨by decide, fun f hf => absurd hf List.not_mem_nil⟩, fun steps => ?_⟩
  have hperform : execute ⟨[.spin], 200⟩ steps (.perform (.call "spin" []))
      Session.spinning.state = .unfinished := by
    cases steps with
    | zero => rfl
    | succ steps =>
      have hcall := @evaluate_spin ⟨[.spin], 200⟩ rfl steps Session.spinning.state (by decide)
      rw [execute_succ, executeWith, Action.bind_apply, hcall]
  -- a program without functions leaves the table as it was
  have hfunctions : Session.spinning.functionsFor ⟨[.perform (.call "spin" [])], []⟩ = [.spin] := by
    rw [Session.functionsFor, FunctionTable.byName, List.mergeSort_nil]
    rfl
  rw [Session.interpret_apply, hfunctions, executeAll, Action.bind_apply, hperform]

end NullScript
