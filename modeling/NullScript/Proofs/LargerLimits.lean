import NullScript.Proofs.LimitGuards
import NullScript.Proofs.LookaheadProgram
import NullScript.Proofs.Outcome

/-!
# NullScript — larger limits

Limits are guards and nothing else: a run that reports no exceeded limit is the same under larger
ones. Of the text that is so because reading it stops before the first token that could differ, and
of the program because a call that is not refused runs the same whatever the limit.

* `parseSource_eq_of_atMost` — the program of a text and its errors.
* `Session.interpret_eq_of_le` — what running a program does.
* `larger_limits_same_run` — the whole run.
-/

namespace NullScript

-- ---------------------------------------------------------------------------
-- Texts
-- ---------------------------------------------------------------------------

/-- If no limit was exceeded up to the last reading that is looked at, then under larger limits the
same errors are reported, and all tokens up to there are the same. -/
theorem interleave_guarded {rs rs' : List Reading} (h : List.Forall₂ Reading.Guarded rs rs')
    {ts ts' : List Token} (hts : rs.map Reading.token = ts.map some ++ [none])
    (hts' : rs'.map Reading.token = ts'.map some ++ [none]) {last : Nat} {faults : List Fault}
    (hlast : last ≤ ts.length)
    (hno : ∀ e ∈ interleave last ts.length rs faults, ¬e.isLimit) :
    interleave last ts.length rs' faults = interleave last ts.length rs faults ∧
      SameAbove (last - 1) ts ts' := by
  have hlength : ts'.length = ts.length := by
    have hrs := congrArg List.length hts
    have hrs' := congrArg List.length hts'
    simp only [List.length_map, List.length_append, List.length_singleton] at hrs hrs'
    have := h.length_eq
    omega
  -- on the readings, along with the tokens that each run has left
  induction h generalizing ts ts' faults with
  | nil =>
    cases ts <;> cases hts
  | @cons r r' rs rs' hr hrs ih =>
    rw [interleave, List.forall_mem_append, List.forall_mem_append] at hno
    obtain ⟨⟨herrors, -⟩, hbehind⟩ := hno
    -- the errors of this reading are reported, so it has exceeded no limit
    have hsame : r' = r := hr.eq herrors
    rw [interleave, interleave, hsame]
    cases ts with
    | nil =>
      have hstop : ([] : List Token).length ≤ last := Nat.zero_le last
      rw [if_pos hstop, if_pos hstop]
      exact ⟨rfl, .last hlength (Nat.zero_le _)⟩
    | cons t ts =>
      obtain ⟨t', ts', rfl⟩ := List.exists_cons_of_length_eq_add_one hlength
      obtain ⟨ht, htail⟩ := List.cons.inj hts
      obtain ⟨ht', htail'⟩ := List.cons.inj hts'
      have hfirst : t' = t := by
        rw [hsame, ht] at ht'
        exact (Option.some.inj ht').symm
      subst hfirst
      have hlength : ts'.length = ts.length := Nat.succ.inj hlength
      -- the last reading that is looked at is reached with as many tokens left in both
      by_cases hstop : (t' :: ts).length ≤ last
      · rw [if_pos hstop, if_pos hstop]
        exact ⟨rfl, .cons (.last hlength (Nat.le_sub_one_of_lt hstop))⟩
      · rw [if_neg hstop] at hbehind
        rw [if_neg hstop, if_neg hstop]
        have hlast : last ≤ ts.length := Nat.le_of_lt_succ (Nat.lt_of_not_le hstop)
        obtain ⟨hrest, habove⟩ := ih htail htail' hlast hbehind hlength
        exact ⟨congrArg _ hrest, .cons habove⟩

/-- **A text under larger limits** is the same program with the same errors. -/
theorem parseSource_eq_of_atMost {limits limits' : Limits} (h : limits.AtMost limits')
    {source : String} (hno : ∀ e ∈ (parseSource limits source).errors, ¬e.isLimit) :
    parseSource limits' source = parseSource limits source := by
  rw [parseSource_eq] at hno
  rw [parseSource_eq, parseSource_eq]
  have hlast := (Parsed.walk_wholeProgram (codeTokens limits source.toList)).length_le
  -- up to the last reading looked at, the reports and the tokens are the same
  obtain ⟨herrors, habove⟩ := interleave_guarded (guarded_readings h source.toList)
    (map_token_significant_readings limits _) (map_token_significant_readings limits' _) hlast hno
  generalize codeTokens limits source.toList = ts, codeTokens limits' source.toList = ts' at *
  dsimp only at herrors hno ⊢
  rw [habove.length_eq]
  by_cases hnone : (Parsed.wholeProgram ts).rest.length = 0
  · -- all tokens were looked at
    rw [hnone] at habove
    rw [habove.eq, herrors]
  · -- the parser stops before the first token that may differ
    have hagrees := Parsed.agrees_wholeProgram habove
    have hk : (Parsed.wholeProgram ts).rest.length - 1 < (Parsed.wholeProgram ts).rest.length :=
      Nat.sub_one_lt hnone
    rw [hagrees.value hk, hagrees.faults hk, (hagrees.rest hk).length_eq, herrors]

-- ---------------------------------------------------------------------------
-- Programs
-- ---------------------------------------------------------------------------

/-- Was the limit on nested calls exceeded? -/
def Failure.isLimit : Failure → Bool
  | .callTooDeep _ _ => true
  | _ => false

/-- A run may end differently if a call is refused. -/
def RefusedCall (why : Option Failure) : Prop := ∃ f, why = some f ∧ f.isLimit

/-- **A program under a larger limit on nested calls** is run in the same way. -/
theorem Session.interpret_eq_of_le {s : Session} {maxDepth maxDepth' : Nat}
    (h : maxDepth ≤ maxDepth') {steps : Nat} {p : Program} {i : Interpretation}
    (hi : s.interpret maxDepth steps p = some i) (hno : ∀ f ∈ i.failures, ¬f.isLimit) :
    s.interpret maxDepth' steps p = some i := by
  have hexec : ∀ st ∈ p.statements, Action.Follows RefusedCall Eq
      (NullScript.execute ⟨s.functionsFor p, maxDepth⟩ steps st)
      (NullScript.execute ⟨s.functionsFor p, maxDepth'⟩ steps st) := by
    intro st _
    have hfunctions : ∀ name, (Setting.mk (s.functionsFor p) maxDepth).functions.find? name =
        (Setting.mk (s.functionsFor p) maxDepth').functions.find? name := fun _ => rfl
    exact (follows_larger hfunctions (.inr ⟨fun _ => ⟨_, rfl, rfl⟩, h⟩) (.inl rfl)).2 st
  -- the two runs go on together until a call is refused, and then they need not
  have hall := follows_executeAll hexec s.state s.state rfl
  rw [interpret_eq_map_ending?] at hi ⊢
  obtain ⟨x, hx, rfl⟩ := Option.map_eq_some_iff.mp hi
  have hsame := hall.eq_of_not_excused (fun _ => ?_) fun e t hfailed => ?_
  · rw [hsame, hx]
    rfl
  · -- a run that is done was not refused a call
    rintro ⟨f, hf, -⟩
    cases hf
  · -- a run that failed by a refused call would have reported it
    rintro ⟨f, hf, hlimit⟩
    rw [hfailed] at hx
    cases hx
    refine hno f ?_ hlimit
    rw [← Option.some.inj hf]
    exact List.mem_append_right _ (List.mem_singleton.mpr rfl)

-- ---------------------------------------------------------------------------
-- Runs
-- ---------------------------------------------------------------------------

/-- Each of the limits is at most the other one. -/
structure Config.AtMost (config config' : Config) : Prop where
  limits : config.limits.AtMost config'.limits
  maxDepth : config.maxDepth ≤ config'.maxDepth

/-- Was a limit exceeded? -/
def Report.isLimit : Report → Bool
  | .source e => e.isLimit
  | .failure f => f.isLimit

/-- **Limits are guards and nothing else.** A run that comes to its end and reports no exceeded
limit ends in the same way under larger limits: with the same outcome, the same reports in the same
order, the same output and the same input left. -/
theorem larger_limits_same_run {config config' : Config} (h : config.AtMost config') {steps : Nat}
    {streams : Streams} {source : String} {run : Run}
    (hrun : runSource config steps streams source = some run)
    (hno : ∀ r ∈ run.reports, ¬r.isLimit) :
    runSource config' steps streams source = some run := by
  unfold runSource at hrun ⊢
  have hlarger (hsource : ∀ e ∈ (parseSource config.limits source).errors, ¬e.isLimit) :=
    parseSource_eq_of_atMost h.limits hsource
  by_cases herrors : (parseSource config.limits source).errors = []
  · -- the program runs, and nothing that it reports is a limit
    have hparse := hlarger (by rw [herrors]; exact nofun)
    have herrors' : (parseSource config'.limits source).errors = [] := by rw [hparse, herrors]
    rw [runInto_of_noErrors Handler.counts_collecting _ _ _ _ _ herrors] at hrun
    rw [runInto_of_noErrors Handler.counts_collecting _ _ _ _ _ herrors', hparse]
    obtain ⟨i, hi, rfl⟩ := Option.map_eq_some_iff.mp hrun
    rw [Handler.takeAll_collecting] at hno
    have hfailures : ∀ f ∈ i.failures, ¬f.isLimit := fun f hf =>
      hno (.failure f) (List.mem_map_of_mem hf)
    rw [Session.interpret_eq_of_le h.maxDepth hi hfailures]
    rfl
  · -- the program is refused for its errors, none of which is a limit
    rw [runInto_of_errors Handler.counts_collecting _ _ _ _ _ herrors] at hrun
    cases hrun
    rw [Handler.takeAll_collecting] at hno
    have hparse := hlarger fun e he => hno (.source e) (List.mem_map_of_mem he)
    have herrors' : (parseSource config'.limits source).errors ≠ [] := by rw [hparse]; exact herrors
    rw [runInto_of_errors Handler.counts_collecting _ _ _ _ _ herrors', hparse]

/-- Limits that the text below just keeps. -/
def Config.snug : Config := ⟨⟨5, 2, 1, 1, 3⟩, 2⟩

/-- A comment, a string, a double and integers, and a function that is called inside of itself. -/
def countdown : String :=
  "fun f(int n) -> int \x7b if (n == 2) \x7b return n \x7d return f(n + 1) \x7d //abc\n" ++
    "print(f(1) as string ?: \"a\") var double d = 0.5"

/-- The text runs within the limits that it just keeps, and so it does within the default ones. -/
theorem larger_limits_same_run_countdown :
    Config.snug.AtMost .default ∧
      ∃ run, runSource .snug 20 Session.midCall.state.streams countdown = some run ∧
        run.reports = [] ∧
        runSource .default 20 Session.midCall.state.streams countdown = some run := by
  have hlimits : Config.snug.AtMost .default :=
    ⟨⟨by decide, by decide, by decide, by decide, by decide⟩, by decide⟩
  -- evaluated once, under the smaller limits
  have hreports : (runSource .snug 20 Session.midCall.state.streams countdown).map
      RunInto.reports = some [] := by
    decide +kernel
  obtain ⟨run, hrun, hnone⟩ := Option.map_eq_some_iff.mp hreports
  refine ⟨hlimits, run, hrun, hnone, larger_limits_same_run hlimits hrun ?_⟩
  rw [hnone]
  exact nofun

end NullScript
