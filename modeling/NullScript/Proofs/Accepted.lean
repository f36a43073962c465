import NullScript.Proofs.Readings
import NullScript.Proofs.ReadsProgram

/-!
# NullScript — texts without grammar errors

A fault that the tokens show is reported, wherever reading stopped: it was noticed no later than
that, and readings are looked at up to there. So a text whose errors are all lexical has tokens
that show no fault, and those are a program of the grammar.

* `map_token_significant` — comments go, all other tokens stay.
* `exists_of_interleave` — the first fault of the tokens is among the errors.
* `accepted_is_program` — without a grammar error, the tokens are a program and it is the one
  returned.
-/

namespace NullScript

/-- Does the program depend on the token? It does not depend on comments. -/
def Token.isCode : Token → Bool
  | .comment _ => false
  | _ => true

/-- The tokens of a text other than comments, in order. -/
def codeTokens (limits : Limits) (text : List Char) : List Token :=
  ((tokenized limits text).filterMap Prod.fst).filter Token.isCode

/-- Readings of comments are joined with the next one. -/
theorem significant_cons (r : Reading) (rs : List Reading) :
    significant (r :: rs) =
      if r.token.map Token.isCode = some false then
        match significant rs with
        | [] => [r]
        | next :: others => next.precededBy r.errors :: others
      else r :: significant rs := by
  rw [significant]
  cases htoken : r.token with
  | none => rfl
  | some token =>
    cases token with
    | comment text => cases significant rs <;> rfl
    | _ => rfl

/-- Only where nothing was met is nothing left without the comments. -/
theorem significant_eq_nil {rs : List Reading} (h : significant rs = []) : rs = [] := by
  cases rs with
  | nil => rfl
  | cons r rs =>
    rw [significant_cons] at h
    split at h
    · split at h <;> cases h
    · cases h

/-- Does the program depend on what was met? The end of a text is no comment. -/
def Reading.isCode (r : Reading) : Bool := r.token.all Token.isCode

/-- Comments go, and all other readings stay where they are. -/
theorem map_place_significant {rs : List Reading} {ts : List Token}
    (h : rs.map Reading.token = ts.map some ++ [none]) :
    (significant rs).map (fun r => (r.token, r.position)) =
      (rs.filter Reading.isCode).map fun r => (r.token, r.position) := by
  -- induction on the tokens, behind the last of which the end of the text is met
  induction ts generalizing rs with
  | nil =>
    obtain ⟨r, rs, rfl, hr, hrs⟩ := List.map_eq_cons_iff.mp h
    rw [List.map_eq_nil_iff.mp hrs]
    simp [significant, Reading.isCode, hr]
  | cons t ts ih =>
    obtain ⟨r, rs, rfl, hr, hrs⟩ := List.map_eq_cons_iff.mp h
    have hrest := ih hrs
    rw [significant_cons, hr, Option.map_some]
    have hcode : r.isCode = t.isCode := by rw [Reading.isCode, hr, Option.all_some]
    -- a token other than a comment stays, at its own place
    cases ht : t.isCode with
    | true =>
      rw [if_neg (by decide), List.filter_cons_of_pos (hcode.trans ht), List.map_cons,
        hrest]
      rfl
    | false =>
      -- a comment goes, and the reading behind it keeps its token and its place
      rw [if_pos rfl, List.filter_cons_of_neg (by rw [hcode, ht]; decide), ← hrest]
      cases hnext : significant rs with
      | nil =>
        rw [significant_eq_nil hnext] at hrs
        exact absurd hrs.symm (List.append_ne_nil_of_right_ne_nil _ (List.cons_ne_nil _ _))
      | cons next others => rfl

/-- Without the comments, the tokens of the readings are those of the text other than comments. -/
theorem map_token_significant {rs : List Reading} {ts : List Token}
    (h : rs.map Reading.token = ts.map some ++ [none]) :
    (significant rs).map Reading.token = (ts.filter Token.isCode).map some ++ [none] := by
  have hplaces := congrArg (List.map Prod.fst) (map_place_significant h)
  rw [List.map_map, List.map_map] at hplaces
  have htokens : (rs.filter Reading.isCode).map Reading.token =
      (rs.map Reading.token).filter (Option.all Token.isCode) := by
    rw [List.filter_map]
    rfl
  have hsome : (ts.map some).filter (Option.all Token.isCode) =
      (ts.filter Token.isCode).map some := by
    rw [List.filter_map]
    rfl
  rw [h, List.filter_append, hsome] at htokens
  exact hplaces.trans htokens

/-- The errors of comments are not lost, and no error is added. -/
theorem forall_mem_errors_significant {P : SourceError → Prop} {rs : List Reading}
    (h : ∀ r ∈ rs, ∀ e ∈ r.errors, P e) : ∀ r ∈ significant rs, ∀ e ∈ r.errors, P e := by
  induction rs with
  | nil => exact h
  | cons r rs ih =>
    obtain ⟨hr, hrs⟩ := List.forall_mem_cons.mp h
    have hrest := ih hrs
    rw [significant_cons]
    split
    · cases hnext : significant rs with
      | nil => exact List.forall_mem_singleton.mpr hr
      | cons next others =>
        rw [hnext] at hrest
        obtain ⟨hnext, hothers⟩ := List.forall_mem_cons.mp hrest
        exact List.forall_mem_cons.mpr ⟨List.forall_mem_append.mpr ⟨hr, hnext⟩, hothers⟩
    · exact List.forall_mem_cons.mpr ⟨hr, hrest⟩

/-- The tokens of a text, and behind them the end of the text. -/
theorem map_token_readings (limits : Limits) (text : List Char) :
    (readings limits text).map Reading.token =
      ((tokenized limits text).filterMap Prod.fst).map some ++ [none] := by
  have htokens : (readings limits text).map Reading.token =
      (tokenized limits text).map Prod.fst := by
    rw [tokenized, List.map_map]
    rfl
  have hsome : ∀ ps : List (List Char × Piece), (ps.filterMap tokenAt).map Prod.fst =
      ((ps.filterMap tokenAt).filterMap Prod.fst).map some := by
    intro ps
    induction ps with
    | nil => rfl
    | cons x ps ih =>
      rw [List.filterMap_cons, tokenAt]
      cases x.2.token with
      | none => exact ih
      | some t => exact congrArg (some t :: ·) ih
  rw [htokens, tokenized_eq]
  simp [hsome]

/-- **What the parser looks at** are the tokens of the text other than comments, and its end. -/
theorem map_token_significant_readings (limits : Limits) (text : List Char) :
    (significant (readings limits text)).map Reading.token =
      (codeTokens limits text).map some ++ [none] :=
  map_token_significant (map_token_readings limits text)

/-- The tokens that the parser is given are those of the text other than comments. -/
theorem filterMap_token_significant (limits : Limits) (text : List Char) :
    (significant (readings limits text)).filterMap Reading.token = codeTokens limits text := by
  have h := congrArg (List.filterMap id) (map_token_significant_readings limits text)
  rw [List.filterMap_map] at h
  simpa using h

/-- The program of a text and its errors, given its tokens. -/
theorem parseSource_eq (limits : Limits) (source : String) :
    parseSource limits source =
      let tokens := codeTokens limits source.toList
      let parsed := Parsed.wholeProgram tokens
      ⟨parsed.value, interleave parsed.rest.length tokens.length
        (significant (readings limits source.toList)) parsed.faults⟩ := by
  rw [← filterMap_token_significant]
  rfl

/-- The first fault is reported if it was noticed no later than the last reading that is looked
at. -/
theorem exists_of_interleave {last left : Nat} {rs : List Reading} {f : Fault} {fs : List Fault}
    (hrs : left < rs.length) (hleft : f.left ≤ left) (hlast : last ≤ f.left) :
    ∃ e ∈ interleave last left rs (f :: fs), e.fault = .grammar f.cause := by
  -- Readings that come before the one at which the fault was noticed are passed over. None of them
  -- is the last one, because the fault was noticed no later than that.
  induction rs generalizing left with
  | nil => exact absurd hrs (Nat.not_lt_zero _)
  | cons r rs ih =>
    rw [interleave]
    -- the fault was noticed behind this reading, or at it
    rcases Nat.lt_or_eq_of_le hleft with hlt | rfl
    · have hmore : ¬left ≤ last := Nat.not_le_of_lt (Nat.lt_of_le_of_lt hlast hlt)
      have hlength : left - 1 < rs.length := by
        have : left < rs.length + 1 := hrs
        omega
      obtain ⟨e, he, hcause⟩ := ih hlength (Nat.le_sub_one_of_lt hlt)
      refine ⟨e, ?_, hcause⟩
      rw [List.takeWhile_cons_of_neg (by simpa using Nat.ne_of_lt hlt)]
      simpa [hmore] using .inr he
    · refine ⟨⟨.grammar f.cause, r.position⟩, ?_, rfl⟩
      simp

/-- A text in which all errors are lexical has no fault in the order of its tokens. -/
theorem wholeProgram_faults_eq_nil {limits : Limits} {source : String}
    (h : ∀ e ∈ (parseSource limits source).errors, ∀ cause, e.fault ≠ .grammar cause) :
    (Parsed.wholeProgram (codeTokens limits source.toList)).faults = [] := by
  -- every fault was noticed no later than where reading stopped
  have hwalk := Parsed.walk_wholeProgram (codeTokens limits source.toList)
  unfold parseSource at h
  dsimp only at h
  rw [filterMap_token_significant] at h
  cases hfaults : (Parsed.wholeProgram (codeTokens limits source.toList)).faults with
  | nil => rfl
  | cons f fs =>
    have hlength := congrArg List.length (map_token_significant_readings limits source.toList)
    simp only [List.length_map, List.length_append, List.length_singleton] at hlength
    rw [hfaults] at h hwalk
    obtain ⟨hlast, hleft⟩ := hwalk.left_le f List.mem_cons_self
    have hrs : (codeTokens limits source.toList).length <
        (significant (readings limits source.toList)).length := by omega
    -- so the first of them is among the errors
    obtain ⟨e, he, hcause⟩ := exists_of_interleave hrs hleft hlast
    exact absurd hcause (h e he f.cause)

/-- In a table without a name twice, every function is found under its own name. -/
theorem FunctionTable.find?_of_mem {table : FunctionTable} {f : Function}
    (hnodup : (table.map Function.name).Nodup) (hf : f ∈ table) :
    table.find? f.name = some f := by
  induction table with
  | nil => cases hf
  | cons g table ih =>
    obtain ⟨hg, hnodup⟩ := List.nodup_cons.mp hnodup
    unfold find? at ih ⊢
    -- the function at hand, or one behind it, whose name is another one
    rcases List.mem_cons.mp hf with rfl | hf
    · exact List.find?_cons_of_pos (decide_eq_true rfl)
    · have hne : g.name ≠ f.name := fun hname => hg (hname ▸ List.mem_map_of_mem hf)
      rw [List.find?_cons_of_neg (by simpa using hne)]
      exact ih hnodup hf

/-- What a text without grammar errors is: its tokens are derivable as the program that is
returned, and every function is kept under its own name. -/
theorem accepted_is_program (limits : Limits) (source : String)
    (h : ∀ e ∈ (parseSource limits source).errors, ∀ cause, e.fault ≠ .grammar cause) :
    IsProgram (codeTokens limits source.toList) (parseSource limits source).program ∧
      ((parseSource limits source).program.functions.map Function.name).Nodup ∧
      ∀ f ∈ (parseSource limits source).program.functions,
        (parseSource limits source).program.functions.find? f.name = some f := by
  have hclean := wholeProgram_faults_eq_nil h
  have hprogram : (parseSource limits source).program =
      (Parsed.wholeProgram (codeTokens limits source.toList)).value := by
    rw [← filterMap_token_significant]
    rfl
  obtain ⟨hderived, hnodup, -⟩ := Parsed.wholeProgram_derived hclean
  rw [hprogram]
  exact ⟨hderived, hnodup, fun f hf => FunctionTable.find?_of_mem hnodup hf⟩

/-- A function, a comment and a call without any separator but blanks. -/
def increment : String := "fun inc(int n) -> int \x7b return n + 1 \x7d // one more\ninc(2)"

/-- The text has no error, so it is a program of the grammar. -/
theorem accepted_is_program_increment :
    (parseSource .default increment).errors = [] ∧
      IsProgram (codeTokens .default increment.toList) (parseSource .default increment).program ∧
      ((parseSource .default increment).program.functions.map Function.name).Nodup ∧
      ∀ f ∈ (parseSource .default increment).program.functions,
        (parseSource .default increment).program.functions.find? f.name = some f := by
  have herrors : (parseSource .default increment).errors = [] := by decide +kernel
  refine ⟨herrors, accepted_is_program .default increment ?_⟩
  rw [herrors]
  exact nofun

end NullScript
