import NullScript.Proofs.Declarations
import NullScript.Proofs.Layout
import NullScript.Proofs.Shape

/-!
# NullScript — the first declaration counts

Of several functions with one name a program keeps the first one that could be read to its end, and
each later one is reported, at the token behind it. Which ones there are does not depend on that, so
they are listed first, with all others of their names.

* `Parsed.declarations` — the functions that are read, whatever their names are.
* `Parsed.find?_program` — which one is kept.
* `Parsed.filter_isDuplicate_program` — which ones are reported.
* `parsed_program_shape` — what a program text gives, with mistakes or without.
-/

namespace NullScript

-- ---------------------------------------------------------------------------
-- Declarations
-- ---------------------------------------------------------------------------

/-- A function that was read to its end, and the number of tokens behind it. -/
structure Declaration where
  function : Function
  left : Nat

/-- Those of the declarations that have the name of one before, or one of the given names. -/
def repeated (names : List String) : List Declaration → List Declaration
  | [] => []
  | d :: ds =>
    let behind := repeated (d.function.name :: names) ds
    if d.function.name ∈ names then d :: behind else behind

/-- Only the names matter, not how often or in which order they are given. -/
theorem repeated_congr {names names' : List String} (h : ∀ name, name ∈ names ↔ name ∈ names')
    (ds : List Declaration) : repeated names ds = repeated names' ds := by
  induction ds generalizing names names' with
  | nil => rfl
  | cons d ds ih =>
    have hbehind : ∀ name, name ∈ d.function.name :: names ↔ name ∈ d.function.name :: names' :=
      fun name => by rw [List.mem_cons, List.mem_cons, h]
    simp only [repeated, h, ih hbehind]

/-- A declaration of a given name is repeated, and adds no new name. -/
theorem repeated_cons_of_mem {names : List String} {d : Declaration} (ds : List Declaration)
    (h : d.function.name ∈ names) : repeated names (d :: ds) = d :: repeated names ds := by
  have hnames : ∀ name, name ∈ d.function.name :: names ↔ name ∈ names := fun name => by
    rw [List.mem_cons, or_iff_right_iff_imp]
    rintro rfl
    exact h
  rw [repeated, if_pos h, repeated_congr hnames]

/-- A declaration of another name is not, and adds its name. -/
theorem repeated_cons_of_not_mem {names : List String} {d : Declaration} (ds : List Declaration)
    (h : d.function.name ∉ names) :
    repeated names (d :: ds) = repeated (d.function.name :: names) ds := by
  rw [repeated, if_neg h]

/-- Those with a name that was declared before. -/
def SourceError.isDuplicate (e : SourceError) : Bool :=
  match e.fault with
  | .grammar fault => fault.isDuplicate
  | .lexical _ => false

theorem SourceError.isDuplicate_of_fault {e : SourceError} {cause : GrammarFault}
    (h : e.fault = .grammar cause) : e.isDuplicate = cause.isDuplicate := by
  rw [isDuplicate, h]

namespace Parsed

/-- The functions that are read one after the other, statements between them left out. -/
def declarations (ts : List Token) : List Declaration :=
  match _hf : (function ts).value with
  | .parsed f => ⟨f, (function ts).rest.length⟩ :: declarations (function ts).rest
  | .malformed => declarations (function ts).rest
  | .absent =>
    match _hs : (statement (function ts).rest).value with
    | .parsed _ => declarations (statement (function ts).rest).rest
    | .malformed => declarations (statement (function ts).rest).rest
    | .absent => []
termination_by ts.length
decreasing_by
  all_goals have hbounded := (function ts).bounded
  · rw [_hf] at hbounded
    exact hbounded
  · rw [_hf] at hbounded
    exact hbounded
  · have hbounded' := (statement (function ts).rest).bounded
    rw [_hs] at hbounded'
    exact Nat.lt_of_lt_of_le hbounded' (Nat.le_of_add_right_le hbounded)
  · have hbounded' := (statement (function ts).rest).bounded
    rw [_hs] at hbounded'
    exact Nat.lt_of_lt_of_le hbounded' (Nat.le_of_add_right_le hbounded)

/-- What reading a program gives, and which of the functions that were read it keeps and reports.
Those of the known names are not kept. -/
structure Keeps (known : List String) (ds : List Declaration) {ts : List Token}
    (r : Parsed ts Program) : Prop where
  shaped : r.value.Shaped
  fresh : Fresh known r.value.functions
  first : ∀ name, name ∉ known →
    r.value.functions.find? name =
      (ds.find? fun d => d.function.name = name).map Declaration.function
  reported : (r.faults.filter fun f => f.cause.isDuplicate) =
    (repeated known ds).map fun d => ⟨.duplicateFunction d.function.name, d.left⟩

namespace Keeps

variable {α : Type} [Cost α] {known : List String} {ds : List Declaration} {ts us : List Token}

theorem nothing {rest : List Token} {h : rest.length + cost (⟨[], []⟩ : Program) ≤ ts.length} :
    Keeps known [] (.give ⟨[], []⟩ rest h : Parsed ts Program) :=
  ⟨⟨nofun, nofun⟩, ⟨List.nodup_nil, nofun⟩, fun _ _ => rfl, rfl⟩

theorem widen {r : Parsed us Program} {h : us.length ≤ ts.length} (hr : Keeps known ds r) :
    Keeps known ds (r.widen h) :=
  ⟨hr.shaped, hr.fresh, hr.first, hr.reported⟩

/-- What was read before, without noticing a name that is declared twice, is passed over. -/
theorem behind {P : α → Prop} {r : Parsed us α}
    {f : (a : α) → (rest : List Token) → rest.length + cost a ≤ us.length → Parsed ts Program}
    (hr : Gives r P) (hf : Keeps known ds (f r.value r.rest r.bounded)) :
    Keeps known ds (r.andThen f) := by
  refine ⟨hf.shaped, hf.fresh, hf.first, ?_⟩
  -- what was read before reports no repeated name, so the reports are those of the rest
  have hnone : (r.faults.filter fun f => f.cause.isDuplicate) = [] :=
    List.filter_eq_nil_iff.mpr hr.single
  have hfaults : (r.andThen f).faults = r.faults ++ (f r.value r.rest r.bounded).faults := rfl
  rw [hfaults, List.filter_append, hnone, List.nil_append, hf.reported]

/-- What is read in front of a program is not reported. -/
theorem reported_andThen {r : Parsed us Program} {f : Program → Program}
    {h : ∀ p (rest : List Token), rest.length + cost p ≤ us.length →
      rest.length + cost (f p) ≤ ts.length} :
    (r.andThen fun p rest hrest =>
      (.give (f p) rest (h p rest hrest) : Parsed ts Program)).faults = r.faults :=
  List.append_nil _

/-- A statement in front changes no function. -/
theorem statement {st : Statement} {r : Parsed us Program}
    {h : ∀ p (rest : List Token), rest.length + cost p ≤ us.length →
      rest.length + cost (consStatement st p) ≤ ts.length}
    (hr : Keeps known ds r) (hst : st.Shaped) :
    Keeps known ds (r.andThen fun p rest hrest =>
      (.give (consStatement st p) rest (h p rest hrest) : Parsed ts Program)) := by
  refine ⟨⟨?_, hr.shaped.functions⟩, hr.fresh, hr.first, ?_⟩
  · exact List.forall_mem_cons.mpr ⟨hst, hr.shaped.statements⟩
  · rw [reported_andThen, hr.reported]

/-- A function of a new name is kept. -/
theorem function {f : Function} {left : Nat} {r : Parsed us Program}
    {h : ∀ p (rest : List Token), rest.length + cost p ≤ us.length →
      rest.length + cost (consFunction f p) ≤ ts.length}
    (hr : Keeps (f.name :: known) ds r) (hf : f.Shaped) (hname : f.name ∉ known) :
    Keeps known (⟨f, left⟩ :: ds) (r.andThen fun p rest hrest =>
      (.give (consFunction f p) rest (h p rest hrest) : Parsed ts Program)) := by
  refine ⟨⟨hr.shaped.statements, ?_⟩, fresh_cons.mpr ⟨hname, hr.fresh⟩, fun name hknown => ?_, ?_⟩
  · exact List.forall_mem_cons.mpr ⟨hf, hr.shaped.functions⟩
  · -- the name of the function stands for it, any other one for what it stood for
    show FunctionTable.find? (f :: r.value.functions) name = _
    rw [FunctionTable.find?_cons]
    split
    · next heq => rw [List.find?_cons_of_pos (by simpa using heq), Option.map_some]
    · next hne =>
      rw [List.find?_cons_of_neg (by simpa using hne)]
      refine hr.first name fun hmem => ?_
      rcases List.mem_cons.mp hmem with heq | hmem
      · exact hne heq.symm
      · exact hknown hmem
  · rw [reported_andThen, hr.reported, repeated_cons_of_not_mem ds hname]

/-- A function of a known name is dropped, and that is reported. -/
theorem dropped {f : Function} {r : Parsed ts Program} (hr : Keeps known ds r)
    (hname : f.name ∈ known) :
    Keeps known (⟨f, us.length⟩ :: ds) (r.noting (.duplicateFunction f.name) us) := by
  refine ⟨hr.shaped, hr.fresh, fun name hknown => ?_, ?_⟩
  · have hne : f.name ≠ name := fun heq => hknown (heq ▸ hname)
    rw [List.find?_cons_of_neg (by simpa using hne)]
    exact hr.first name hknown
  · rw [repeated_cons_of_mem ds hname, List.map_cons, ← hr.reported]
    rfl

end Keeps

/-- **What a program keeps**: the first function of each name that is not known yet. -/
theorem keeps_program (known : List String) (ts : List Token) :
    Keeps known (declarations ts) (program known ts) := by
  -- induction on the tokens left: each round but the last consumes some
  induction hn : ts.length using Nat.strongRecOn generalizing ts known with
  | ind n ih =>
    subst hn
    have hrest (known : List String) (us : List Token) (h : us.length < ts.length) :=
      ih us.length h known us rfl
    rw [program, declarations]
    refine .behind (gives_function ts) ?_
    have hf := (gives_function ts).value
    generalize Parsed.function ts = r at hf ⊢
    obtain ⟨f, faults, us, hu⟩ := r
    cases f with
    | parsed f =>
      dsimp only
      split
      -- a known name is dropped and reported, a new one is known from here on
      · next hname => exact (hrest known us hu).widen.dropped hname
      · next hname => exact (hrest (f.name :: known) us hu).function hf hname
    | malformed => exact (hrest known us hu).widen
    | absent =>
      refine .behind (gives_statement us) ?_
      have hs := (gives_statement us).value
      dsimp only
      generalize Parsed.statement us = r at hs ⊢
      obtain ⟨st, faults, vs, hv⟩ := r
      have hlt : cost st ≠ 0 → vs.length < ts.length := fun hcost => by
        have : vs.length + cost st ≤ us.length := hv
        have : us.length ≤ ts.length := hu
        omega
      cases st with
      | parsed st => exact (hrest known vs (hlt Nat.one_ne_zero)).statement hs
      | malformed => exact (hrest known vs (hlt Nat.one_ne_zero)).widen
      | absent => exact .nothing

/-- Tokens that are left over are reported, but as no repeated name. -/
theorem keeps_wholeProgram (ts : List Token) : Keeps [] (declarations ts) (wholeProgram ts) := by
  have hkeeps := keeps_program [] ts
  unfold wholeProgram
  dsimp only
  split
  · exact hkeeps
  · refine ⟨hkeeps.shaped, hkeeps.fresh, hkeeps.first, ?_⟩
    rw [← hkeeps.reported, List.filter_append]
    exact List.append_nil _

end Parsed

-- ---------------------------------------------------------------------------
-- Program texts
-- ---------------------------------------------------------------------------

/-- The errors that report a name that was declared before. -/
def duplicateErrors (limits : Limits) (source : String) : List SourceError :=
  (parseSource limits source).errors.filter SourceError.isDuplicate

/-- The error reports the declaration, at the token behind it. -/
def Declaration.ReportedAs (limits : Limits) (source : String) (d : Declaration)
    (e : SourceError) : Prop :=
  e.fault = .grammar (.duplicateFunction d.function.name) ∧
    ((codeTokensAt limits source.toList)[(codeTokens limits source.toList).length - d.left]?).map
      Prod.snd = some e.position

/-- Repeated names are reported by the grammar, not by the lexer. -/
theorem duplicateErrors_eq (limits : Limits) (source : String) :
    duplicateErrors limits source =
      (grammarErrors limits source).filter SourceError.isDuplicate := by
  rw [duplicateErrors, grammarErrors, List.filter_filter]
  refine List.filter_congr fun e _ => ?_
  obtain ⟨fault, position⟩ := e
  cases fault with
  | lexical fault => rfl
  | grammar fault => exact (Bool.and_true _).symm

/-- Every declaration of a name that was declared before is reported once, in order. -/
theorem forall₂_duplicateErrors (limits : Limits) (source : String) :
    List.Forall₂ (Declaration.ReportedAs limits source)
      (repeated [] (Parsed.declarations (codeTokens limits source.toList)))
      (duplicateErrors limits source) := by
  have hfiltered : List.Forall₂ _
      ((noticedIn (codeTokens limits source.toList)).filter fun x => x.1.isDuplicate)
      ((grammarErrors limits source).filter SourceError.isDuplicate) :=
    List.rel_filter
      (fun _ _ h => Bool.eq_iff_iff.mp (SourceError.isDuplicate_of_fault h.1).symm)
      (noticed_noticedIn limits source)
  have hreported := (Parsed.keeps_wholeProgram (codeTokens limits source.toList)).reported
  have hcomp : ((fun x : GrammarFault × Nat => x.1.isDuplicate) ∘ fun f : Fault =>
      (f.cause, (codeTokens limits source.toList).length - f.left)) =
      fun f => f.cause.isDuplicate := rfl
  -- the faults that report repeated names are those of the declarations that are repeated
  rw [noticedIn, List.filter_map, hcomp, hreported, List.map_map, List.forall₂_map_left_iff]
    at hfiltered
  rw [duplicateErrors_eq]
  exact hfiltered

/-- **What a program text gives**, with mistakes or without: statements and functions that have
their shape at every depth, and of each name the first declaration that could be read to its end.
Every later one of the name is reported, once and in order. -/
theorem parsed_program_shape (limits : Limits) (source : String) :
    (parseSource limits source).program.Shaped ∧
      ((parseSource limits source).program.functions.map Function.name).Nodup ∧
      (∀ name f, (parseSource limits source).program.functions.find? name = some f ↔
        f.name = name ∧ ∃ before left after,
          Parsed.declarations (codeTokens limits source.toList) =
              before ++ ⟨f, left⟩ :: after ∧
            ∀ d ∈ before, d.function.name ≠ name) ∧
      List.Forall₂ (Declaration.ReportedAs limits source)
        (repeated [] (Parsed.declarations (codeTokens limits source.toList)))
        (duplicateErrors limits source) := by
  have hkeeps := Parsed.keeps_wholeProgram (codeTokens limits source.toList)
  have hprogram : (parseSource limits source).program =
      (Parsed.wholeProgram (codeTokens limits source.toList)).value := by
    rw [parseSource_eq]
  rw [hprogram]
  refine ⟨hkeeps.shaped, hkeeps.fresh.1, fun name f => ?_, forall₂_duplicateErrors limits source⟩
  rw [hkeeps.first name List.not_mem_nil, Option.map_eq_some_iff]
  constructor
  · -- the first declaration of the name, with the ones before it
    rintro ⟨⟨f, left⟩, hfound, rfl⟩
    obtain ⟨hname, before, after, hds, hbefore⟩ := List.find?_eq_some_iff_append.mp hfound
    refine ⟨of_decide_eq_true hname, before, left, after, hds, fun d hd => ?_⟩
    simpa using hbefore d hd
  · rintro ⟨hname, before, left, after, hds, hbefore⟩
    refine ⟨⟨f, left⟩, List.find?_eq_some_iff_append.mpr ?_, rfl⟩
    exact ⟨decide_eq_true hname, before, after, hds, fun d hd => by simpa using hbefore d hd⟩

end NullScript
