import NullScript.Proofs.Accepted
import NullScript.Proofs.ReadsBackProgram

/-!
# NullScript — parsing undoes printing

The text of a program is read as the tokens that it was printed from, and these are read as the
program. Neither step finds anything wrong, so there is nothing to report.

* `map_token_textOf`, `errors_textOf` — what is read from a printed text.
* `parse_printed` — parsing what was printed gives the program.
-/

namespace NullScript

/-- A comment is not written, so what is written is code. -/
theorem isCode_of_writable {limits : Limits} {decimals : Decimals} {t : Token}
    (h : t.Writable limits decimals) : t.isCode := by
  cases t with
  | comment => exact h.elim
  | _ => rfl

section

variable {limits : Limits} {decimals : Decimals} {ts : List Token}
  (h : AllWritable limits decimals ts)

include h

/-- Each token of a printed text is spelled by its own piece of it. -/
theorem spells_textOf :
    ∀ x ∈ ts.map fun t => (t.spelling decimals, t), Spells limits x.1 x.2 := by
  intro x hx
  obtain ⟨t, ht, rfl⟩ := List.mem_map.mp hx
  exact spells_spelling (h t ht)

/-- The tokens of a text are those that it was printed from. -/
theorem map_token_textOf :
    (significant (readings limits (textOf decimals ts))).map Reading.token =
      ts.map some ++ [none] := by
  have hread := map_token_spelled (spells_textOf h)
  rw [List.map_map] at hread
  -- no token is dropped, as none is a comment
  have hcode : ts.filter Token.isCode = ts :=
    List.filter_eq_self.mpr fun t ht => isCode_of_writable (h t ht)
  have hsignificant := map_token_significant hread
  rwa [hcode] at hsignificant

theorem errors_textOf :
    ∀ r ∈ readings limits (textOf decimals ts), r.errors = [] :=
  List.flatMap_eq_nil_iff.mp (lexicalErrors_spelled (spells_textOf h))

end

/-- Leaving out comments adds no errors. -/
theorem errors_significant {rs : List Reading} (h : ∀ r ∈ rs, r.errors = []) :
    ∀ r ∈ significant rs, r.errors = [] := by
  simp only [List.eq_nil_iff_forall_not_mem] at h ⊢
  exact forall_mem_errors_significant h

/-- Readings without errors and tokens without faults give no error. -/
theorem interleave_eq_nil {last left : Nat} {rs : List Reading} (h : ∀ r ∈ rs, r.errors = []) :
    interleave last left rs [] = [] := by
  -- on the readings; with no faults left the errors of each are all that could be reported
  induction rs generalizing left with
  | nil => rw [interleave]
  | cons r rs ih =>
    obtain ⟨hr, hrs⟩ := List.forall_mem_cons.mp h
    have hrest : interleave last (left - 1) rs [] = [] := ih hrs
    rw [interleave, hr]
    simp [hrest]

/-- A text printed from a program, with its statements and functions in any order, is parsed as this
program, and nothing is reported. -/
theorem parse_printed (limits : Limits) (decimals : Decimals) {p : Program}
    (h : p.Printable limits decimals) (items : List Item) (hitems : programOf items = p) :
    parseSource limits (printed decimals items) = ⟨p, []⟩ := by
  subst hitems
  have hwritable := h.allWritable
  have htext : (printed decimals items).toList = textOf decimals (items.flatMap Item.tokens) :=
    String.toList_ofList
  -- the parser is given the tokens of the items, as the end of the text is no token
  have htokens : (significant (readings limits (printed decimals items).toList)).filterMap
      Reading.token = items.flatMap Item.tokens := by
    have hread := congrArg (List.filterMap id) (map_token_textOf hwritable)
    rw [List.filterMap_map] at hread
    rw [htext]
    simpa using hread
  have herrors : ∀ r ∈ significant (readings limits (printed decimals items).toList),
      r.errors = [] := by
    rw [htext]
    exact errors_significant (errors_textOf hwritable)
  -- the rest is the round trip on tokens, with nothing reported by either step
  obtain ⟨hvalue, hfaults, -⟩ := Parsed.yields_wholeProgram h
  unfold parseSource
  dsimp only
  rw [htokens, hvalue, hfaults, interleave_eq_nil herrors]

/-- The double that is written `1.5`. -/
def oneAndAHalf : Float := Piece.doubleValue (wholeValue ['1']) ['5']

/-- A function `rate` of two parameters that returns nothing in one case, a string with escapes, and
an assignment in which all kinds of parentheses are needed. -/
def sample : Program where
  functions := [
    { name := "rate"
      parameters := [⟨"n", ⟨.int, true⟩⟩, ⟨"f", .double⟩]
      returns := .double
      body := [
        .branch
          (.conjunction (.comparison (.identifier "n") .notEqual (.literal .null))
            [.comparison (.identifier "f") .less (.literal (.double oneAndAHalf))])
          [.giveBack (some (.identifier "f"))] none,
        .giveBack none] }]
  statements := [
    .declare false "s" .string (some (.literal (.string "\"\n"))),
    .assign (.identifier "x")
      (.cast (.unary .minus (.orElse (.call "rate" [.literal (.int 3), .identifier "x"])
        (.literal (.double oneAndAHalf)))) .int)]

/-- The sample may be printed, with every double in it written `1.5`. -/
theorem printable_sample : sample.Printable .default fun _ => (['1'], ['5']) := by
  have hrate : IsName .default "rate" := ⟨⟨_, _, rfl, by decide, by decide⟩, rfl, rfl, by decide⟩
  have hn : IsName .default "n" := ⟨⟨_, _, rfl, by decide, by decide⟩, rfl, rfl, by decide⟩
  have hf : IsName .default "f" := ⟨⟨_, _, rfl, by decide, by decide⟩, rfl, rfl, by decide⟩
  have hs : IsName .default "s" := ⟨⟨_, _, rfl, by decide, by decide⟩, rfl, rfl, by decide⟩
  have hx : IsName .default "x" := ⟨⟨_, _, rfl, by decide, by decide⟩, rfl, rfl, by decide⟩
  have hdouble : (Datum.double oneAndAHalf).Writable .default fun _ => (['1'], ['5']) :=
    ⟨⟨nofun, rfl, nofun, by decide⟩, rfl, by decide, rfl⟩
  have hthree : (Datum.int 3).Writable .default fun _ => (['1'], ['5']) :=
    ⟨by decide, by decide⟩
  have hstring : (Datum.string "\"\n").Writable .default fun _ => (['1'], ['5']) := by
    show _ ≤ _
    decide
  have hnull : Datum.null.Writable .default fun _ => (['1'], ['5']) := trivial
  refine ⟨?_, rfl, ?_, by decide⟩
  · refine List.forall_mem_cons.mpr ⟨?_, List.forall_mem_singleton.mpr ?_⟩
    · exact .declare hs (by decide) fun | _, rfl => .literal hstring
    · refine .assign hx (.cast (.unary (.orElse (.call hrate ?_) (.literal hdouble))) (by decide))
      exact List.forall_mem_cons.mpr
        ⟨.literal hthree, List.forall_mem_singleton.mpr (.identifier hx)⟩
  · refine List.forall_mem_singleton.mpr ⟨hrate, ?_, .inr (by decide), ?_, rfl⟩
    · exact List.forall_mem_cons.mpr
        ⟨⟨hn, by decide⟩, List.forall_mem_singleton.mpr ⟨hf, by decide⟩⟩
    · refine List.forall_mem_cons.mpr ⟨?_, List.forall_mem_singleton.mpr (.giveBack nofun)⟩
      refine .branch (.conjunction (.comparison (.identifier hn) (.literal hnull)) ?_
        (List.cons_ne_nil _ _)) (List.forall_mem_singleton.mpr ?_) rfl nofun nofun
      · exact List.forall_mem_singleton.mpr (.comparison (.identifier hf) (.literal hdouble))
      · exact .giveBack fun | _, rfl => .identifier hf

/-- The sample is parsed back from its text. -/
theorem parse_printed_sample :
    sample.Printable .default (fun _ => (['1'], ['5'])) ∧ programOf sample.items = sample ∧
      parseSource .default (printed (fun _ => (['1'], ['5'])) sample.items) = ⟨sample, []⟩ :=
  ⟨printable_sample, programOf_items sample,
    parse_printed .default _ printable_sample sample.items (programOf_items sample)⟩

end NullScript
