import Mathlib.Data.List.Forall2
import NullScript.Proofs.Accepted
import NullScript.Proofs.Coverage

/-!
# NullScript — layout and comments are invisible

A program depends on the tokens of its text other than comments, and on nothing else: not on where
they stand, and not on the limits. What is wrong with their order is reported at one of them, and
which one that is does not depend on the layout either.

* `map_place_significant_readings` — where the tokens of a program stand.
* `forall₂_interleave` — every fault that the tokens show is reported once, at its token.
* `layout_is_invisible` — two texts with the same tokens.
-/

namespace NullScript

-- ---------------------------------------------------------------------------
-- Places of tokens
-- ---------------------------------------------------------------------------

/-- The tokens of a text other than comments with their places, and behind them nothing at the end
of the text. -/
def codeTokensAt (limits : Limits) (text : List Char) : List (Option Token × Position) :=
  (tokenized limits text).filter fun t => t.1.all Token.isCode

/-- The readings that are not comments stand where the tokens of the program do. -/
theorem map_place_significant_readings (limits : Limits) (text : List Char) :
    (significant (readings limits text)).map (fun r => (r.token, r.position)) =
      codeTokensAt limits text := by
  rw [map_place_significant (map_token_readings limits text), codeTokensAt, tokenized,
    List.filter_map]
  rfl

/-- Without their places these are the tokens of the program and the end. -/
theorem map_fst_codeTokensAt (limits : Limits) (text : List Char) :
    (codeTokensAt limits text).map Prod.fst = (codeTokens limits text).map some ++ [none] := by
  rw [← map_place_significant_readings, ← map_token_significant_readings, List.map_map]
  rfl

/-- There is a place for each token and for the end. -/
theorem length_codeTokensAt (limits : Limits) (text : List Char) :
    (codeTokensAt limits text).length = (codeTokens limits text).length + 1 := by
  have hlength := congrArg List.length (map_fst_codeTokensAt limits text)
  simpa using hlength

/-- Each token stands behind the ones before it. -/
theorem pairwise_offset_codeTokensAt (limits : Limits) (text : List Char) :
    (codeTokensAt limits text).Pairwise fun t u => t.2.offset < u.2.offset :=
  (List.pairwise_map.mp (pairwise_offset_tokenized limits text)).filter _

-- ---------------------------------------------------------------------------
-- Reported faults
-- ---------------------------------------------------------------------------

/-- Is the error about the order of tokens? -/
def SourceError.isGrammar (e : SourceError) : Bool :=
  match e.fault with
  | .grammar _ => true
  | .lexical _ => false

/-- The errors of a text that are about the order of its tokens. -/
def grammarErrors (limits : Limits) (source : String) : List SourceError :=
  (parseSource limits source).errors.filter SourceError.isGrammar

/-- What a reading reports by itself is never about the order of tokens. -/
theorem not_isGrammar_of_mem_significant {limits : Limits} {text : List Char} :
    ∀ r ∈ significant (readings limits text), ∀ e ∈ r.errors, ¬e.isGrammar := by
  refine forall_mem_errors_significant fun r hr e he => ?_
  have hmem : e ∈ lexicalErrors limits text := List.mem_flatMap.mpr ⟨r, hr, he⟩
  rw [lexicalErrors_eq] at hmem
  obtain ⟨x, -, hx⟩ := List.mem_flatMap.mp hmem
  obtain ⟨y, -, rfl⟩ := List.mem_map.mp hx
  exact Bool.false_ne_true

/-- The faults of a walk come with fewer and fewer tokens left. -/
theorem Walk.pairwise_left {ts us : List Token} {faults : List Fault} (h : Walk ts faults us) :
    faults.Pairwise fun f g => g.left ≤ f.left := by
  induction h with
  | stop => exact .nil
  | consume _ ih => exact ih
  | notice h ih => exact .cons (fun f hf => (h.left_le f hf).2) ih

/-- Behind the faults that were noticed with `left` tokens left come those with fewer. -/
theorem lt_of_mem_dropWhile {left : Nat} {faults : List Fault}
    (hsorted : faults.Pairwise fun f g => g.left ≤ f.left) (hle : ∀ f ∈ faults, f.left ≤ left) :
    ∀ f ∈ faults.dropWhile fun f => f.left = left, f.left < left := by
  -- on the faults: one with `left` tokens left is dropped, and any other one ends the dropping
  induction hsorted with
  | nil => exact nofun
  | @cons f faults hf _ ih =>
    obtain ⟨hfirst, hothers⟩ := List.forall_mem_cons.mp hle
    by_cases hleft : f.left = left
    · rw [List.dropWhile_cons, if_pos (by simpa using hleft)]
      exact ih hothers
    · have hlt : f.left < left := Nat.lt_of_le_of_ne hfirst hleft
      rw [List.dropWhile_cons, if_neg (by simpa using hleft)]
      exact List.forall_mem_cons.mpr ⟨hlt, fun g hg => Nat.lt_of_le_of_lt (hf g hg) hlt⟩

/-- The error is about the fault, and it stands at the reading that has as many tokens before it as
were consumed of the first `left` ones. -/
def Fault.ReportedAs (left : Nat) (rs : List Reading) (f : Fault) (e : SourceError) : Prop :=
  e.fault = .grammar f.cause ∧ (rs.map Reading.position)[left - f.left]? = some e.position

/-- Behind one more token the same reading is one further. -/
theorem Fault.ReportedAs.behind {left : Nat} {r : Reading} {rs : List Reading} {f : Fault}
    {e : SourceError} (h : f.ReportedAs (left - 1) rs e) (hleft : f.left < left) :
    f.ReportedAs left (r :: rs) e := by
  refine ⟨h.1, ?_⟩
  have hindex : left - f.left = left - 1 - f.left + 1 := by omega
  rw [hindex, List.map_cons, List.getElem?_cons_succ]
  exact h.2

/-- **Every fault is reported once**, in order and at its token, if it was noticed no later than the
last reading that is looked at. -/
theorem forall₂_interleave {last left : Nat} {rs : List Reading} {faults : List Fault}
    (hrs : rs.length = left + 1) (hlexical : ∀ r ∈ rs, ∀ e ∈ r.errors, ¬e.isGrammar)
    (hsorted : faults.Pairwise fun f g => g.left ≤ f.left)
    (hfaults : ∀ f ∈ faults, last ≤ f.left ∧ f.left ≤ left) :
    List.Forall₂ (Fault.ReportedAs left rs) faults
      ((interleave last left rs faults).filter SourceError.isGrammar) := by
  induction rs generalizing left faults with
  | nil => cases hrs
  | cons r rs ih =>
    obtain ⟨hr, hlexical⟩ := List.forall_mem_cons.mp hlexical
    -- the faults noticed at this reading come first, and the others with fewer tokens left
    have hlater := lt_of_mem_dropWhile hsorted fun f hf => (hfaults f hf).2
    have hsplit := List.takeWhile_append_dropWhile (p := fun f : Fault => f.left = left)
      (l := faults)
    have hhere : ∀ f ∈ faults.takeWhile fun f => f.left = left, f.left = left :=
      fun f hf => of_decide_eq_true (List.all_eq_true.mp List.all_takeWhile f hf)
    -- from here on the two parts are just lists whose members are known
    rw [interleave]
    generalize (faults.takeWhile fun f => f.left = left) = here,
      (faults.dropWhile fun f => f.left = left) = later at hlater hsplit hhere
    subst hsplit
    have hnone : r.errors.filter SourceError.isGrammar = [] := List.filter_eq_nil_iff.mpr hr
    have hreported : (here.map fun f => SourceError.mk (.grammar f.cause) r.position).filter
        SourceError.isGrammar = here.map fun f => ⟨.grammar f.cause, r.position⟩ :=
      List.filter_eq_self.mpr (List.forall_mem_map.mpr fun _ _ => rfl)
    rw [List.filter_append, List.filter_append, hnone, hreported, List.drop_left, List.nil_append]
    refine List.rel_append ?_ ?_
    · -- the faults noticed here are reported at this very reading
      refine List.forall₂_map_right_iff.mpr (List.forall₂_same.mpr fun f hf => ⟨rfl, ?_⟩)
      rw [hhere f hf, Nat.sub_self, List.map_cons, List.getElem?_cons_zero]
    · have hbounds := (List.forall_mem_append.mp hfaults).2
      split
      · next hstop =>
        -- whatever is left would have been noticed behind the last reading
        have hnil : later = [] := List.eq_nil_iff_forall_not_mem.mpr fun f hf => by
          have := hlater f hf
          have := (hbounds f hf).1
          omega
        rw [hnil]
        exact .nil
      · -- the others are reported by the same lemma, one reading further
        next hmore =>
        have hlength : rs.length = left - 1 + 1 := by
          have : rs.length + 1 = left + 1 := hrs
          omega
        have hrest := ih hlength hlexical (List.pairwise_append.mp hsorted).2.1 fun f hf =>
          ⟨(hbounds f hf).1, Nat.le_sub_one_of_lt (hlater f hf)⟩
        refine ((List.forall₂_and_left _ _).mpr ⟨hlater, hrest⟩).imp fun f e h => ?_
        exact h.2.behind h.1

-- ---------------------------------------------------------------------------
-- Texts with the same tokens
-- ---------------------------------------------------------------------------

/-- The errors about the order of tokens are these faults in this order, each at the place of the
token that has this many tokens before it. Comments do not count. -/
def Noticed (limits : Limits) (source : String) (noticed : List (GrammarFault × Nat)) : Prop :=
  List.Forall₂ (fun x e => e.fault = .grammar x.1 ∧
    ((codeTokensAt limits source.toList)[x.2]?).map Prod.snd = some e.position)
    noticed (grammarErrors limits source)

/-- The faults that tokens show, each with the number of tokens before it. -/
def noticedIn (tokens : List Token) : List (GrammarFault × Nat) :=
  (Parsed.wholeProgram tokens).faults.map fun f => (f.cause, tokens.length - f.left)

/-- Faults are noticed at later and later tokens. -/
theorem pairwise_noticedIn (tokens : List Token) :
    (noticedIn tokens).Pairwise fun x y => x.2 ≤ y.2 := by
  refine List.pairwise_map.mpr ((Parsed.walk_wholeProgram tokens).pairwise_left.imp fun h => ?_)
  exact Nat.sub_le_sub_left h _

/-- What is wrong with the order of the tokens follows from the tokens. -/
theorem noticed_noticedIn (limits : Limits) (source : String) :
    Noticed limits source (noticedIn (codeTokens limits source.toList)) := by
  have hlength : (significant (readings limits source.toList)).length =
      (codeTokens limits source.toList).length + 1 := by
    rw [← length_codeTokensAt, ← map_place_significant_readings, List.length_map]
  have hwalk := Parsed.walk_wholeProgram (codeTokens limits source.toList)
  have hreported := forall₂_interleave hlength not_isGrammar_of_mem_significant
    -- the fault with `left` tokens left is reported at the reading of that token
    hwalk.pairwise_left hwalk.left_le
  unfold Noticed grammarErrors noticedIn
  rw [parseSource_eq, List.forall₂_map_left_iff]
  refine hreported.imp fun f e h => ⟨h.1, ?_⟩
  rw [← List.getElem?_map, ← map_place_significant_readings, List.map_map]
  exact h.2

/-- A token that has at least as many before it stands no further ahead. -/
theorem offset_le_of_getElem? {limits : Limits} {text : List Char} {i j : Nat} {p q : Position}
    (hp : ((codeTokensAt limits text)[i]?).map Prod.snd = some p)
    (hq : ((codeTokensAt limits text)[j]?).map Prod.snd = some q) (h : i ≤ j) :
    p.offset ≤ q.offset := by
  obtain ⟨t, ht, rfl⟩ := Option.map_eq_some_iff.mp hp
  obtain ⟨u, hu, rfl⟩ := Option.map_eq_some_iff.mp hq
  obtain ⟨hi, rfl⟩ := List.getElem?_eq_some_iff.mp ht
  obtain ⟨hj, rfl⟩ := List.getElem?_eq_some_iff.mp hu
  -- different tokens stand at different places, and one token at its own
  rcases Nat.lt_or_eq_of_le h with hlt | rfl
  · have hpairwise := pairwise_offset_codeTokensAt limits text
    exact Nat.le_of_lt (List.pairwise_iff_getElem.mp hpairwise i j hi hj hlt)
  · exact Nat.le_refl _

/-- Faults that are noticed at later and later tokens are reported at later and later places. -/
theorem Noticed.pairwise_offset {limits : Limits} {source : String}
    {noticed : List (GrammarFault × Nat)} (h : Noticed limits source noticed)
    (hsorted : noticed.Pairwise fun x y => x.2 ≤ y.2) :
    ((grammarErrors limits source).map fun e => e.position.offset).Pairwise (· ≤ ·) := by
  obtain ⟨hlength, hplaces⟩ := List.forall₂_iff_get.mp h
  refine List.pairwise_map.mpr (List.pairwise_iff_getElem.mpr fun i j hi hj hij => ?_)
  have hi' := hlength.symm ▸ hi
  have hj' := hlength.symm ▸ hj
  exact offset_le_of_getElem? (hplaces i hi' hi).2 (hplaces j hj' hj).2
    (List.pairwise_iff_getElem.mp hsorted i j hi' hj' hij)

/-- **Layout and comments are invisible.** Two texts with the same tokens, be the limits the same or
not, give the same program and the same errors about the order of tokens, each at the same one of
their tokens. In either text these errors stand further and further ahead. -/
theorem layout_is_invisible {limits limits' : Limits} {a b : String}
    (h : (codeTokensAt limits a.toList).map Prod.fst =
      (codeTokensAt limits' b.toList).map Prod.fst) :
    (parseSource limits a).program = (parseSource limits' b).program ∧
      (∃ noticed, Noticed limits a noticed ∧ Noticed limits' b noticed) ∧
      ((grammarErrors limits a).map fun e => e.position.offset).Pairwise (· ≤ ·) ∧
      ((grammarErrors limits' b).map fun e => e.position.offset).Pairwise (· ≤ ·) := by
  -- the ends of the texts aside, the tokens are the same
  rw [map_fst_codeTokensAt, map_fst_codeTokensAt, List.append_left_inj] at h
  have htokens : codeTokens limits a.toList = codeTokens limits' b.toList :=
    (List.map_inj_right fun _ _ => Option.some.inj).mp h
  have ha := noticed_noticedIn limits a
  have hb := noticed_noticedIn limits' b
  have hsorted := pairwise_noticedIn (codeTokens limits' b.toList)
  rw [htokens] at ha
  refine ⟨?_, ⟨_, ha, hb⟩, ha.pairwise_offset hsorted, hb.pairwise_offset hsorted⟩
  rw [parseSource_eq, parseSource_eq, htokens]

/-- A parameter without a type, and a parenthesis that is not closed. -/
def broken : String := "fun f(x)\x7b\x7d // the type of x\nf(1, // nothing follows\n"

/-- The same tokens with other comments and blanks. -/
def brokenElsewhere : String := "//\n\nfun\tf ( x ) \x7b\n\x7d\n f(1,"

/-- Limits that allow for short comments only. -/
def shortComments : Limits := { Limits.default with commentLength := 3 }

/-- In the first text the comments are reported, too. -/
theorem layout_is_invisible_broken :
    (codeTokensAt shortComments broken.toList).map Prod.fst =
        (codeTokensAt .default brokenElsewhere.toList).map Prod.fst ∧
      (grammarErrors shortComments broken).map SourceError.position =
        [⟨1, 7, 6⟩, ⟨3, 1, 52⟩, ⟨3, 1, 52⟩] ∧
      (grammarErrors .default brokenElsewhere).map SourceError.position =
        [⟨3, 9, 12⟩, ⟨5, 6, 25⟩, ⟨5, 6, 25⟩] ∧
      (parseSource shortComments broken).program =
        (parseSource .default brokenElsewhere).program ∧
      (∃ noticed, Noticed shortComments broken noticed ∧
        Noticed .default brokenElsewhere noticed) ∧
      ((grammarErrors shortComments broken).map fun e => e.position.offset).Pairwise (· ≤ ·) ∧
      ((grammarErrors .default brokenElsewhere).map fun e =>
        e.position.offset).Pairwise (· ≤ ·) := by
  have htokens : (codeTokensAt shortComments broken.toList).map Prod.fst =
      (codeTokensAt .default brokenElsewhere.toList).map Prod.fst := by
    decide +kernel
  exact ⟨htokens, by decide +kernel, by decide +kernel, layout_is_invisible htokens⟩

end NullScript
