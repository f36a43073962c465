import NullScript.Proofs.Readings

/-!
# NullScript — lexing covers the text

Every character of a text belongs to exactly one piece, and what is read tells for each piece where
it is and what is wrong with it. The order in which faults are noted, the byte offsets and the
cursor do not show: places are those that the characters before them lead to.

* `pairwise_placed` — each piece starts behind the ones before it.
* `lexing_covers_text` — pieces make up the text; tokens, errors and the end are where they should
  be.
-/

namespace NullScript

/-- Pieces are placed behind the characters that they start behind. -/
theorem isPrefix_of_mem_placed {before : List Char} {ps : List Piece} {x : List Char × Piece}
    (h : x ∈ placed before ps) : before <+: x.1 := by
  induction ps generalizing before with
  | nil => cases h
  | cons p ps ih =>
    rcases List.mem_cons.mp h with rfl | h
    · exact List.prefix_refl _
    · exact (List.prefix_append before p.text).trans (ih h)

/-- Each piece starts behind the ones before it. -/
theorem pairwise_placed (before : List Char) (ps : List Piece) :
    (placed before ps).Pairwise fun x y => x.1 ++ x.2.text <+: y.1 := by
  induction ps generalizing before with
  | nil => exact .nil
  | cons p ps ih => exact List.pairwise_cons.mpr ⟨fun _ => isPrefix_of_mem_placed, ih _⟩

/-- What is read from a text, compared with the text. -/
structure Covers (limits : Limits) (text : List Char) : Prop where
  /-- The pieces make up the text. -/
  whole : (pieces limits text).flatMap Piece.text = text
  /-- Each piece is a token, a blank character or a reported one. The text that is placed before it
  is what stands before it. -/
  classified : ∀ x ∈ placed [] (pieces limits text),
    x.2.Classified ∧ ∃ rest, x.1 ++ x.2.text ++ rest = text
  /-- A token is where the characters before it lead to, and so is the end of the text. -/
  tokens : tokenized limits text =
    (placed [] (pieces limits text)).filterMap
      (fun x => x.2.token.map fun t => (some t, Position.start.after x.1)) ++
    [(none, Position.start.after text)]
  /-- An error is where the characters before the one that it is about lead to. -/
  errors : lexicalErrors limits text =
    (placed [] (pieces limits text)).flatMap fun x =>
      (inOrder x.2.faults).map fun y =>
        ⟨.lexical y.2, Position.start.after (x.1 ++ x.2.text.take y.1)⟩
  tokens_increase : ((tokenized limits text).map fun t => t.2.offset).Pairwise (· < ·)
  errors_increase : ((lexicalErrors limits text).map fun e => e.position.offset).Pairwise (· ≤ ·)
  /-- Behind the end of the text nothing more is met. -/
  finish : ∀ count, firstReadings limits text count =
    (readings limits text).take count ++
      List.replicate (count - (readings limits text).length)
        ⟨[], none, Position.start.after text⟩

variable {limits : Limits} {text : List Char}

/-- Every piece of a text is classified and stands in the text where it is placed. -/
theorem exists_of_mem_placed_pieces {x : List Char × Piece}
    (h : x ∈ placed [] (pieces limits text)) :
    x.2.Classified ∧ ∃ rest, x.1 ++ x.2.text ++ rest = text := by
  obtain ⟨hmem, rest, hrest⟩ := exists_of_mem_placed h
  rw [List.nil_append, flatMap_text_pieces] at hrest
  exact ⟨classified_of_mem_pieces hmem, rest, hrest⟩

/-- A piece starts before the ones behind it. -/
theorem length_lt_of_isPrefix {x : List Char × Piece} {later : List Char} (hx : x.2.Classified)
    (h : x.1 ++ x.2.text <+: later) : x.1.length < later.length := by
  have hpos := List.length_pos_iff.mpr hx.text_ne_nil
  have hle := h.length_le
  rw [List.length_append] at hle
  omega

/-- The offset of a token counts the characters before it. -/
theorem offset_of_mem_tokenAt {x : List Char × Piece} {t : Option Token × Position}
    (h : tokenAt x = some t) : t.2.offset = x.1.length := by
  obtain ⟨token, -, rfl⟩ := Option.map_eq_some_iff.mp h
  simp [Position.start]

/-- The offset of an error counts the characters before the piece and those before its place in the
piece. -/
theorem offset_errorAt {x : List Char × Piece} {y : Nat × LexicalFault} (hx : x.2.Classified)
    (hy : y ∈ inOrder x.2.faults) :
    ((Position.start.after x.1).after (x.2.text.take y.1)).offset = x.1.length + y.1 := by
  have hlt := hx.lt_length (mem_inOrder.mp hy)
  rw [Position.offset_after, Position.offset_after, List.length_take_of_le (Nat.le_of_lt hlt)]
  exact congrArg (· + y.1) (Nat.zero_add _)

/-- **The offsets of tokens increase**, up to the end of the text. -/
theorem pairwise_offset_tokenized (limits : Limits) (text : List Char) :
    ((tokenized limits text).map fun t => t.2.offset).Pairwise (· < ·) := by
  rw [tokenized_eq, List.pairwise_map, List.pairwise_append]
  refine ⟨?_, List.pairwise_singleton _ _, ?_⟩
  · -- two tokens belong to different pieces, and no piece is empty
    refine List.pairwise_filterMap.mpr ((pairwise_placed [] _).imp_of_mem ?_)
    intro x y hx _ hxy t ht u hu
    rw [offset_of_mem_tokenAt ht, offset_of_mem_tokenAt hu]
    exact length_lt_of_isPrefix (exists_of_mem_placed_pieces hx).1 hxy
  · -- the end of the text is behind every piece
    intro t ht u hu
    obtain ⟨x, hx, ht⟩ := List.mem_filterMap.mp ht
    obtain ⟨hclassified, rest, hrest⟩ := exists_of_mem_placed_pieces hx
    rw [List.mem_singleton.mp hu, offset_of_mem_tokenAt ht]
    have hlt := length_lt_of_isPrefix hclassified ⟨rest, hrest⟩
    simpa [Position.start] using hlt

/-- **The offsets of lexical errors never decrease.** -/
theorem pairwise_offset_lexicalErrors (limits : Limits) (text : List Char) :
    ((lexicalErrors limits text).map fun e => e.position.offset).Pairwise (· ≤ ·) := by
  rw [lexicalErrors_eq, List.pairwise_map, List.pairwise_flatMap]
  constructor
  -- Errors of one piece are in order of their places in it, and those of two pieces are apart as
  -- the pieces are.
  · intro x hx
    have hclassified := (exists_of_mem_placed_pieces hx).1
    refine List.pairwise_map.mpr ((pairwise_inOrder x.2.faults).imp_of_mem ?_)
    intro y z hy hz hyz
    rw [offset_errorAt hclassified hy, offset_errorAt hclassified hz]
    exact Nat.add_le_add_left hyz _
  · -- an error stands inside of its piece, and the other piece behind it
    refine (pairwise_placed [] _).imp_of_mem ?_
    intro x x' hx hx' hxx' e he e' he'
    obtain ⟨y, hy, rfl⟩ := List.mem_map.mp he
    obtain ⟨y', hy', rfl⟩ := List.mem_map.mp he'
    have hclassified := (exists_of_mem_placed_pieces hx).1
    have hlt := hclassified.lt_length (mem_inOrder.mp hy)
    have hle := hxx'.length_le
    rw [List.length_append] at hle
    rw [offset_errorAt hclassified hy,
      offset_errorAt (exists_of_mem_placed_pieces hx').1 hy']
    omega

/-- **Lexing covers the text**, tells every place as the characters before it do, and meets nothing
behind the end. -/
theorem lexing_covers_text (limits : Limits) (text : List Char) : Covers limits text where
  whole := flatMap_text_pieces limits text
  classified _ := exists_of_mem_placed_pieces
  tokens := tokenized_eq limits text
  errors := by
    rw [lexicalErrors_eq]
    refine congrArg (List.flatMap · _) (funext fun x => ?_)
    simp only [errorsAt, Piece.errorsAt, Position.after_append]
  tokens_increase := pairwise_offset_tokenized limits text
  errors_increase := pairwise_offset_lexicalErrors limits text
  finish := by
    intro count
    have htext : (Lexer.ofText limits text).ahead = text := rfl
    have h := Lexer.take_of_standsAt (Lexer.standsAt_ofText limits text) count
    rwa [htext] at h

end NullScript
