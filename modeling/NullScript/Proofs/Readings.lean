import NullScript.Proofs.Cursor

/-!
# NullScript — what a lexer reads

A lexer tells places by a cursor that follows through the text, and notes what is wrong by byte
offsets. None of this shows in what it reads: the readings of a text can be computed from its
pieces alone, where each place is what reading the characters before it leads to.

* `Piece.classified_recognise` — what pieces there are, and which characters their faults are about.
* `readings_eq` — the readings of a text are those of its pieces.
* `Lexer.take_of_standsAt` — behind the end of the text nothing more is met.
-/

namespace NullScript

-- ---------------------------------------------------------------------------
-- What a piece is
-- ---------------------------------------------------------------------------

/-- The fault of a token is about the character of its text that has `behind` ones before it: the
one behind a backslash, or the first. -/
def LexicalFault.About (text : List Char) (behind : Nat) : LexicalFault → Prop
  | .unknownEscape c =>
    ∃ before rest, text = before ++ '\\' :: c :: rest ∧ behind = before.length + 1
  | .unexpectedCharacter _ => False
  | _ => behind = 0

/-- What pieces there are. -/
inductive Piece.Classified : Piece → Prop
  /-- The text of a token, with faults that are about it. -/
  | lexeme {text : List Char} {token : Token} {faults : List (Nat × LexicalFault)} :
    text ≠ [] → (∀ x ∈ faults, x.2.About text x.1) → Classified ⟨text, some token, faults⟩
  /-- A blank character, which is skipped. -/
  | skipped {c : Char} : isBlank c → Classified ⟨[c], none, []⟩
  /-- Any other character, which is reported. -/
  | reported {c : Char} :
    ¬isBlank c → Classified ⟨[c], none, [(0, .unexpectedCharacter c)]⟩

/-- A fault that is noted under a condition, at the first character. -/
theorem LexicalFault.about_of_mem_ite {c : Prop} [Decidable c] {text : List Char}
    {fault : LexicalFault} {x : Nat × LexicalFault} (h : x ∈ if c then [(0, fault)] else [])
    (hfault : fault.About text 0) : x.2.About text x.1 := by
  split at h
  · rw [List.mem_singleton] at h
    rw [h]
    exact hfault
  · cases h

/-- The faults that the items of a string give rise to, in the text of the string. -/
theorem StringItem.about_of_mem_faults {max decoded : Nat} {items : List StringItem}
    {x : Nat × LexicalFault} (before after : List Char)
    (h : x ∈ faults max before.length decoded items) :
    x.2.About (before ++ (items.flatMap text ++ after)) x.1 := by
  -- on the items, with the text of those before
  induction items generalizing before decoded with
  | nil => cases h
  | cons item items ih =>
    have hsplit : before ++ ((item :: items).flatMap text ++ after) =
        (before ++ item.text) ++ (items.flatMap text ++ after) := by
      simp
    cases item with
    | plain c =>
      rw [faults, List.mem_append] at h
      rcases h with h | h
      · exact LexicalFault.about_of_mem_ite h rfl
      · rw [hsplit]
        exact ih (before ++ [c]) (by rwa [List.length_append])
    | escape c =>
      have hlater : ∀ {decoded}, x ∈ faults max (before.length + 2) decoded items →
          x.2.About (before ++ ((StringItem.escape c :: items).flatMap text ++ after)) x.1 := by
        intro decoded h
        rw [hsplit]
        exact ih (before ++ ['\\', c]) (by rwa [List.length_append])
      rw [faults] at h
      split at h
      · rcases List.mem_append.mp h with h | h
        · exact LexicalFault.about_of_mem_ite h rfl
        · exact hlater h
      · rcases List.mem_cons.mp h with rfl | h
        · exact ⟨before, items.flatMap text ++ after, by simp [text], rfl⟩
        · exact hlater h

namespace Piece

/-- A string is a token, with faults that are about it. -/
theorem classified_string (limits : Limits) (cs : List Char) :
    (string limits cs).1.Classified := by
  refine .lexeme (List.cons_ne_nil _ _) fun x h => ?_
  rcases List.mem_append.mp h with h | h
  · exact LexicalFault.about_of_mem_ite h rfl
  · exact StringItem.about_of_mem_faults ['"'] _ h

/-- A word is a token, with faults that are about it. -/
theorem classified_word (limits : Limits) {text : List Char} (htext : text ≠ []) :
    (word limits text).Classified := by
  unfold word
  split
  · exact .lexeme htext fun _ h => absurd h List.not_mem_nil
  · refine .lexeme htext fun x h => ?_
    rcases List.mem_append.mp h with h | h
    · exact LexicalFault.about_of_mem_ite h rfl
    · exact LexicalFault.about_of_mem_ite h rfl

/-- A number is a token, with faults that are about it. -/
theorem classified_number (limits : Limits) (first : Char) (cs : List Char) :
    (number limits first cs).1.Classified := by
  unfold number
  split
  · refine .lexeme (List.cons_ne_nil _ _) fun x h => ?_
    rcases List.mem_append.mp h with h | h
    · exact LexicalFault.about_of_mem_ite h rfl
    · exact LexicalFault.about_of_mem_ite h rfl
  · exact .lexeme (List.cons_ne_nil _ _) fun x h => LexicalFault.about_of_mem_ite h rfl

/-- A character that is no blank is a token or reported. -/
theorem classified_single {c : Char} (hc : ¬isBlank c) : (single c).Classified := by
  unfold single
  split
  · exact .lexeme (List.cons_ne_nil _ _) fun _ h => absurd h List.not_mem_nil
  · exact .reported hc

/-- A sign of one or two characters is a token or reported. -/
theorem classified_sign {c : Char} (hc : ¬isBlank c) (cs : List Char) :
    (sign c cs).1.Classified := by
  unfold sign
  split
  · exact classified_single hc
  · split
    · exact .lexeme (List.cons_ne_nil _ _) fun _ h => absurd h List.not_mem_nil
    · exact classified_single hc

/-- What starts a text is the text of a token, a blank, or an unexpected character. -/
theorem classified_recognise (limits : Limits) (c : Char) (cs : List Char) :
    (recognise limits c cs).1.Classified := by
  unfold recognise
  split
  · next hblank => exact .skipped hblank
  split
  · exact classified_string limits cs
  split
  · exact classified_word limits (List.cons_ne_nil _ _)
  split
  · exact classified_number limits c cs
  split
  · exact .lexeme (List.cons_ne_nil _ _) fun x h => LexicalFault.about_of_mem_ite h rfl
  · next hblank _ _ _ _ => exact classified_sign hblank cs

theorem Classified.text_ne_nil {p : Piece} (h : p.Classified) : p.text ≠ [] := by
  cases h with
  | lexeme htext _ => exact htext
  | skipped _ => exact List.cons_ne_nil _ _
  | reported _ => exact List.cons_ne_nil _ _

/-- The place of a fault is inside of the piece. -/
theorem Classified.lt_length {p : Piece} (h : p.Classified) {x : Nat × LexicalFault}
    (hx : x ∈ p.faults) : x.1 < p.text.length := by
  have hpos := List.length_pos_iff.mpr h.text_ne_nil
  cases h with
  | lexeme _ habout =>
    have hx := habout x hx
    -- only an unknown escape is about a character other than the first one
    revert hx
    cases x.2 with
    | unknownEscape c =>
      rintro ⟨before, rest, rfl, hbehind⟩
      simp [hbehind]
    | unexpectedCharacter c => exact False.elim
    | _ =>
      intro hbehind
      rw [show x.1 = 0 from hbehind]
      exact hpos
  | skipped _ => cases hx
  | reported _ =>
    rw [List.mem_singleton.mp hx]
    exact hpos

end Piece

/-- The pieces of a text are what pieces there are. -/
theorem classified_of_mem_pieces {limits : Limits} {text : List Char} {p : Piece}
    (h : p ∈ pieces limits text) : p.Classified := by
  fun_induction pieces limits text with
  | case1 => cases h
  | case2 c cs ih =>
    rcases List.mem_cons.mp h with rfl | h
    · exact Piece.classified_recognise limits c cs
    · exact ih h

-- ---------------------------------------------------------------------------
-- The readings of pieces
-- ---------------------------------------------------------------------------

theorem mem_inOrder {faults : List (Nat × LexicalFault)} {x : Nat × LexicalFault} :
    x ∈ inOrder faults ↔ x ∈ faults :=
  List.mem_mergeSort

/-- Faults in order stand further and further behind. -/
theorem pairwise_inOrder (faults : List (Nat × LexicalFault)) :
    (inOrder faults).Pairwise fun x y => x.1 ≤ y.1 := by
  have h : (inOrder faults).Pairwise fun x y => decide (x.1 ≤ y.1) = true := by
    refine List.pairwise_mergeSort (fun x y z hxy hyz => ?_) (fun x y => ?_) faults
    · rw [decide_eq_true_eq] at *
      exact Nat.le_trans hxy hyz
    · rw [Bool.or_eq_true, decide_eq_true_eq, decide_eq_true_eq]
      exact Nat.le_total x.1 y.1
  exact h.imp fun hxy => of_decide_eq_true hxy

/-- The errors of a piece that starts at a place. -/
def Piece.errorsAt (p : Piece) (start : Position) : List SourceError :=
  (inOrder p.faults).map fun x => ⟨.lexical x.2, start.after (p.text.take x.1)⟩

theorem Piece.errorsAt_of_faults_nil {p : Piece} (h : p.faults = []) (start : Position) :
    p.errorsAt start = [] := by
  rw [errorsAt, h, inOrder, List.mergeSort_nil, List.map_nil]

/-- The readings with errors before all others. -/
def precede (es : List SourceError) : List Reading → List Reading
  | [] => []
  | r :: rs => r.precededBy es :: rs

/-- The readings of pieces, the first of which starts at a place. -/
def readingsOf (start : Position) : List Piece → List Reading
  | [] => [⟨[], none, start⟩]
  | p :: ps =>
    let behind := readingsOf (start.after p.text) ps
    match p.token with
    | some token => ⟨p.errorsAt start, some token, start⟩ :: behind
    | none => precede (p.errorsAt start) behind

/-- Byte offsets bring the faults of a piece into the same order as their places in it. -/
theorem Piece.inOrder_problems {p : Piece} (hp : p.Classified) (byte : Nat) :
    inOrder (p.problems byte) =
      (inOrder p.faults).map fun x => (byte + byteLength (p.text.take x.1), x.2) := by
  -- offsets are in the order of the places, as no fault lies behind the piece
  refine (List.map_mergeSort fun x hx y _ => ?_).symm
  have hle := Nat.le_of_lt (hp.lt_length hx)
  rw [decide_eq_decide, Nat.add_le_add_iff_left, byteLength_take_le_iff hle]

/-- A cursor in front of a piece reports the errors of the piece, and can go on behind it. -/
theorem Cursor.report_piece {p : Piece} (hp : p.Classified) (rest : List Char) (byte : Nat)
    (start : Position) :
    ∃ c : Cursor,
      Cursor.report ⟨p.text ++ rest, byte, start⟩ (inOrder (p.problems byte)) =
        (p.errorsAt start, c) ∧
      c.advanceTo (byte + byteLength p.text) =
        ⟨rest, byte + byteLength p.text, start.after p.text⟩ := by
  -- No fault lies behind the piece, so the cursor is never sent too far to go on from there.
  have hle : ∀ x ∈ inOrder p.faults, x.1 ≤ p.text.length := fun x hx =>
    Nat.le_of_lt (hp.lt_length (mem_inOrder.mp hx))
  have htake : ∀ x ∈ inOrder p.faults, p.text.take x.1 = (p.text ++ rest).take x.1 :=
    fun x hx => (List.take_append_of_le_length (hle x hx)).symm
  have hproblems : inOrder (p.problems byte) = (inOrder p.faults).map fun x =>
      (byte + byteLength ((p.text ++ rest).take x.1), x.2) := by
    rw [Piece.inOrder_problems hp]
    exact List.map_congr_left fun x hx => by rw [htake x hx]
  have herrors : p.errorsAt start = (inOrder p.faults).map fun x =>
      ⟨.lexical x.2, start.after ((p.text ++ rest).take x.1)⟩ :=
    List.map_congr_left fun x hx => by rw [htake x hx]
  obtain ⟨last, hlast, hreport⟩ := report_skip ⟨p.text ++ rest, byte, start⟩
    (pairwise_inOrder p.faults) (fun x _ => Nat.zero_le x.1) hle (Nat.zero_le _)
  refine ⟨skip ⟨p.text ++ rest, byte, start⟩ last, ?_, ?_⟩
  · rw [hproblems, herrors]
    exact hreport
  · have hend := advanceTo_skip_of_le ⟨p.text ++ rest, byte, start⟩ hlast
    simpa [skip] using hend

-- ---------------------------------------------------------------------------
-- The readings of a lexer
-- ---------------------------------------------------------------------------

namespace Lexer

/-- The cursor can be sent to the characters ahead, and they start at the place. -/
def StandsAt (l : Lexer) (start : Position) : Prop :=
  l.cursor.advanceTo l.byte = ⟨l.ahead, l.byte, start⟩

/-- A new lexer stands at the start of its text. -/
theorem standsAt_ofText (limits : Limits) (text : List Char) :
    (ofText limits text).StandsAt .start := by
  unfold StandsAt ofText Cursor.ofText
  rw [Cursor.advanceTo_of_le (Nat.le_refl _), String.toList_ofList]

variable {l : Lexer} {start : Position}

/-- The end of the text is met again and again. -/
theorem next_at_end (h : l.StandsAt start) (hahead : l.ahead = []) :
    l.next.1 = ⟨[], none, start⟩ ∧ l.next.2.ahead = [] ∧ l.next.2.StandsAt start := by
  rw [next_of_ahead_nil hahead, h, hahead]
  refine ⟨rfl, rfl, ?_⟩
  exact Cursor.advanceTo_of_le (Nat.le_refl _)

/-- Cutting off a piece reports its errors and leads to the place behind it. -/
theorem cut_spec {c : Char} {cs : List Char} (h : l.StandsAt start) (hahead : l.ahead = c :: cs) :
    (l.cut c cs).1 = (Piece.recognise l.limits c cs).1.errorsAt start ∧
      (l.cut c cs).2.StandsAt (start.after (Piece.recognise l.limits c cs).1.text) := by
  obtain ⟨cursor, hreport, hbehind⟩ := Cursor.report_piece
    (Piece.classified_recognise l.limits c cs) (Piece.recognise l.limits c cs).2 l.byte start
  unfold StandsAt at h ⊢
  rw [Piece.recognise_append, ← hahead, ← h] at hreport
  have hcut : l.cut c cs = ((Piece.recognise l.limits c cs).1.errorsAt start,
      ⟨l.limits, (Piece.recognise l.limits c cs).2,
        l.byte + byteLength (Piece.recognise l.limits c cs).1.text, cursor⟩) := by
    unfold cut
    simp only [hreport]
  rw [hcut]
  exact ⟨rfl, hbehind⟩

theorem readings_cons (h : l.next.1.token.isSome) :
    l.readings = l.next.1 :: l.next.2.readings := by
  rw [readings]
  exact dif_pos h

/-- A lexer that meets no token meets the end, which is its last reading. -/
theorem readings_last (h : l.next.1.token = none) : l.readings = [l.next.1] := by
  rw [readings]
  exact dif_neg (by rw [h]; exact Bool.false_ne_true)

/-- If a lexer meets what another one does, apart from errors before it, then so do its
readings. -/
theorem readings_precededBy {behind : Lexer} {es : List SourceError}
    (h : l.next = (behind.next.1.precededBy es, behind.next.2)) :
    l.readings = precede es behind.readings := by
  have hreading : l.next.1 = behind.next.1.precededBy es := by rw [h]
  have hbehind : l.next.2 = behind.next.2 := by rw [h]
  have htoken : l.next.1.token = behind.next.1.token := by rw [hreading]; rfl
  cases hnone : behind.next.1.token with
  | none =>
    rw [readings_last (htoken.trans hnone), readings_last hnone, hreading]
    rfl
  | some token =>
    have hsome : behind.next.1.token.isSome := by rw [hnone]; rfl
    rw [readings_cons (htoken ▸ hsome), readings_cons hsome, hreading, hbehind]
    rfl

/-- The readings of a lexer are those of the pieces ahead. -/
theorem readings_of_standsAt (h : l.StandsAt start) :
    l.readings = readingsOf start (pieces l.limits l.ahead) := by
  -- On the length of what is ahead. A piece without a token leaves its errors to the next reading,
  -- so the lexer behind it is read by the hypothesis, not the reading.
  induction hn : l.ahead.length using Nat.strongRecOn generalizing l start with
  | ind n ih =>
    subst hn
    cases hahead : l.ahead with
    | nil =>
      obtain ⟨hreading, -, -⟩ := next_at_end h hahead
      rw [readings_last (by rw [hreading]), hreading, pieces, readingsOf]
    | cons c cs =>
      obtain ⟨herrors, hbehind⟩ := cut_spec h hahead
      have hlt := l.length_cut_lt c cs
      rw [← hahead] at hlt
      have hrest := ih _ hlt hbehind rfl
      have hnext := next_of_ahead_cons hahead
      rw [pieces, readingsOf]
      cases htoken : (Piece.recognise l.limits c cs).1.token with
      | some token =>
        rw [htoken] at hnext
        rw [readings_cons (by rw [hnext]; rfl), hnext, hrest, herrors, h]
        rfl
      | none =>
        rw [htoken] at hnext
        rw [readings_precededBy hnext, hrest, herrors]
        rfl

/-- Behind a token the lexer still stands where its text starts, and behind the last one it stands
at the end. -/
theorem standsAt_next (h : l.StandsAt start) :
    ∃ place, l.next.2.StandsAt place ∧ place.after l.next.2.ahead = start.after l.ahead ∧
      (l.next.1.token = none → l.next.2.ahead = []) := by
  -- One reading may cut off several pieces: all those without a token on the way.
  induction hn : l.ahead.length using Nat.strongRecOn generalizing l start with
  | ind n ih =>
    subst hn
    cases hahead : l.ahead with
    | nil =>
      obtain ⟨-, hnil, hbehind⟩ := next_at_end h hahead
      exact ⟨start, hbehind, by rw [hnil], fun _ => hnil⟩
    | cons c cs =>
      obtain ⟨-, hbehind⟩ := cut_spec h hahead
      have htext : (start.after (Piece.recognise l.limits c cs).1.text).after
          (l.cut c cs).2.ahead = start.after (c :: cs) := by
        rw [← Position.after_append, ← Piece.recognise_append l.limits c cs]
        rfl
      have hnext := next_of_ahead_cons hahead
      cases htoken : (Piece.recognise l.limits c cs).1.token with
      | some token =>
        rw [htoken] at hnext
        rw [hnext]
        exact ⟨_, hbehind, htext, fun h => nomatch h⟩
      | none =>
        rw [htoken] at hnext
        have hlt := l.length_cut_lt c cs
        rw [← hahead] at hlt
        obtain ⟨place, hplace, hafter, hend⟩ := ih _ hlt hbehind rfl
        rw [hnext]
        exact ⟨place, hplace, hafter.trans htext, hend⟩

/-- At the end of the text only the end is met. -/
theorem take_at_end (h : l.StandsAt start) (hahead : l.ahead = []) (count : Nat) :
    l.take count = List.replicate count ⟨[], none, start⟩ := by
  induction count generalizing l with
  | zero => rfl
  | succ count ih =>
    obtain ⟨hreading, hnil, hbehind⟩ := next_at_end h hahead
    rw [take, List.replicate_succ, hreading, ih hbehind hnil]

/-- Behind the end of the text nothing more is met, however often one more token is asked for. -/
theorem take_of_standsAt (h : l.StandsAt start) (count : Nat) :
    l.take count = l.readings.take count ++
      List.replicate (count - l.readings.length) ⟨[], none, start.after l.ahead⟩ := by
  -- on the number of tokens asked for, of which those behind the end are all the same
  induction count generalizing l start with
  | zero => simp [take]
  | succ count ih =>
    obtain ⟨place, hplace, hafter, hend⟩ := standsAt_next h
    rw [take]
    cases htoken : l.next.1.token with
    | none =>
      have hnil := hend htoken
      rw [hnil, Position.after_nil] at hafter
      rw [readings_last htoken, take_at_end hplace hnil, hafter]
      simp
    | some token =>
      rw [readings_cons (by rw [htoken]; rfl), ih hplace, hafter]
      simp

end Lexer

/-- The readings of a text are those of its pieces. -/
theorem readings_eq (limits : Limits) (text : List Char) :
    readings limits text = readingsOf .start (pieces limits text) :=
  Lexer.readings_of_standsAt (Lexer.standsAt_ofText limits text)

-- ---------------------------------------------------------------------------
-- Tokens and errors
-- ---------------------------------------------------------------------------

/-- The tokens of a text with their places, and behind them nothing at the end of the text. -/
def tokenized (limits : Limits) (text : List Char) : List (Option Token × Position) :=
  (readings limits text).map fun r => (r.token, r.position)

/-- The errors that are met while all tokens of a text are read. -/
def lexicalErrors (limits : Limits) (text : List Char) : List SourceError :=
  (readings limits text).flatMap Reading.errors

/-- The pieces, each with the text before it. -/
def placed (before : List Char) : List Piece → List (List Char × Piece)
  | [] => []
  | p :: ps => (before, p) :: placed (before ++ p.text) ps

/-- The token of a piece with its place, given the text before. -/
def tokenAt (x : List Char × Piece) : Option (Option Token × Position) :=
  x.2.token.map fun t => (some t, Position.start.after x.1)

/-- The errors of a piece, given the text before. -/
def errorsAt (x : List Char × Piece) : List SourceError := x.2.errorsAt (.after .start x.1)

/-- Pieces behind others have the text of these before them. -/
theorem placed_append (before : List Char) (ps qs : List Piece) :
    placed before (ps ++ qs) =
      placed before ps ++ placed (before ++ ps.flatMap Piece.text) qs := by
  induction ps generalizing before with
  | nil => simp [placed]
  | cons p ps ih => simp [placed, ih]

/-- The text before a piece and the piece itself are the beginning of the text. -/
theorem exists_of_mem_placed {before : List Char} {ps : List Piece} {x : List Char × Piece}
    (h : x ∈ placed before ps) :
    x.2 ∈ ps ∧ ∃ rest, x.1 ++ x.2.text ++ rest = before ++ ps.flatMap Piece.text := by
  induction ps generalizing before with
  | nil => cases h
  | cons p ps ih =>
    rcases List.mem_cons.mp h with rfl | h
    · exact ⟨List.mem_cons_self, ps.flatMap Piece.text, by simp⟩
    · obtain ⟨hmem, rest, hrest⟩ := ih h
      exact ⟨List.mem_cons_of_mem _ hmem, rest, by simp [hrest]⟩

theorem precede_ne_nil {es : List SourceError} {rs : List Reading} (h : rs ≠ []) :
    precede es rs ≠ [] := by
  cases rs with
  | nil => exact absurd rfl h
  | cons r rs => exact List.cons_ne_nil _ _

/-- There is always a reading, if only that of the end. -/
theorem readingsOf_ne_nil (start : Position) (ps : List Piece) : readingsOf start ps ≠ [] := by
  induction ps generalizing start with
  | nil => exact List.cons_ne_nil _ _
  | cons p ps ih =>
    rw [readingsOf]
    split
    · exact List.cons_ne_nil _ _
    · exact precede_ne_nil (ih _)

/-- Errors before readings do not change their tokens and places. -/
theorem map_token_precede (es : List SourceError) (rs : List Reading) :
    (precede es rs).map (fun r => (r.token, r.position)) =
      rs.map fun r => (r.token, r.position) := by
  cases rs <;> rfl

/-- The errors of readings with others before them are the others and then their own. -/
theorem flatMap_errors_precede (es : List SourceError) {rs : List Reading} (h : rs ≠ []) :
    (precede es rs).flatMap Reading.errors = es ++ rs.flatMap Reading.errors := by
  cases rs with
  | nil => exact absurd rfl h
  | cons r rs => simp [precede, Reading.precededBy]

/-- The tokens of readings are those of the pieces, and the end behind them. -/
theorem map_token_readingsOf (before : List Char) (ps : List Piece) :
    (readingsOf (.after .start before) ps).map (fun r => (r.token, r.position)) =
      (placed before ps).filterMap tokenAt ++
        [(none, .after .start (before ++ ps.flatMap Piece.text))] := by
  induction ps generalizing before with
  | nil => simp [readingsOf, placed]
  | cons p ps ih =>
    have hrest := ih (before ++ p.text)
    rw [Position.after_append, List.append_assoc] at hrest
    rw [readingsOf, placed, List.filterMap_cons, tokenAt, List.flatMap_cons]
    cases htoken : p.token with
    | some token =>
      simp only [Option.map_some]
      rw [List.map_cons, hrest, List.cons_append]
    -- what is skipped or reported is no token, and its errors go with the next reading
    | none =>
      simp only [Option.map_none]
      rw [map_token_precede, hrest]

/-- The errors of readings are those of the pieces. -/
theorem flatMap_errors_readingsOf (before : List Char) (ps : List Piece) :
    (readingsOf (.after .start before) ps).flatMap Reading.errors =
      (placed before ps).flatMap errorsAt := by
  induction ps generalizing before with
  | nil => rfl
  | cons p ps ih =>
    have hrest := ih (before ++ p.text)
    rw [Position.after_append] at hrest
    rw [readingsOf, placed, List.flatMap_cons, ← hrest]
    cases p.token with
    | some token => rfl
    | none => exact flatMap_errors_precede _ (readingsOf_ne_nil _ _)

/-- The tokens of a text are those of its pieces, each at the place that the text before it leads
to. -/
theorem tokenized_eq (limits : Limits) (text : List Char) :
    tokenized limits text =
      (placed [] (pieces limits text)).filterMap tokenAt ++ [(none, .after .start text)] := by
  have h := map_token_readingsOf [] (pieces limits text)
  rw [List.nil_append, flatMap_text_pieces] at h
  rw [tokenized, readings_eq]
  exact h

/-- The errors of a text are those of its pieces. -/
theorem lexicalErrors_eq (limits : Limits) (text : List Char) :
    lexicalErrors limits text = (placed [] (pieces limits text)).flatMap errorsAt := by
  rw [lexicalErrors, readings_eq]
  exact flatMap_errors_readingsOf [] (pieces limits text)

end NullScript
