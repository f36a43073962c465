import NullScript.Proofs.Readings

/-!
# NullScript — what a string literal is

The text behind an opening quote can be taken apart in one way: into items and an end. The token of
the string covers them and nothing else, stands for the first of the decoded items, and comes with
one error for each thing that is wrong with it, in the order of their places.

* `StringBody` — the text behind an opening quote, taken apart.
* `StringBody.eq_ofText` — there is one way to do so.
* `string_scanned_exactly` — what is read at an opening quote.
-/

namespace NullScript

-- ---------------------------------------------------------------------------
-- The body of a string
-- ---------------------------------------------------------------------------

/-- An item is a character other than a quote, a backslash and a newline, or a backslash with a
character other than a newline. -/
def StringItem.Allowed : StringItem → Prop
  | .plain c => c ≠ '"' ∧ c ≠ '\\' ∧ c ≠ '\n'
  | .escape c => c ≠ '\n'

/-- How a body ends: the characters that still belong to the token, whether they close it, and the
text behind. -/
inductive BodyEnd : List Char → Bool → List Char → Prop
  /-- With a quote. -/
  | closed {rest : List Char} : BodyEnd ['"'] true rest
  /-- In front of a newline, or at the end of the text. -/
  | unclosed {rest : List Char} : (∀ c ∈ rest.head?, c = '\n') → BodyEnd [] false rest
  /-- With a lone backslash there. -/
  | backslash {rest : List Char} : (∀ c ∈ rest.head?, c = '\n') → BodyEnd ['\\'] false rest

/-- The text behind an opening quote, taken apart. -/
@[ext]
structure StringBody (cs : List Char) where
  items : List StringItem
  ending : List Char
  closed : Bool
  rest : List Char
  text : items.flatMap StringItem.text ++ (ending ++ rest) = cs
  allowed : ∀ x ∈ items, x.Allowed
  ends : BodyEnd ending closed rest

/-- Items that are read are allowed ones. -/
theorem allowed_of_mem_readItems {cs : List Char} : ∀ x ∈ (readItems cs).1, x.Allowed := by
  have hnone : ∀ x ∈ ([] : List StringItem), x.Allowed := List.forall_mem_nil _
  -- along the way the items are read: four ways to stop, and two kinds of items
  fun_induction readItems cs with
  | case1 => exact hnone
  | case2 => exact hnone
  | case3 => exact hnone
  | case4 => exact hnone
  | case5 d ds hd _ ih => exact List.forall_mem_cons.mpr ⟨hd, ih⟩
  | case6 c cs hstop hplain ih =>
    obtain ⟨hquote, hnewline⟩ := not_or.mp hstop
    exact List.forall_mem_cons.mpr ⟨⟨hquote, hplain, hnewline⟩, ih⟩

/-- What stops the reading of items is an end. -/
theorem bodyEnd_readItems (cs : List Char) :
    BodyEnd (stringEnd (readItems cs).2).1 (stringEnd (readItems cs).2).2.1
      (stringEnd (readItems cs).2).2.2 := by
  have hnil : ∀ c ∈ ([] : List Char).head?, c = '\n' := fun _ hc => by cases hc
  fun_induction readItems cs with
  | case1 => exact .unclosed hnil
  | case2 c cs hstop =>
    rcases hstop with rfl | rfl
    · exact .closed
    · exact .unclosed fun _ hc => by cases hc; rfl
  | case3 => exact .backslash hnil
  | case4 => exact .backslash fun _ hc => by cases hc; rfl
  | case5 d ds hd _ ih => exact ih
  | case6 c cs hstop hplain ih => exact ih

/-- What a lexer takes the text apart into. -/
def StringBody.ofText (cs : List Char) : StringBody cs where
  items := (readItems cs).1
  ending := (stringEnd (readItems cs).2).1
  closed := (stringEnd (readItems cs).2).2.1
  rest := (stringEnd (readItems cs).2).2.2
  text := by rw [stringEnd_append, readItems_append]
  allowed := allowed_of_mem_readItems
  ends := bodyEnd_readItems cs

/-- Nothing is left, or a newline is next. -/
theorem eq_nil_or_newline {rest : List Char} (h : ∀ c ∈ rest.head?, c = '\n') :
    rest = [] ∨ ∃ behind, rest = '\n' :: behind := by
  cases rest with
  | nil => exact .inl rfl
  | cons c behind =>
    obtain rfl : c = '\n' := h c rfl
    exact .inr ⟨behind, rfl⟩

/-- An end is told from the text behind. -/
theorem stringEnd_of_bodyEnd {ending rest : List Char} {closed : Bool}
    (h : BodyEnd ending closed rest) : stringEnd (ending ++ rest) = (ending, closed, rest) := by
  cases h with
  | closed => rfl
  | backslash => rfl
  | unclosed hrest => obtain rfl | ⟨behind, rfl⟩ := eq_nil_or_newline hrest <;> rfl

/-- No item is read in front of an end. -/
theorem readItems_of_bodyEnd {ending rest : List Char} {closed : Bool}
    (h : BodyEnd ending closed rest) : readItems (ending ++ rest) = ([], ending ++ rest) := by
  cases h with
  | closed => exact readItems_of_stop (.inl rfl) rest
  | backslash hrest =>
    obtain rfl | ⟨behind, rfl⟩ := eq_nil_or_newline hrest
    · rfl
    · exact readItems_backslash_newline behind
  | unclosed hrest =>
    obtain rfl | ⟨behind, rfl⟩ := eq_nil_or_newline hrest
    · rfl
    · exact readItems_of_stop (.inr rfl) behind

/-- Items are found again in front of an end. -/
theorem readItems_flatMap_text {items : List StringItem} {ending rest : List Char} {closed : Bool}
    (hitems : ∀ x ∈ items, x.Allowed) (h : BodyEnd ending closed rest) :
    readItems (items.flatMap StringItem.text ++ (ending ++ rest)) = (items, ending ++ rest) := by
  -- on the items; the first one is read by its kind, and the rest by the induction
  induction items with
  | nil =>
    rw [List.flatMap_nil, List.nil_append]
    exact readItems_of_bodyEnd h
  | cons item items ih =>
    obtain ⟨hitem, hrest⟩ := List.forall_mem_cons.mp hitems
    rw [List.flatMap_cons, List.append_assoc]
    cases item with
    | plain c =>
      obtain ⟨hquote, hplain, hnewline⟩ := hitem
      rw [StringItem.text, List.cons_append, List.nil_append,
        readItems_plain (not_or.mpr ⟨hquote, hnewline⟩) hplain, ih hrest]
    | escape c =>
      rw [StringItem.text, List.cons_append, List.cons_append, List.nil_append,
        readItems_escape hitem, ih hrest]

/-- There is one way to take a text apart. -/
theorem StringBody.eq_ofText {cs : List Char} (body : StringBody cs) : body = .ofText cs := by
  have hitems : readItems cs = (body.items, body.ending ++ body.rest) := by
    have hread := readItems_flatMap_text body.allowed body.ends
    rwa [body.text] at hread
  have hend := stringEnd_of_bodyEnd body.ends
  ext1
  all_goals
    simp only [ofText, hitems, hend]

-- ---------------------------------------------------------------------------
-- What is wrong with a string
-- ---------------------------------------------------------------------------

/-- The characters behind a backslash that stand for nothing, each with the text before it. -/
def unknownEscapes : (before : List Char) → List StringItem → List (List Char × Char)
  | _, [] => []
  | before, .plain c :: items => unknownEscapes (before ++ [c]) items
  | before, .escape c :: items =>
    (if StringItem.unescape c = none then [(before ++ ['\\'], c)] else []) ++
      unknownEscapes (before ++ ['\\', c]) items

namespace StringBody

variable {cs : List Char} (body : StringBody cs)

/-- The characters of the token. -/
def token : List Char := '"' :: (body.items.flatMap StringItem.text ++ body.ending)

/-- The characters that the items stand for. -/
def decoded : List Char := body.items.filterMap StringItem.decode

/-- Behind the token stands the text that does not belong to it. -/
theorem token_append : body.token ++ body.rest = '"' :: cs := by
  rw [token, List.cons_append, List.append_assoc, body.text]

/-- What is wrong with a string that starts at a place and may have `max` characters. -/
def errors (max : Nat) (start : Position) : List SourceError :=
  (if body.closed then [] else [⟨.lexical .unclosedString, start⟩]) ++
  (if max < body.decoded.length then [⟨.lexical (.stringTooLong max), start⟩] else []) ++
  (unknownEscapes ['"'] body.items).map fun x => ⟨.lexical (.unknownEscape x.2), start.after x.1⟩

end StringBody

/-- An unknown escape stands behind the text before the items, at a place in the items. -/
theorem exists_of_mem_unknownEscapes {before : List Char} {items : List StringItem}
    {x : List Char × Char} (h : x ∈ unknownEscapes before items) :
    before.length < x.1.length ∧ x.1 <+: before ++ items.flatMap StringItem.text := by
  induction items generalizing before with
  | nil => cases h
  | cons item items ih =>
    cases item with
    | plain c =>
      obtain ⟨hlt, hprefix⟩ := ih h
      rw [List.length_append] at hlt
      exact ⟨Nat.lt_of_le_of_lt (Nat.le_add_right _ _) hlt,
        by simpa [StringItem.text] using hprefix⟩
    | escape c =>
      rcases List.mem_append.mp h with h | h
      · split at h
        · rw [List.mem_singleton.mp h]
          exact ⟨by simp, by simp [StringItem.text, List.prefix_append_right_inj]⟩
        · cases h
      · obtain ⟨hlt, hprefix⟩ := ih h
        rw [List.length_append] at hlt
        exact ⟨Nat.lt_of_le_of_lt (Nat.le_add_right _ _) hlt,
          by simpa [StringItem.text] using hprefix⟩

/-- Unknown escapes come in the order of their places. -/
theorem pairwise_unknownEscapes (before : List Char) (items : List StringItem) :
    (unknownEscapes before items).Pairwise fun x y => x.1.length < y.1.length := by
  induction items generalizing before with
  | nil => exact .nil
  | cons item items ih =>
    cases item with
    | plain c => exact ih _
    | escape c =>
      -- an escape at the front is nearer than every one behind it
      refine List.pairwise_append.mpr ⟨?_, ih _, fun x hx y hy => ?_⟩
      · split
        · exact List.pairwise_singleton _ _
        · exact .nil
      · split at hx
        · have hlt := (exists_of_mem_unknownEscapes hy).1
          rw [List.mem_singleton.mp hx]
          rw [List.length_append] at hlt ⊢
          exact Nat.lt_of_succ_lt hlt
        · cases hx

/-- The unknown escapes as they are noticed. -/
def escapeFaults (before : List Char) (items : List StringItem) : List (Nat × LexicalFault) :=
  (unknownEscapes before items).map fun x => (x.1.length, .unknownEscape x.2)

/-- The overrun of the limit, if it comes while this many more characters are decoded. -/
def overrunWithin (max decoded count : Nat) : List (Nat × LexicalFault) :=
  if decoded ≤ max ∧ max < decoded + count then [(0, .stringTooLong max)] else []

/-- The overrun comes with the next character or later. -/
theorem overrun_append_overrunWithin (max decoded count : Nat) :
    StringItem.overrun max decoded ++ overrunWithin max (decoded + 1) count =
      overrunWithin max decoded (count + 1) := by
  unfold StringItem.overrun overrunWithin
  by_cases hnow : decoded = max
  · rw [if_pos hnow, if_neg (by omega), if_pos (by omega)]
    rfl
  · rw [if_neg hnow, List.nil_append]
    exact ite_congr (propext (by omega)) (fun _ => rfl) fun _ => rfl

/-- Whatever the order, an overrun is noticed once, and so is each unknown escape. -/
theorem perm_faults (max decoded : Nat) (before : List Char) (items : List StringItem) :
    (StringItem.faults max before.length decoded items).Perm
      (overrunWithin max decoded (items.filterMap StringItem.decode).length ++
        escapeFaults before items) := by
  induction items generalizing before decoded with
  | nil =>
    have hnone : overrunWithin max decoded 0 = [] := if_neg (by omega)
    rw [List.filterMap_nil, List.length_nil, hnone]
    exact .nil
  | cons item items ih =>
    -- a decoded character counts towards the limit, whether it is plain or escaped
    have hdecoded (text : List Char) :
        (StringItem.overrun max decoded ++
          StringItem.faults max (before ++ text).length (decoded + 1) items).Perm
        (overrunWithin max decoded ((items.filterMap StringItem.decode).length + 1) ++
          escapeFaults (before ++ text) items) := by
      rw [← overrun_append_overrunWithin, List.append_assoc]
      exact (ih (decoded + 1) (before ++ text)).append_left _
    -- only an escape that stands for nothing is a fault of its own
    cases item with
    | plain c =>
      have h := hdecoded [c]
      rw [List.length_append] at h
      exact h
    | escape c =>
      rw [StringItem.faults, List.filterMap_cons, StringItem.decode, escapeFaults, unknownEscapes]
      cases hescape : StringItem.unescape c with
      | some d =>
        have h := hdecoded ['\\', c]
        rw [List.length_append] at h
        exact h
      | none =>
        have h := ih decoded (before ++ ['\\', c])
        rw [List.length_append] at h
        rw [if_pos rfl, List.singleton_append, List.map_cons, List.length_append]
        exact (h.cons _).trans List.perm_middle.symm

/-- Faults in different places are brought into the order of these. -/
theorem inOrder_of_perm {faults sorted : List (Nat × LexicalFault)} (h : faults.Perm sorted)
    (hsorted : sorted.Pairwise fun x y => x.1 < y.1) : inOrder faults = sorted := by
  -- no two faults have the same place, so the order is strict and fixes the list
  have hperm : (inOrder faults).Perm sorted := (List.mergeSort_perm _ _).trans h
  have hne : (inOrder faults).Pairwise fun x y => x.1 ≠ y.1 :=
    (hperm.pairwise_iff fun hxy => hxy.symm).mpr (hsorted.imp Nat.ne_of_lt)
  have hlt : (inOrder faults).Pairwise fun x y => x.1 < y.1 :=
    ((pairwise_inOrder faults).and hne).imp fun hxy => Nat.lt_of_le_of_ne hxy.1 hxy.2
  exact hperm.eq_of_pairwise (fun _ _ _ _ hxy hyx => absurd hyx (Nat.lt_asymm hxy)) hlt hsorted

/-- A fault at the first character that is noticed first comes first. -/
theorem inOrder_cons_zero (fault : LexicalFault) (faults : List (Nat × LexicalFault)) :
    inOrder ((0, fault) :: faults) = (0, fault) :: inOrder faults := by
  have htrans (x y z : Nat × LexicalFault) (hxy : decide (x.1 ≤ y.1)) (hyz : decide (y.1 ≤ z.1)) :
      decide (x.1 ≤ z.1) :=
    decide_eq_true (Nat.le_trans (of_decide_eq_true hxy) (of_decide_eq_true hyz))
  have htotal (x y : Nat × LexicalFault) : decide (x.1 ≤ y.1) || decide (y.1 ≤ x.1) := by
    rw [Bool.or_eq_true, decide_eq_true_eq, decide_eq_true_eq]
    exact Nat.le_total x.1 y.1
  obtain ⟨before, behind, hall, hrest, hbefore⟩ :=
    List.mergeSort_cons htrans htotal (0, fault) faults
  have hnone : before = [] := by
    cases before with
    | nil => rfl
    | cons x before => exact absurd (hbefore x List.mem_cons_self) (by simp)
  subst hnone
  unfold inOrder
  rw [hall, hrest, List.nil_append, List.nil_append]

-- ---------------------------------------------------------------------------
-- Reading a string
-- ---------------------------------------------------------------------------

namespace StringBody

variable {cs : List Char} (body : StringBody cs) (limits : Limits)

/-- The piece of a string, by how the text is taken apart. -/
theorem string_eq : Piece.string limits cs =
    ({ text := body.token
       token := some (.literal (.string (String.ofList (body.decoded.take limits.stringLength))))
       faults :=
        (if !body.closed then [(0, .unclosedString)] else []) ++
        StringItem.faults limits.stringLength 1 0 body.items }, body.rest) := by
  rw [body.eq_ofText]
  rfl

/-- What is wrong behind the quote, in order. -/
theorem inOrder_faults_items (max : Nat) (items : List StringItem) :
    inOrder (StringItem.faults max 1 0 items) =
      overrunWithin max 0 (items.filterMap StringItem.decode).length ++
        escapeFaults ['"'] items := by
  -- the overrun is noticed at the quote, and every escape behind it
  refine inOrder_of_perm (perm_faults max 0 ['"'] items) (List.pairwise_append.mpr ⟨?_, ?_, ?_⟩)
  · unfold overrunWithin
    split
    · exact List.pairwise_singleton _ _
    · exact .nil
  · exact List.pairwise_map.mpr (pairwise_unknownEscapes ['"'] items)
  · intro x hx y hy
    obtain ⟨z, hz, rfl⟩ := List.mem_map.mp hy
    have hzero : x.1 = 0 := by
      unfold overrunWithin at hx
      split at hx
      · rw [List.mem_singleton.mp hx]
      · cases hx
    rw [hzero]
    exact Nat.lt_trans Nat.zero_lt_one (exists_of_mem_unknownEscapes hz).1

/-- The errors of the piece of a string. -/
theorem errorsAt_string (start : Position) :
    (Piece.string limits cs).1.errorsAt start = body.errors limits.stringLength start := by
  have hfaults : inOrder (Piece.string limits cs).1.faults =
      (if body.closed then [] else [(0, .unclosedString)]) ++
        (overrunWithin limits.stringLength 0 body.decoded.length ++
          escapeFaults ['"'] body.items) := by
    rw [body.string_eq, decoded, ← inOrder_faults_items]
    cases body.closed with
    | true => rfl
    | false => exact inOrder_cons_zero _ _
  have htext : (Piece.string limits cs).1.text = body.token := by rw [body.string_eq]
  -- the text in front of an escape, as counted, is that part of the token
  have hescapes : (escapeFaults ['"'] body.items).map (fun x =>
      SourceError.mk (.lexical x.2) (start.after (body.token.take x.1))) =
      (unknownEscapes ['"'] body.items).map fun x =>
        ⟨.lexical (.unknownEscape x.2), start.after x.1⟩ := by
    rw [escapeFaults, List.map_map]
    refine List.map_congr_left fun x hx => ?_
    have hprefix : x.1 <+: body.token :=
      (exists_of_mem_unknownEscapes hx).2.trans ⟨body.ending, rfl⟩
    show SourceError.mk _ (start.after (body.token.take x.1.length)) = _
    rw [← List.prefix_iff_eq_take.mp hprefix]
  have hunclosed : (if body.closed then [] else [(0, LexicalFault.unclosedString)]).map (fun x =>
      SourceError.mk (.lexical x.2) (start.after (body.token.take x.1))) =
      if body.closed then [] else [⟨.lexical .unclosedString, start⟩] := by
    cases body.closed <;> rfl
  have hoverrun : (overrunWithin limits.stringLength 0 body.decoded.length).map (fun x =>
      SourceError.mk (.lexical x.2) (start.after (body.token.take x.1))) =
      if limits.stringLength < body.decoded.length then
        [⟨.lexical (.stringTooLong limits.stringLength), start⟩] else [] := by
    simp only [overrunWithin, Nat.zero_le, true_and, Nat.zero_add]
    split <;> rfl
  rw [Piece.errorsAt, hfaults, htext, List.map_append, List.map_append, hunclosed, hoverrun,
    hescapes, errors, List.append_assoc]

end StringBody

/-- **Strings are scanned exactly.** Let a lexer stand in front of a quote. There is one way to take
the text behind it apart. The token that is read covers the quote, the items and the end and nothing
more, and its value is made of the first characters that the items stand for, up to the limit. The
errors are: one at the quote if the string is not closed, one there if more characters than the
limit were decoded, and one at each character that stands for nothing behind a backslash. -/
theorem string_scanned_exactly {l : Lexer} {start : Position} {cs : List Char}
    (h : l.StandsAt start) (hahead : l.ahead = '"' :: cs) :
    ∃ body : StringBody cs, (∀ other : StringBody cs, other = body) ∧
      l.next.1 = ⟨body.errors l.limits.stringLength start,
        some (.literal (.string (String.ofList (body.decoded.take l.limits.stringLength)))),
        start⟩ ∧
      l.ahead = body.token ++ l.next.2.ahead ∧ l.next.2.ahead = body.rest ∧
      l.next.2.StandsAt (start.after body.token) := by
  -- the body that the lexer itself takes apart is the only one
  let body := StringBody.ofText cs
  have hpiece : Piece.recognise l.limits '"' cs = Piece.string l.limits cs := by
    unfold Piece.recognise
    rw [if_neg (by decide), if_pos rfl]
  have hnext := Lexer.next_of_ahead_cons hahead
  obtain ⟨herrors, hbehind⟩ := Lexer.cut_spec h hahead
  have hrest : (l.cut '"' cs).2.ahead = body.rest := by
    show (Piece.recognise l.limits '"' cs).2 = _
    rw [hpiece, body.string_eq]
  rw [hpiece, body.errorsAt_string] at herrors
  rw [hpiece, body.string_eq] at hbehind hnext
  rw [hnext]
  refine ⟨body, fun other => other.eq_ofText, ?_, ?_, hrest, hbehind⟩
  · show Reading.mk (l.cut '"' cs).1 _ (l.cursor.advanceTo l.byte).position = _
    rw [herrors, h]
  · show l.ahead = body.token ++ (l.cut '"' cs).2.ahead
    rw [hahead, hrest, body.token_append]

/-- Limits that allow for two characters in a string. -/
def twoCharacters : Limits := { Limits.default with stringLength := 2 }

/-- A string with an unknown escape and too many characters, which a newline ends behind a lone
backslash. -/
def brokenString : List Char := ['"', 'a', '\\', 'q', 'b', 'c', '\\', '\n', '1']

/-- How it is taken apart. -/
def brokenBody : StringBody brokenString.tail where
  items := [.plain 'a', .escape 'q', .plain 'b', .plain 'c']
  ending := ['\\']
  closed := false
  rest := ['\n', '1']
  text := rfl
  allowed := by simp [StringItem.Allowed]
  ends := .backslash fun _ hc => by cases hc; rfl

/-- All that can be wrong with a string at once. -/
theorem string_scanned_exactly_broken :
    (Lexer.ofText twoCharacters brokenString).StandsAt .start ∧
      (Lexer.ofText twoCharacters brokenString).ahead = '"' :: brokenString.tail ∧
      (∀ other : StringBody brokenString.tail, other = brokenBody) ∧
      (Lexer.ofText twoCharacters brokenString).next.1 =
        ⟨[⟨.lexical .unclosedString, ⟨1, 1, 0⟩⟩, ⟨.lexical (.stringTooLong 2), ⟨1, 1, 0⟩⟩,
          ⟨.lexical (.unknownEscape 'q'), ⟨1, 4, 3⟩⟩],
          some (.literal (.string "ab")), ⟨1, 1, 0⟩⟩ ∧
      (Lexer.ofText twoCharacters brokenString).next.2.ahead = ['\n', '1'] ∧
      (Lexer.ofText twoCharacters brokenString).next.2.StandsAt ⟨1, 8, 7⟩ := by
  have hstart := Lexer.standsAt_ofText twoCharacters brokenString
  obtain ⟨body, hunique, hreading, -, hrest, hbehind⟩ := string_scanned_exactly hstart rfl
  obtain rfl : brokenBody = body := hunique brokenBody
  exact ⟨hstart, rfl, hunique, hreading, hrest, hbehind⟩

end NullScript
