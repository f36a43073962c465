import NullScript.Token.Lexer

/-!
# NullScript — a cursor tells places

A cursor that is sent to a character boundary ahead stands behind the characters before it, at the
place that reading them leads to. Sent to one boundary after the other, it tells the place of each.

* `Cursor.advanceTo_skip` — being sent to the end of the next characters is walking past them.
* `Cursor.report_skip` — what is noted at increasing offsets is reported at the places there.
-/

namespace NullScript

-- ---------------------------------------------------------------------------
-- Bytes
-- ---------------------------------------------------------------------------

@[simp] theorem byteLength_nil : byteLength [] = 0 := rfl

@[simp] theorem byteLength_cons (c : Char) (text : List Char) :
    byteLength (c :: text) = c.utf8Size + byteLength text := rfl

@[simp] theorem byteLength_append (a b : List Char) :
    byteLength (a ++ b) = byteLength a + byteLength b := by
  induction a with
  | nil => simp
  | cons c a ih => rw [List.cons_append, byteLength_cons, ih, byteLength_cons, Nat.add_assoc]

/-- The bytes of the next characters, taken in two parts. -/
theorem byteLength_take_add (text : List Char) (m n : Nat) :
    byteLength (text.take (m + n)) =
      byteLength (text.take m) + byteLength ((text.drop m).take n) := by
  rw [List.take_add, byteLength_append]

/-- More characters take at least as many bytes. -/
theorem byteLength_take_le {m n : Nat} (text : List Char) (h : m ≤ n) :
    byteLength (text.take m) ≤ byteLength (text.take n) := by
  obtain ⟨k, rfl⟩ := Nat.exists_eq_add_of_le h
  rw [byteLength_take_add]
  exact Nat.le_add_right _ _

/-- More characters take more bytes, as long as there are any. -/
theorem byteLength_take_lt {text : List Char} {m n : Nat} (hmn : m < n) (hn : n ≤ text.length) :
    byteLength (text.take m) < byteLength (text.take n) := by
  have hm : m < text.length := Nat.lt_of_lt_of_le hmn hn
  have hsucc : byteLength (text.take (m + 1)) =
      byteLength (text.take m) + (text[m].utf8Size + 0) := by
    rw [byteLength_take_add, List.drop_eq_getElem_cons hm]
    rfl
  have hle : byteLength (text.take (m + 1)) ≤ byteLength (text.take n) :=
    byteLength_take_le text hmn
  have hpos := text[m].utf8Size_pos
  omega

/-- Of two places in a text, the one with fewer bytes before it has fewer characters before it. -/
theorem byteLength_take_le_iff {text : List Char} {m n : Nat} (hm : m ≤ text.length) :
    byteLength (text.take m) ≤ byteLength (text.take n) ↔ m ≤ n := by
  refine ⟨fun h => ?_, byteLength_take_le text⟩
  rcases Nat.lt_or_ge n m with hlt | hge
  · exact absurd h (Nat.not_le.mpr (byteLength_take_lt hlt hm))
  · exact hge

-- ---------------------------------------------------------------------------
-- Walking
-- ---------------------------------------------------------------------------

namespace Cursor

/-- The cursor behind that many more characters. -/
def skip (c : Cursor) (count : Nat) : Cursor :=
  ⟨c.ahead.drop count, c.byte + byteLength (c.ahead.take count),
    c.position.after (c.ahead.take count)⟩

/-- Walking on is walking the sum at once. -/
theorem skip_skip (c : Cursor) (m n : Nat) : (c.skip m).skip n = c.skip (m + n) := by
  unfold skip
  rw [List.drop_drop, byteLength_take_add, List.take_add, Position.after_append, Nat.add_assoc]

/-- A target that has been passed moves nothing. -/
theorem advanceTo_of_le {c : Cursor} {target : Nat} (h : target ≤ c.byte) :
    c.advanceTo target = c := by
  obtain ⟨ahead, byte, position⟩ := c
  cases ahead with
  | nil => rfl
  | cons ch rest => exact if_neg (Nat.not_lt.mpr h)

/-- Being sent to the end of the next characters is walking past them. -/
theorem advanceTo_skip (c : Cursor) (count : Nat) :
    c.advanceTo (c.byte + byteLength (c.ahead.take count)) = c.skip count := by
  -- induction on the characters, of which the cursor takes one as long as the target is ahead
  induction count generalizing c with
  | zero => exact advanceTo_of_le (Nat.le_refl _)
  | succ count ih =>
    obtain ⟨ahead, byte, position⟩ := c
    cases ahead with
    | nil => rfl
    | cons ch rest =>
      have hlt : byte < byte + ch.utf8Size + byteLength (rest.take count) := by
        have := ch.utf8Size_pos
        omega
      have hrest := ih ⟨rest, byte + ch.utf8Size, position.next ch⟩
      unfold skip at hrest ⊢
      simp only [List.take_succ_cons, byteLength_cons, List.drop_succ_cons, Position.after_cons,
        ← Nat.add_assoc] at hrest ⊢
      rw [← hrest]
      exact if_pos hlt

/-- A cursor on its way to a place ahead can be sent there from any place before. -/
theorem advanceTo_skip_of_le {m n : Nat} (c : Cursor) (h : m ≤ n) :
    (c.skip m).advanceTo (c.byte + byteLength (c.ahead.take n)) = c.skip n := by
  obtain ⟨k, rfl⟩ := Nat.exists_eq_add_of_le h
  rw [byteLength_take_add, ← Nat.add_assoc, ← skip_skip]
  exact advanceTo_skip (c.skip m) k

/-- What is noted at increasing offsets is reported at the places there, and the cursor has not been
sent beyond the last one. -/
theorem report_skip {m n : Nat} (c : Cursor) {faults : List (Nat × LexicalFault)}
    (hsorted : faults.Pairwise fun x y => x.1 ≤ y.1) (hm : ∀ x ∈ faults, m ≤ x.1)
    (hn : ∀ x ∈ faults, x.1 ≤ n) (hmn : m ≤ n) :
    ∃ last ≤ n,
      (c.skip m).report (faults.map fun x => (c.byte + byteLength (c.ahead.take x.1), x.2)) =
        (faults.map fun x => ⟨.lexical x.2, c.position.after (c.ahead.take x.1)⟩, c.skip last) := by
  -- induction on the faults: behind one the cursor stands at its place
  induction faults generalizing m with
  | nil => exact ⟨m, hmn, rfl⟩
  | cons x faults ih =>
    rw [List.pairwise_cons] at hsorted
    rw [List.forall_mem_cons] at hm hn
    obtain ⟨last, hlast, hreport⟩ := ih hsorted.2 hsorted.1 hn.2 hn.1
    refine ⟨last, hlast, ?_⟩
    rw [List.map_cons, report, advanceTo_skip_of_le c hm.1, hreport]
    rfl

end Cursor

end NullScript
