import NullScript.Proofs.Boundary
import NullScript.Proofs.Digits
import NullScript.Proofs.Readings

/-!
# NullScript — spelling tokens

How a token is written so that it is read again: which texts spell which token within the limits,
and what is read from spelled tokens that are kept apart.

* `Spells` — a text is a spelling of a token.
* `recognise_spelling` — a spelling is cut off as one piece, without a fault.
* `pieces_spelled`, `map_token_spelled`, `lexicalErrors_spelled` — a sequence of spelled tokens.
-/

namespace NullScript

-- ---------------------------------------------------------------------------
-- Spellings
-- ---------------------------------------------------------------------------

/-- The item that stands for a character between quotes. -/
def StringItem.ofChar : Char → StringItem
  | '\n' => .escape 'n'
  | '\t' => .escape 't'
  | '\r' => .escape 'r'
  | '\x08' => .escape 'b'
  | '\\' => .escape '\\'
  | '"' => .escape '"'
  | c => .plain c

/-- A string in quotes. -/
def quote (s : String) : List Char :=
  '"' :: ((s.toList.map StringItem.ofChar).flatMap StringItem.text ++ ['"'])

/-- The text has the form of a name. -/
def IsWord (text : List Char) : Prop :=
  ∃ c cs, text = c :: cs ∧ Piece.isNameStart c ∧ cs.all Piece.isNamePart

/-- The string can be the name of a variable or function. -/
structure IsName (limits : Limits) (x : String) : Prop where
  word : IsWord x.toList
  free : Token.ofReserved? x = none
  notOnlyUnderscores : x.toList.all (· = '_') = false
  short : x.toList.length ≤ limits.identifierLength

/-- The text is a whole number within the limit, without needless zeros in front. -/
structure IsWhole (limits : Limits) (text : List Char) : Prop where
  nonempty : text ≠ []
  digits : text.all Char.isDigit
  noZero : text.head? = some '0' → text = ['0']
  small : Nat.ofDigitChars 10 text 0 ≤ limits.integerValue.toInt

/-- The number that digits denote. -/
def wholeValue (digits : List Char) : Int64 := Int64.ofNat (Nat.ofDigitChars 10 digits 0)

/-- The display of an integer within the limit, and the number that it denotes. -/
theorem isWhole_display {limits : Limits} {n : Int64} (hn : 0 ≤ n)
    (hmax : n ≤ limits.integerValue) :
    IsWhole limits (Integer.display n).toList ∧ wholeValue (Integer.display n).toList = n := by
  have hint : 0 ≤ n.toInt := Int64.le_iff_toInt_le.mp hn
  have hlt := n.toInt_lt
  have hvalue : Nat.ofDigitChars 10 (Nat.toDigits 10 n.toInt.toNat) 0 = n.toInt.toNat :=
    Nat.ofDigitChars_ten_toDigits
  rw [Integer.toList_display hn]
  refine ⟨⟨Nat.toDigits_ne_nil, ?_, ?_, ?_⟩, ?_⟩
  · exact List.all_eq_true.mpr fun c hc => Nat.isDigit_of_mem_toDigits (by decide) (by decide) hc
  · intro hzero
    rw [Integer.eq_zero_of_head?_toDigits hzero]
    rfl
  · rw [hvalue, Int.toNat_of_nonneg hint]
    exact Int64.le_iff_toInt_le.mp hmax
  · rw [wholeValue, hvalue, ← Int64.toInt_inj, Int64.toInt_ofNat_of_lt (by omega),
      Int.toNat_of_nonneg hint]

/-- The text spells the token, and both keep the limits. -/
inductive Spells (limits : Limits) : List Char → Token → Prop
  | comment {text : List Char} : '\n' ∉ text → text.length ≤ limits.commentLength →
    Spells limits ('/' :: '/' :: text) (.comment (String.ofList text))
  | reserved {word : String} {t : Token} :
    Token.ofReserved? word = some t → Spells limits word.toList t
  | name {x : String} : IsName limits x → Spells limits x.toList (.identifier x)
  | int {digits : List Char} :
    IsWhole limits digits → Spells limits digits (.literal (.int (wholeValue digits)))
  | double {whole fraction : List Char} :
    IsWhole limits whole → fraction.all Char.isDigit → fraction.length ≤ limits.fractionDigits →
    Spells limits (whole ++ '.' :: fraction)
      (.literal (.double (Piece.doubleValue (wholeValue whole) fraction)))
  | string {s : String} :
    s.toList.length ≤ limits.stringLength → Spells limits (quote s) (.literal (.string s))
  | sign {c : Char} {t : Token} : Token.ofChar? c = some t → Spells limits [c] t
  | pair {c d : Char} {t : Token} : Token.ofPair? c d = some t → Spells limits [c, d] t

namespace Piece

variable {limits : Limits} {c d : Char} {cs : List Char} {t : Token}

theorem takeWhile_of_all {p : Char → Bool} (h : ∀ c ∈ cs, p c) : cs.takeWhile p = cs := by
  have := @List.takeWhile_append_of_pos _ p cs [] h
  simpa using this

/-- Where all characters satisfy a condition, none is left. -/
theorem dropWhile_of_all {p : Char → Bool} (h : ∀ c ∈ cs, p c) : cs.dropWhile p = [] := by
  have := List.takeWhile_append_dropWhile (p := p) (l := cs)
  rw [takeWhile_of_all h] at this
  exact List.append_right_eq_self.mp this

-- ---------------------------------------------------------------------------
-- Words
-- ---------------------------------------------------------------------------

theorem isNamePart_of_isNameStart (h : isNameStart c) : isNamePart c := by
  unfold isNamePart
  exact Bool.or_eq_true_iff.mpr (.inl h)

/-- A text of the form of a name is cut off as a word. -/
theorem recognise_word (hc : isNameStart c) (hcs : cs.all isNamePart) :
    recognise limits c cs = (word limits (c :: cs), []) := by
  have hblank : ¬isBlank c := fun hblank => by
    have := isNamePart_of_isBlank hblank
    rw [isNamePart_of_isNameStart hc] at this
    cases this
  have hquote : c ≠ '"' := by
    rintro rfl
    exact absurd hc (by decide)
  have hpart := List.all_eq_true.mp hcs
  rw [recognise, if_neg hblank, if_neg hquote, if_pos hc, takeWhile_of_all hpart,
    dropWhile_of_all hpart]

/-- Reserved words have the form of names. -/
theorem isWord_of_ofReserved? {x : String} (h : Token.ofReserved? x = some t) :
    IsWord x.toList := by
  unfold Token.ofReserved? at h
  split at h
  -- a keyword, by its spelling, or one of the three words for values
  · next k hk =>
    have hx : k.spelling = x := by simpa using List.find?_some hk
    rw [← hx]
    cases k <;> exact ⟨_, _, rfl, by decide, by decide⟩
  · have hx : x = "true" ∨ x = "false" ∨ x = "null" := by
      unfold Datum.ofWord? at h
      split at h
      · exact .inl ‹_›
      split at h
      · exact .inr (.inl ‹_›)
      split at h
      · exact .inr (.inr ‹_›)
      · cases h
    rcases hx with rfl | rfl | rfl
    all_goals exact ⟨_, _, rfl, by decide, by decide⟩

/-- A reserved word is read as its token, whatever the limits. -/
theorem word_of_ofReserved? {x : String} (h : Token.ofReserved? x = some t) :
    word limits x.toList = ⟨x.toList, some t, []⟩ := by
  unfold word
  rw [String.ofList_toList, h]

/-- A name within the limits is read as an identifier. -/
theorem word_of_isName {x : String} (h : IsName limits x) :
    word limits x.toList = ⟨x.toList, some (.identifier x), []⟩ := by
  have hlong : ¬limits.identifierLength < x.toList.length := Nat.not_lt.mpr h.short
  unfold word
  rw [String.ofList_toList, h.free]
  simp only
  rw [List.take_of_length_le h.short, String.ofList_toList, h.notOnlyUnderscores, if_neg hlong]
  rfl

-- ---------------------------------------------------------------------------
-- Numbers
-- ---------------------------------------------------------------------------

/-- Nothing below the letters starts a name. -/
theorem isNameStart_of_lt (h : c.toNat < 0x41) : isNameStart c = false := by
  have hunderscore : c ≠ '_' := by
    rintro rfl
    exact absurd h (by decide)
  rw [isNameStart, decide_eq_false hunderscore, isLetter, letterRanges, inRanges, if_pos h]
  rfl

/-- A text that starts with a digit is cut off as a number. -/
theorem recognise_number (hc : c.isDigit) : recognise limits c cs = number limits c cs := by
  have hblank : ¬isBlank c := fun hblank => by
    rw [isDigit_of_isBlank hblank] at hc
    cases hc
  have hquote : c ≠ '"' := by
    rintro rfl
    exact absurd hc (by decide)
  have hname : isNameStart c = false := by
    refine isNameStart_of_lt ?_
    unfold Char.isDigit at hc
    have hnine : c.val ≤ '9'.val := of_decide_eq_true (Bool.and_eq_true_iff.mp hc).2
    exact Nat.lt_of_le_of_lt hnine (by decide)
  rw [recognise, if_neg hblank, if_neg hquote, hname, if_neg Bool.false_ne_true, if_pos hc]

/-- Behind the digits of a whole number, those of a fraction may stand, or nothing. -/
theorem moreDigits_of_isWhole (h : IsWhole limits (c :: cs)) (rest : List Char)
    (hrest : rest.takeWhile Char.isDigit = []) :
    moreDigits c (cs ++ rest) = (cs, rest) := by
  have hdigits : ∀ d ∈ cs, d.isDigit := fun d hd =>
    List.all_eq_true.mp h.digits d (List.mem_cons_of_mem c hd)
  have hdrop : rest.dropWhile Char.isDigit = rest := by
    have := List.takeWhile_append_dropWhile (p := Char.isDigit) (l := rest)
    rwa [hrest, List.nil_append] at this
  unfold moreDigits
  split
  · next hzero =>
    have hcs : cs = [] := (List.cons.inj (h.noZero (by rw [hzero]; rfl))).2
    rw [hcs]
    rfl
  · rw [List.takeWhile_append_of_pos hdigits, List.dropWhile_append_of_pos hdigits, hrest, hdrop,
      List.append_nil]

/-- A whole number within the limit is read as its value. -/
theorem number_of_isWhole (h : IsWhole limits (c :: cs)) :
    number limits c cs = (⟨c :: cs, some (.literal (.int (wholeValue (c :: cs)))), []⟩, []) := by
  have hmore : moreDigits c cs = (cs, []) := by
    have := moreDigits_of_isWhole h [] rfl
    rwa [List.append_nil] at this
  unfold number
  rw [hmore]
  simp only [integer, Integer.accumulate_of_le h.digits h.small, numberFaults]
  rfl

/-- A decimal within the limits is read as the double of its two parts. -/
theorem number_of_isWhole_fraction {fraction : List Char} (h : IsWhole limits (c :: cs))
    (hfraction : fraction.all Char.isDigit) (hshort : fraction.length ≤ limits.fractionDigits) :
    number limits c (cs ++ '.' :: fraction) =
      (⟨c :: cs ++ '.' :: fraction,
        some (.literal (.double (doubleValue (wholeValue (c :: cs)) fraction))), []⟩, []) := by
  have hmore := moreDigits_of_isWhole h ('.' :: fraction) rfl
  have hdigits := List.all_eq_true.mp hfraction
  have hlong : ¬limits.fractionDigits < fraction.length := Nat.not_lt.mpr hshort
  unfold number
  rw [hmore]
  simp only [takeWhile_of_all hdigits, dropWhile_of_all hdigits, double,
    Integer.accumulate_of_le h.digits h.small, numberFaults, if_neg hlong]
  rfl

-- ---------------------------------------------------------------------------
-- Strings
-- ---------------------------------------------------------------------------

/-- A character stands for itself, or an escape stands for it. -/
theorem ofChar_cases (c : Char) :
    (StringItem.ofChar c = .plain c ∧ ¬(c = '"' ∨ c = '\n') ∧ c ≠ '\\') ∨
      ∃ d, StringItem.ofChar c = .escape d ∧ d ≠ '\n' ∧ StringItem.unescape d = some c := by
  unfold StringItem.ofChar
  split
  case h_7 hnewline _ _ _ hbackslash hquote =>
    exact .inl ⟨rfl, fun h => h.elim hquote hnewline, hbackslash⟩
  all_goals exact .inr ⟨_, rfl, by decide, rfl⟩

/-- The item for a character stands for that character. -/
theorem decode_ofChar (c : Char) : (StringItem.ofChar c).decode = some c := by
  rcases ofChar_cases c with ⟨hitem, -, -⟩ | ⟨d, hitem, -, hescape⟩
  · rw [hitem, StringItem.decode]
  · rw [hitem, StringItem.decode, hescape]

/-- The items for the characters of a string stand for the string. -/
theorem filterMap_decode_ofChar (s : List Char) :
    (s.map StringItem.ofChar).filterMap StringItem.decode = s := by
  induction s with
  | nil => rfl
  | cons c s ih => rw [List.map_cons, List.filterMap_cons, decode_ofChar, ih]

/-- The items of a quoted string are read up to its closing quote. -/
theorem readItems_ofChar (s rest : List Char) :
    readItems ((s.map StringItem.ofChar).flatMap StringItem.text ++ '"' :: rest) =
      (s.map StringItem.ofChar, '"' :: rest) := by
  induction s with
  | nil => exact readItems_of_stop (.inl rfl) rest
  | cons c s ih =>
    rw [List.map_cons, List.flatMap_cons, List.append_assoc]
    rcases ofChar_cases c with ⟨hitem, hstop, hplain⟩ | ⟨d, hitem, hnewline, -⟩
    · rw [hitem, StringItem.text, List.cons_append, List.nil_append,
        readItems_plain hstop hplain, ih]
    · rw [hitem, StringItem.text, List.cons_append, List.cons_append, List.nil_append,
        readItems_escape hnewline, ih]

/-- Items that all stand for a character, and not for too many, show no fault. -/
theorem faults_ofChar {max decoded : Nat} (behind : Nat) {s : List Char}
    (h : decoded + s.length ≤ max) :
    StringItem.faults max behind decoded (s.map StringItem.ofChar) = [] := by
  induction s generalizing behind decoded with
  | nil => rfl
  | cons c s ih =>
    rw [List.length_cons] at h
    have hrest (behind : Nat) := ih behind (show decoded + 1 + s.length ≤ max by omega)
    have hshort : StringItem.overrun max decoded = [] := if_neg (by omega)
    rw [List.map_cons]
    rcases ofChar_cases c with ⟨hitem, -, -⟩ | ⟨d, hitem, -, hescape⟩
    · rw [hitem, StringItem.faults, hshort, hrest, List.nil_append]
    · rw [hitem, StringItem.faults, hescape]
      simp only
      rw [hshort, hrest, List.nil_append]

/-- A quoted string within the limit is read as the string. -/
theorem string_quoted {s : List Char} (h : s.length ≤ limits.stringLength) :
    string limits ((s.map StringItem.ofChar).flatMap StringItem.text ++ ['"']) =
      (⟨'"' :: ((s.map StringItem.ofChar).flatMap StringItem.text ++ ['"']),
        some (.literal (.string (String.ofList s))), []⟩, []) := by
  have hshort : 0 + s.length ≤ limits.stringLength := by omega
  unfold string
  rw [readItems_ofChar]
  simp only [stringEnd, filterMap_decode_ofChar, List.take_of_length_le h,
    faults_ofChar 1 hshort]
  rfl

-- ---------------------------------------------------------------------------
-- Signs and comments
-- ---------------------------------------------------------------------------

/-- What starts no blank, string, name, number or comment is cut off as a sign. -/
theorem recognise_sign (hblank : isBlank c = false) (hquote : c ≠ '"')
    (hname : isNameStart c = false) (hdigit : c.isDigit = false)
    (hcomment : c = '/' → cs.head? ≠ some '/') : recognise limits c cs = sign c cs := by
  have hcomment : ¬(c = '/' ∧ cs.head? = some '/') := fun h => hcomment h.1 h.2
  rw [recognise, hblank, if_neg Bool.false_ne_true, if_neg hquote, hname,
    if_neg Bool.false_ne_true, hdigit, if_neg Bool.false_ne_true, if_neg hcomment]

/-- A sign of one character is read as its token. -/
theorem recognise_ofChar? (h : Token.ofChar? c = some t) :
    recognise limits c [] = (⟨[c], some t, []⟩, []) := by
  have hsign : recognise limits c [] = sign c [] := by
    unfold Token.ofChar? at h
    split at h
    case h_16 => cases h
    all_goals exact recognise_sign (by decide) (by decide) (by decide) (by decide) nofun
  rw [hsign, sign, single, h]

/-- A sign of two characters is read as its token. -/
theorem recognise_ofPair? (h : Token.ofPair? c d = some t) :
    recognise limits c [d] = (⟨[c, d], some t, []⟩, []) := by
  have hsign : recognise limits c [d] = sign c [d] := by
    unfold Token.ofPair? at h
    split at h
    case h_9 => cases h
    all_goals exact recognise_sign (by decide) (by decide) (by decide) (by decide) nofun
  rw [hsign, sign, h]

/-- A comment within the limit is read as its text. -/
theorem recognise_comment (hnewline : '\n' ∉ cs) (hshort : cs.length ≤ limits.commentLength) :
    recognise limits '/' ('/' :: cs) =
      (⟨'/' :: '/' :: cs, some (.comment (String.ofList cs)), []⟩, []) := by
  have hline : ∀ c ∈ cs, decide (c ≠ '\n') = true := fun c hc =>
    decide_eq_true fun h => hnewline (h ▸ hc)
  have hlong : ¬limits.commentLength < cs.length := Nat.not_lt.mpr hshort
  have hcomment : recognise limits '/' ('/' :: cs) = comment limits cs := rfl
  rw [hcomment, comment]
  simp only [takeWhile_of_all hline, dropWhile_of_all hline, if_neg hlong,
    List.take_of_length_le hshort]

-- ---------------------------------------------------------------------------
-- Any spelling
-- ---------------------------------------------------------------------------

/-- A spelling by itself is one piece without a fault. -/
theorem recognise_of_spells {text : List Char} (h : Spells limits text t) :
    ∃ c cs, text = c :: cs ∧ recognise limits c cs = (⟨text, some t, []⟩, []) := by
  -- by the way of spelling; each has its own branch in `recognise`
  cases h with
  | comment hnewline hshort => exact ⟨_, _, rfl, recognise_comment hnewline hshort⟩
  | reserved hreserved =>
    obtain ⟨c, cs, htext, hc, hcs⟩ := isWord_of_ofReserved? hreserved
    refine ⟨c, cs, htext, ?_⟩
    rw [recognise_word hc hcs, ← htext, word_of_ofReserved? hreserved]
  | name hname =>
    obtain ⟨c, cs, htext, hc, hcs⟩ := hname.word
    refine ⟨c, cs, htext, ?_⟩
    rw [recognise_word hc hcs, ← htext, word_of_isName hname]
  | int hwhole =>
    obtain ⟨c, cs, rfl⟩ := List.exists_cons_of_ne_nil hwhole.nonempty
    have hc := List.all_eq_true.mp hwhole.digits c List.mem_cons_self
    exact ⟨c, cs, rfl, (recognise_number hc).trans (number_of_isWhole hwhole)⟩
  | @double whole fraction hwhole hfraction hshort =>
    obtain ⟨c, cs, rfl⟩ := List.exists_cons_of_ne_nil hwhole.nonempty
    have hc := List.all_eq_true.mp hwhole.digits c List.mem_cons_self
    exact ⟨c, cs ++ '.' :: fraction, rfl,
      (recognise_number hc).trans (number_of_isWhole_fraction hwhole hfraction hshort)⟩
  | @string s hshort =>
    have hstring := string_quoted hshort
    rw [String.ofList_toList] at hstring
    exact ⟨'"', _, rfl, hstring⟩
  | sign hsign => exact ⟨_, _, rfl, recognise_ofChar? hsign⟩
  | pair hpair => exact ⟨_, _, rfl, recognise_ofPair? hpair⟩

end Piece

-- ---------------------------------------------------------------------------
-- Sequences of spelled tokens
-- ---------------------------------------------------------------------------

/-- The character that is put behind a token to keep it apart from the next one. -/
def Token.separator : Token → Char
  | .comment _ => '\n'
  | _ => ' '

theorem Token.isBlank_separator (t : Token) : Piece.isBlank t.separator := by
  cases t <;> rfl

/-- A spelling with its separator is cut off as one piece, without a fault. -/
theorem recognise_spelling {limits : Limits} {text : List Char} {t : Token}
    (h : Spells limits text t) (rest : List Char) :
    ∃ c cs, text = c :: cs ∧ Piece.recognise limits c (cs ++ t.separator :: rest) =
      (⟨text, some t, []⟩, t.separator :: rest) := by
  obtain ⟨c, cs, htext, hpiece⟩ := Piece.recognise_of_spells h
  refine ⟨c, cs, htext, ?_⟩
  -- A comment needs its newline. A string is closed, since its piece has no fault.
  have hends : t.separator = '\n' ∨ ¬(Piece.recognise limits c cs).1.RunsOn := by
    cases hcode : t with
    | comment text => exact .inl rfl
    | _ =>
      refine .inr ?_
      rw [hpiece, hcode]
      rintro (⟨_, hcomment⟩ | hfault)
      · cases hcomment
      · cases hfault
  rw [Piece.recognise_boundary t.isBlank_separator hends, hpiece]
  rfl

/-- Tokens in their spellings, each with its separator behind. -/
def spelled (xs : List (List Char × Token)) : List Char :=
  xs.flatMap fun x => x.1 ++ [x.2.separator]

section

variable {limits : Limits} {xs : List (List Char × Token)}
  (h : ∀ x ∈ xs, Spells limits x.1 x.2)

include h

/-- Spelled tokens are cut into their spellings and the separators. -/
theorem pieces_spelled :
    pieces limits (spelled xs) =
      xs.flatMap fun x => [⟨x.1, some x.2, []⟩, ⟨[x.2.separator], none, []⟩] := by
  -- on the tokens: each is a piece with its separator as the next one, which is no token
  induction xs with
  | nil => simp [spelled, pieces]
  | cons x xs ih =>
    obtain ⟨text, t⟩ := x
    obtain ⟨hx, hxs⟩ := List.forall_mem_cons.mp h
    obtain ⟨c, cs, (htext : text = c :: cs), hpiece⟩ := recognise_spelling hx (spelled xs)
    have hcons : spelled ((text, t) :: xs) = c :: (cs ++ t.separator :: spelled xs) := by
      simp [spelled, htext]
    have hblank : Piece.recognise limits t.separator (spelled xs) =
        (⟨[t.separator], none, []⟩, spelled xs) := by
      rw [Piece.recognise, if_pos t.isBlank_separator]
    rw [hcons, pieces, hpiece, pieces, hblank, ih hxs]
    rfl

/-- What is read from spelled tokens are these tokens, and then the end of the text. -/
theorem map_token_spelled :
    (readings limits (spelled xs)).map Reading.token = xs.map (fun x => some x.2) ++ [none] := by
  -- where the pieces stand does not matter for which tokens they are
  have hplaced : ∀ before : List Char, ((placed before (pieces limits (spelled xs))).filterMap
      tokenAt).map Prod.fst = xs.map fun x => some x.2 := by
    rw [pieces_spelled h]
    clear h
    induction xs with
    | nil => exact fun _ => rfl
    | cons x xs ih => exact fun before => congrArg (some x.2 :: ·) (ih _)
  have htokenized := congrArg (List.map Prod.fst) (tokenized_eq limits (spelled xs))
  rw [tokenized, List.map_map, List.map_append, hplaced] at htokenized
  exact htokenized

/-- Nothing is wrong with spelled tokens. -/
theorem lexicalErrors_spelled : lexicalErrors limits (spelled xs) = [] := by
  rw [lexicalErrors_eq, List.flatMap_eq_nil_iff]
  intro x hx
  obtain ⟨hpiece, -⟩ := exists_of_mem_placed hx
  rw [pieces_spelled h, List.mem_flatMap] at hpiece
  obtain ⟨y, -, hy⟩ := hpiece
  refine Piece.errorsAt_of_faults_nil ?_ _
  rcases List.mem_cons.mp hy with hy | hy
  · rw [hy]
  · rw [List.mem_singleton.mp hy]

end

end NullScript
