import NullScript.Proofs.Printing

/-!
# NullScript — lexing undoes spelling

Tokens are written one after the other, each in its spelling and with a character behind it that
keeps it apart from the next one: a newline behind a comment and a blank behind any other token.
A double can be written with various digits, so a `Lexeme` is a token together with the digits that
are used if it is a double.

* `Lexeme.Within` — the token can be written, and keeps the limits.
* `tokenize_written` — what is read from the text are the tokens that were written.
-/

namespace NullScript

/-- A token that is to be written. -/
structure Lexeme where
  token : Token
  /-- The digits before and behind the point, if the token is a double. -/
  digits : List Char × List Char

namespace Lexeme

/-- How the token is written. -/
def spelling (x : Lexeme) : List Char := x.token.spelling fun _ => x.digits

/-- The token has a spelling that keeps the limits. A comment ends with its line. -/
def Within (limits : Limits) (x : Lexeme) : Prop :=
  match x.token with
  | .comment text => '\n' ∉ text.toList ∧ text.toList.length ≤ limits.commentLength
  | t => t.Writable limits fun _ => x.digits

/-- The spelling of a token that keeps the limits spells the token. -/
theorem Within.spells {limits : Limits} {x : Lexeme} (h : x.Within limits) :
    Spells limits x.spelling x.token := by
  obtain ⟨t, digits⟩ := x
  -- a comment may hold anything but a newline; other spellings depend on the value of the token
  cases t with
  | comment text =>
    have hcomment := Spells.comment h.1 h.2
    rwa [String.ofList_toList] at hcomment
  | _ => exact spells_spelling h

end Lexeme

/-- The text of tokens: their spellings with separators behind them. -/
def written (xs : List Lexeme) : List Char := xs.flatMap fun x => x.spelling ++ [x.token.separator]

theorem written_eq_spelled (xs : List Lexeme) :
    written xs = spelled (xs.map fun x => (x.spelling, x.token)) := by
  rw [written, spelled, List.flatMap_map]

/-- **Lexing undoes spelling.** A text of tokens that keep the limits is read as just these tokens,
in order, and nothing is reported. -/
theorem tokenize_written (limits : Limits) (xs : List Lexeme) (h : ∀ x ∈ xs, x.Within limits) :
    (tokenized limits (written xs)).map Prod.fst = xs.map (fun x => some x.token) ++ [none] ∧
      lexicalErrors limits (written xs) = [] := by
  have hspells : ∀ y ∈ xs.map fun x => (x.spelling, x.token), Spells limits y.1 y.2 :=
    List.forall_mem_map.mpr fun x hx => (h x hx).spells
  rw [written_eq_spelled]
  refine ⟨?_, lexicalErrors_spelled hspells⟩
  have htokens := map_token_spelled hspells
  rw [List.map_map] at htokens
  rw [tokenized, List.map_map]
  exact htokens

/-- Limits that the tokens below just keep. -/
def Limits.tight : Limits where
  identifierLength := 3
  integerValue := 10
  fractionDigits := 2
  stringLength := 4
  commentLength := 2

/-- Tokens that begin like others, zeros, the same double in two ways, escapes and a comment. -/
def lexemes : List Lexeme :=
  [.keyword .as_, .identifier "asé", .unary .minus, .arrow, .orElse, .punctuation .question,
    .punctuation .assign, .comparison .equal, .multiplicative .divide, .comment "/\"",
    .literal (.int 0), .literal (.int 10), .literal (.string "\n\\\"é")].map (⟨·, [], []⟩) ++
  [⟨.literal (.double (Piece.doubleValue 10 [])), ['1', '0'], []⟩,
    ⟨.literal (.double (Piece.doubleValue 0 ['5'])), ['0'], ['5']⟩,
    ⟨.literal (.double (Piece.doubleValue 0 ['5'])), ['0'], ['5', '0']⟩]

/-- All these tokens keep the limits, and are read again from their text. -/
theorem tokenize_written_lexemes :
    (∀ x ∈ lexemes, x.Within .tight) ∧
      (tokenized .tight (written lexemes)).map Prod.fst =
        lexemes.map (fun x => some x.token) ++ [none] ∧
      lexicalErrors .tight (written lexemes) = [] := by
  have hname : IsName .tight "asé" := ⟨⟨_, _, rfl, by decide, by decide⟩, rfl, rfl, by decide⟩
  have hten : IsWhole .tight ['1', '0'] := ⟨by decide, rfl, by decide, by decide⟩
  have hzero : IsWhole .tight ['0'] := ⟨by decide, rfl, fun _ => rfl, by decide⟩
  -- the digit `0` at the end makes no difference to the double
  have hsame : Piece.doubleValue (wholeValue ['0']) ['5', '0'] = Piece.doubleValue 0 ['5'] := by
    decide +kernel
  have hwithin : ∀ x ∈ lexemes, x.Within .tight := by
    -- one condition for each of the tokens
    simp only [lexemes, List.map_cons, List.map_nil, List.cons_append, List.nil_append,
      List.forall_mem_cons, Lexeme.Within, Token.Writable, Datum.Writable]
    exact ⟨trivial, hname, trivial, trivial, trivial, trivial, trivial, trivial, trivial,
      ⟨by decide, by decide⟩, ⟨by decide, by decide⟩, ⟨by decide, by decide⟩, by decide,
      ⟨hten, rfl, by decide, rfl⟩, ⟨hzero, rfl, by decide, rfl⟩, ⟨hzero, rfl, by decide, hsame⟩,
      fun _ h => absurd h List.not_mem_nil⟩
  exact ⟨hwithin, tokenize_written .tight lexemes hwithin⟩

end NullScript
