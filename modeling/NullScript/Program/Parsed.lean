import NullScript.SourceError
import NullScript.Token

/-!
# NullScript — what is read from tokens

Reading a construct from a list of tokens always gives a value, perhaps one that stands for nothing
found; it leaves the tokens that were not consumed, and reports faults on the way. A fault is
located by the number of tokens that were left when it was noticed.

A value that stands for something costs at least one token. `Parsed` carries the proof, which is
what makes reading one construct after the other come to an end.
-/

namespace NullScript

/-- A grammar fault and the number of tokens left where it was noticed. -/
structure Fault where
  cause : GrammarFault
  left : Nat
deriving DecidableEq

/-- Values that are read from tokens, with the number of tokens that each needs at least. -/
class Cost (α : Type) where
  cost : α → Nat

export Cost (cost)

/-- Whether a token was there. -/
instance : Cost Bool := ⟨Bool.toNat⟩

/-- Something that may be missing. -/
instance {α : Type} : Cost (Option α) := ⟨fun o => o.isSome.toNat⟩

/-- Any number of things. -/
instance {α : Type} : Cost (List α) := ⟨fun _ => 0⟩

theorem cost_map {α β : Type} (f : α → β) (o : Option α) : cost (o.map f) = cost o := by
  cases o <;> rfl

theorem cost_le_one {α : Type} (o : Option α) : cost o ≤ 1 :=
  Bool.toNat_le o.isSome

/-- Something that is kept only if a token was there costs no more than that token. -/
theorem cost_ite_le {α : Type} (there : Bool) (o : Option α) :
    cost (if there then o else none) ≤ cost there := by
  cases there with
  | true => exact cost_le_one o
  | false => exact Nat.le_refl 0

/-- What reading a construct from the tokens gives. -/
structure Parsed (tokens : List Token) (α : Type) [Cost α] where
  value : α
  /-- What was noticed, in order. -/
  faults : List Fault
  /-- The tokens that were not consumed. -/
  rest : List Token
  bounded : rest.length + cost value ≤ tokens.length

namespace Parsed

variable {α β : Type} [Cost α] [Cost β] {ts us : List Token}

/-- A value, in front of the tokens that are left. -/
def give (a : α) (rest : List Token) (h : rest.length + cost a ≤ ts.length) : Parsed ts α :=
  ⟨a, [], rest, h⟩

/-- Reads on behind what has been read. -/
@[always_inline, inline]
def andThen (r : Parsed us α)
    (f : (a : α) → (rest : List Token) → rest.length + cost a ≤ us.length → Parsed ts β) :
    Parsed ts β :=
  let x := f r.value r.rest r.bounded
  ⟨x.value, r.faults ++ x.faults, x.rest, x.bounded⟩

/-- Notices a fault in front of what is read next. -/
def noting (cause : GrammarFault) (us : List Token) (r : Parsed ts α) : Parsed ts α :=
  { r with faults := ⟨cause, us.length⟩ :: r.faults }

/-- Notices a fault behind what has been read if that stands for nothing. -/
def orReport (r : Parsed ts α) (cause : GrammarFault) : Parsed ts α :=
  if cost r.value = 0 then { r with faults := r.faults ++ [⟨cause, r.rest.length⟩] } else r

/-- Consumes the token if it is the next one. -/
def eat (t : Token) : (ts : List Token) → Parsed ts Bool
  | [] => give false [] (Nat.le_refl _)
  | u :: us => if u = t then give true us (Nat.le_refl _) else give false (u :: us) (Nat.le_refl _)

/-- Consumes a name if one is next. -/
def name : (ts : List Token) → Parsed ts (Option String)
  | .identifier name :: us => give (some name) us (Nat.le_refl _)
  | ts => give none ts (Nat.le_refl _)

/-- The base type that a reserved word names. -/
def baseOf : Keyword → Option Base
  | .int => some .int
  | .double => some .double
  | .string => some .string
  | .bool => some .bool
  | _ => none

/-- Consumes a type if one is next: the word for it, then a question mark if it is nullable. -/
def type : (ts : List Token) → Parsed ts (Option Ty)
  | .keyword k :: us =>
    match baseOf k with
    | some base =>
      (eat (.punctuation .question) us).andThen fun nullable vs h =>
        give (some ⟨base, nullable⟩) vs (Nat.succ_le_succ (Nat.le_of_add_right_le h))
    | none => give none (.keyword k :: us) (Nat.le_refl _)
  | ts => give none ts (Nat.le_refl _)

end Parsed

end NullScript
