import NullScript.Proofs.Printing
import NullScript.Proofs.Reads

/-!
# NullScript — what is printed is read back

Reading the tokens of an expression gives the expression and leaves what stands behind, provided
that this cannot continue the expression. Each level of binding is read in two ways: by its own
operator, or by passing on what the next level gives when its operator does not follow.

* `Yields` — what a routine gives and leaves, without a fault.
* `Ends`, `Behind` — what stands behind an expression does not continue it.
* `ReadBack`, `OperandReadBack` — an expression is read back, by itself or as an operand.
* `readBack_of_printable` — every expression that can be printed is read back.
-/

namespace NullScript.Parsed

-- ---------------------------------------------------------------------------
-- Rules of composition
-- ---------------------------------------------------------------------------

section

variable {α β : Type} [Cost α] [Cost β] {ts us vs : List Token} {a : α} {b : β}

/-- The routine gives the value, leaves the tokens and notices nothing. -/
structure Yields (r : Parsed ts α) (a : α) (us : List Token) : Prop where
  value : r.value = a
  faults : r.faults = []
  rest : r.rest = us

namespace Yields

theorem give {h : us.length + cost a ≤ ts.length} : Yields (.give a us h : Parsed ts α) a us :=
  ⟨rfl, rfl, rfl⟩

/-- What follows starts from the value and the tokens that came before. -/
theorem andThen {ws : List Token} {r : Parsed ws α}
    {f : (a : α) → (rest : List Token) → rest.length + cost a ≤ ws.length → Parsed ts β}
    (hr : Yields r a us) (hf : ∀ h, Yields (f a us h) b vs) : Yields (r.andThen f) b vs := by
  obtain ⟨rfl, hfaults, rfl⟩ := hr
  obtain ⟨hvalue, hfaults', hrest⟩ := hf r.bounded
  exact ⟨hvalue, List.append_eq_nil_iff.mpr ⟨hfaults, hfaults'⟩, hrest⟩

/-- What is there is not reported as missing. -/
theorem orReport {r : Parsed ts α} {cause : GrammarFault} (hr : Yields r a us) (ha : cost a ≠ 0) :
    Yields (r.orReport cause) a us := by
  obtain ⟨rfl, hfaults, hrest⟩ := hr
  unfold Parsed.orReport
  rw [if_neg ha]
  exact ⟨rfl, hfaults, hrest⟩

/-- An expected construct that is there is given. -/
theorem required {γ : Type} {r : Parsed ts (Option γ)} {x : γ} {cause : GrammarFault}
    (hr : Yields r (some x) us) : Yields (r.orReport cause) (some x) us :=
  hr.orReport Nat.one_ne_zero

theorem widen {ws : List Token} {r : Parsed ws α} {h : ws.length ≤ ts.length} (hr : Yields r a us) :
    Yields (r.widen h) a us :=
  ⟨hr.value, hr.faults, hr.rest⟩

/-- The tokens may be written in another way, also where a bound on their number is in place. -/
theorem of_eq {Bound : List Token → Prop} (routine : (ts : List Token) → Bound ts → Parsed ts α)
    {h : Bound ts} (hts : ts = vs) (hr : ∀ h, Yields (routine vs h) a us) :
    Yields (routine ts h) a us := by
  subst hts
  exact hr h

end Yields

end

-- ---------------------------------------------------------------------------
-- Tokens and types
-- ---------------------------------------------------------------------------

theorem yields_eat (t : Token) (us : List Token) : Yields (eat t (t :: us)) true us := by
  unfold eat
  dsimp only
  rw [if_pos rfl]
  exact .give

/-- A token that does not stand here is not consumed. -/
theorem yields_eat_other {t : Token} {us : List Token} (h : us.head? ≠ some t) :
    Yields (eat t us) false us := by
  cases us with
  | nil => exact .give
  | cons u us =>
    unfold eat
    dsimp only
    rw [if_neg fun hu => h (congrArg some hu)]
    exact .give

/-- A sign that must stand here and does is consumed. -/
theorem yields_expect (p : Punctuation) (cause : GrammarFault) (us : List Token) :
    Yields (expect p cause (.punctuation p :: us)) true us :=
  (yields_eat _ us).orReport Nat.one_ne_zero

/-- The tokens of a type start with the word for its base. -/
theorem exists_type_tokens_eq_cons {t : Ty} (ht : t.base ≠ .void) :
    ∃ k, t.base.word? = some k ∧
      t.tokens = .keyword k :: if t.nullable then [.punctuation .question] else [] := by
  obtain ⟨k, hk⟩ : ∃ k, t.base.word? = some k := by
    cases hbase : t.base with
    | void => exact absurd hbase ht
    | _ => exact ⟨_, rfl⟩
  refine ⟨k, hk, ?_⟩
  rw [Ty.tokens, hk]
  rfl

/-- A type is read back if no question mark follows it. -/
theorem yields_type {t : Ty} (ht : t.base ≠ .void) {us : List Token}
    (hus : us.head? ≠ some (.punctuation .question)) :
    Yields (type (t.tokens ++ us)) (some t) us := by
  obtain ⟨k, hk, htokens⟩ := exists_type_tokens_eq_cons ht
  have hbase := baseOf_eq_some.mpr hk
  obtain ⟨base, nullable⟩ := t
  rw [htokens]
  -- the question mark is part of the type, or none follows
  cases nullable with
  | true =>
    show Yields (type (.keyword k :: .punctuation .question :: us)) _ us
    unfold type
    simp only [hbase]
    exact (yields_eat _ us).andThen fun _ => .give
  | false =>
    show Yields (type (.keyword k :: us)) _ us
    unfold type
    simp only [hbase]
    exact (yields_eat_other hus).andThen fun _ => .give

-- ---------------------------------------------------------------------------
-- Levels
-- ---------------------------------------------------------------------------

/-- The level at which the token, behind an operand, joins it with another one. -/
def joins : Token → Option Level
  | .disjunction => some .disjunction
  | .conjunction => some .conjunction
  | .comparison _ => some .comparison
  | .orElse => some .alternative
  | .plus => some .sum
  | .unary .minus => some .sum
  | .multiplicative _ => some .product
  | .keyword .as_ => some .conversion
  | _ => none

/-- How tightly a level binds. -/
def rank : Level → Nat
  | .disjunction => 0
  | .conjunction => 1
  | .comparison => 2
  | .alternative => 3
  | .sum => 4
  | .product => 5
  | .conversion => 6
  | .signed => 7
  | .simple => 8

/-- The tokens do not continue an expression of the level, though perhaps one that binds less
tightly. -/
def Ends (level : Level) (us : List Token) : Prop :=
  ∀ t ∈ us.head?, ∀ l ∈ joins t, rank l < rank level

/-- A name in front of the tokens is no call. -/
def NoCall (us : List Token) : Prop := us.head? ≠ some (.punctuation .leftParenthesis)

/-- Reads an expression of a level. -/
def read {base : List Token} : Level → Below base (Option Expr) → Within base (Option Expr)
  | .disjunction => disjunction
  | .conjunction => conjunction
  | .comparison => comparison
  | .alternative => alternative
  | .sum => sum
  | .product => product
  | .conversion => conversion
  | .signed => signed
  | .simple => simple

/-- Each level binds in its own way. -/
theorem rank_injective {l m : Level} (h : rank l = rank m) : l = m := by
  cases l <;> cases m <;> first | rfl | cases h

theorem rank_next {l next : Level} (h : l.next? = some next) : rank next = rank l + 1 := by
  cases l <;> cases h <;> rfl

/-- Each level but the last one has a next one. -/
theorem exists_next {l : Level} (h : rank l < rank .simple) : ∃ next, l.next? = some next := by
  cases l with
  | simple => exact absurd h (Nat.lt_irrefl _)
  | _ => exact ⟨_, rfl⟩

/-- What ends an expression of a level ends one that binds more tightly. -/
theorem Ends.stronger {l m : Level} {us : List Token} (h : Ends l us) (hle : rank l ≤ rank m) :
    Ends m us :=
  fun t ht k hk => Nat.lt_of_lt_of_le (h t ht k hk) hle

/-- A token that joins nothing ends every expression. -/
theorem ends_cons_of_none {l : Level} {t : Token} {us : List Token} (h : joins t = none) :
    Ends l (t :: us) := by
  intro u hu k hk
  cases hu
  rw [h] at hk
  cases hk

/-- An operator ends every expression that binds more tightly than it. -/
theorem ends_cons_of_joins {l m : Level} {t : Token} {us : List Token} (h : joins t = some m)
    (hlt : rank m < rank l) : Ends l (t :: us) := by
  intro u hu k hk
  cases hu
  rw [h] at hk
  cases hk
  exact hlt

-- ---------------------------------------------------------------------------
-- Passing on what the next level gives
-- ---------------------------------------------------------------------------

section

variable {base : List Token} {Op : Type} {op? : Token → Option Op}
  {operand : Within base (Option Expr)} {ts us : List Token} {h : ts.length ≤ base.length}
  {e : Expr}

/-- No operands are read if no operator follows. -/
theorem yields_operands_nil {h : us.length ≤ base.length} (hus : ∀ t ∈ us.head?, op? t = none) :
    Yields (operands op? operand us h) [] us := by
  cases us with
  | nil =>
    rw [operands]
    exact .give
  | cons t us =>
    rw [operands]
    simp only [hus t rfl]
    exact .give

/-- A chain without an operator is its operand. -/
theorem yields_chain_alone {make : Expr → List (Op × Expr) → Expr}
    (hus : ∀ t ∈ us.head?, op? t = none) (he : Yields (operand ts h) (some e) us) :
    Yields (chain op? make operand ts h) (some e) us :=
  he.andThen fun _ => (yields_operands_nil hus).andThen fun _ => .give

/-- Without an operand there is no chain. -/
theorem yields_chain_none {make : Expr → List (Op × Expr) → Expr}
    (he : Yields (operand ts h) none us) : Yields (chain op? make operand ts h) none us :=
  he.andThen fun _ => .give

end

section

variable {base : List Token} {inner : Below base (Option Expr)} {ts us : List Token}
  {h : ts.length ≤ base.length} {e : Expr}

/-- The operator of a level does not follow. -/
theorem op?_eq_none {Op : Type} {op? : Token → Option Op} {level : Level}
    (hop : ∀ t op, op? t = some op → joins t = some level) (hus : Ends level us) :
    ∀ t ∈ us.head?, op? t = none := by
  intro t ht
  cases hopt : op? t with
  | none => rfl
  | some op => exact absurd (hus t ht level (hop t op hopt)) (Nat.lt_irrefl _)

/-- The operator of a chain with one operator joins at its level. -/
theorem joins_of_only {t u : Token} {a : Unit} {level : Level} (ht : joins t = some level)
    (h : only t u = some a) : joins u = some level := by
  rw [eq_of_only h, ht]

theorem joins_of_additiveOp (t : Token) (op : AdditiveOp) (h : additiveOp t = some op) :
    joins t = some .sum := by
  rw [eq_of_additiveOp h]
  cases op <;> rfl

theorem joins_of_multiplicativeOp (t : Token) (op : MultiplicativeOp)
    (h : multiplicativeOp t = some op) : joins t = some .product := by
  rw [eq_of_multiplicativeOp h]
  rfl

theorem joins_of_comparisonOp (t : Token) (op : ComparisonOp) (h : comparisonOp t = some op) :
    joins t = some .comparison := by
  rw [eq_of_comparisonOp h]
  rfl

/-- Without a comparison behind it, the left side is all there is. -/
theorem yields_comparison_alone (hus : Ends .comparison us)
    (he : Yields (alternative inner ts h) (some e) us) :
    Yields (comparison inner ts h) (some e) us := by
  have hop := op?_eq_none joins_of_comparisonOp hus
  unfold comparison pair
  refine he.andThen fun hu => ?_
  cases us with
  | nil => exact .give
  | cons t us =>
    simp only [hop t rfl]
    exact .give

/-- Without `?:` behind it, the left side is all there is. -/
theorem yields_alternative_alone (hus : Ends .alternative us)
    (he : Yields (sum inner ts h) (some e) us) : Yields (alternative inner ts h) (some e) us := by
  refine he.andThen fun hu => ?_
  simp only
  split
  · exact absurd (hus _ rfl _ rfl) (Nat.lt_irrefl _)
  · exact .give

/-- Without `as` behind it, the operand is all there is. -/
theorem yields_conversion_alone (hus : Ends .conversion us)
    (he : Yields (signed inner ts h) (some e) us) : Yields (conversion inner ts h) (some e) us := by
  refine he.andThen fun hu => ?_
  simp only
  split
  · exact absurd (hus _ rfl _ rfl) (Nat.lt_irrefl _)
  · exact .give

/-- Without a sign before it, the operand is all there is. -/
theorem yields_signed_alone (he : Yields (simple inner ts h) (some e) us) :
    Yields (signed inner ts h) (some e) us := by
  unfold signed
  -- a simple expression does not start with a sign
  split
  · exact absurd he.value nofun
  · exact he

/-- A comparison is read with both sides. -/
theorem yields_comparison {vs : List Token} {op : ComparisonOp} {f : Expr}
    (he : Yields (alternative inner ts h) (some e) (.comparison op :: vs))
    (hf : ∀ h, Yields (alternative inner vs h) (some f) us) :
    Yields (comparison inner ts h) (some (.comparison e op f)) us := by
  unfold comparison pair
  refine he.andThen fun _ => ?_
  exact (hf _).required.andThen fun _ => .give

/-- An alternative is read with both sides. -/
theorem yields_alternative {vs : List Token} {f : Expr}
    (he : Yields (sum inner ts h) (some e) (.orElse :: vs))
    (hf : ∀ h, Yields (inner vs h) (some f) us) :
    Yields (alternative inner ts h) (some (.orElse e f)) us := by
  unfold alternative
  refine he.andThen fun _ => ?_
  exact (hf _).required.andThen fun _ => .give

/-- A conversion is read with its type. -/
theorem yields_conversion {vs : List Token} {t : Ty}
    (he : Yields (signed inner ts h) (some e) (.keyword .as_ :: vs))
    (ht : Yields (type vs) (some t) us) :
    Yields (conversion inner ts h) (some (.cast e t)) us := by
  unfold conversion
  refine he.andThen fun _ => ?_
  exact ht.required.andThen fun _ => .give

/-- A signed expression is read with its operand. -/
theorem yields_signed {op : UnaryOp} {h : (.unary op :: ts).length ≤ base.length}
    (he : ∀ h, Yields (simple inner ts h) (some e) us) :
    Yields (signed inner (.unary op :: ts) h) (some (.unary op e)) us := by
  unfold signed
  exact (he _).required.andThen fun _ => .give

/-- A level gives what the next one gives if its operator does not follow. -/
theorem yields_alone {level next : Level} (hnext : level.next? = some next) (hus : Ends level us)
    (he : Yields (read next inner ts h) (some e) us) :
    Yields (read level inner ts h) (some e) us := by
  -- four levels are chains, and the other four have a rule of their own
  cases level <;> cases hnext
  · exact yields_chain_alone (op?_eq_none (fun _ _ => joins_of_only rfl) hus) he
  · exact yields_chain_alone (op?_eq_none (fun _ _ => joins_of_only rfl) hus) he
  · exact yields_comparison_alone hus he
  · exact yields_alternative_alone hus he
  · exact yields_chain_alone (op?_eq_none joins_of_additiveOp hus) he
  · exact yields_chain_alone (op?_eq_none joins_of_multiplicativeOp hus) he
  · exact yields_conversion_alone hus he
  · exact yields_signed_alone he

/-- What is read at a level is read at each one that binds less tightly, if nothing follows that
continues it there. -/
theorem Yields.weaker (level : Level) {stronger : Level} (hle : rank level ≤ rank stronger)
    (hus : Ends level us) (he : Yields (read stronger inner ts h) (some e) us) :
    Yields (read level inner ts h) (some e) us := by
  -- On the number of levels in between, from the stronger one outwards.
  induction hn : rank stronger - rank level generalizing level with
  | zero =>
    obtain rfl : level = stronger := rank_injective (by omega)
    exact he
  | succ n ih =>
    have hsimple : rank stronger ≤ rank .simple := by cases stronger <;> decide
    obtain ⟨next, hnext⟩ := exists_next (show rank level < rank .simple by omega)
    have hrank := rank_next hnext
    exact yields_alone hnext hus (ih next (by omega) (hus.stronger (by omega)) (by omega))

end

-- ---------------------------------------------------------------------------
-- Nothing that starts an expression
-- ---------------------------------------------------------------------------

/-- Can an expression start with the token? -/
def starts : Token → Bool
  | .literal _ | .identifier _ | .unary _ | .punctuation .leftParenthesis => true
  | _ => false

/-- No expression starts here. -/
def Silent (us : List Token) : Prop := ∀ t ∈ us.head?, starts t = false

section

variable {base us : List Token} {inner : Below base (Option Expr)} {h : us.length ≤ base.length}

/-- Where no expression starts, no simple one is read. -/
theorem yields_simple_none (hus : Silent us) : Yields (simple inner us h) none us := by
  unfold simple
  split
  · exact absurd (hus _ rfl) nofun
  · exact absurd (hus _ rfl) nofun
  · exact absurd (hus _ rfl) nofun
  · exact absurd (hus _ rfl) nofun
  · exact .give

theorem yields_signed_none (hus : Silent us) : Yields (signed inner us h) none us := by
  unfold signed
  split
  · exact absurd (hus _ rfl) nofun
  · exact yields_simple_none hus

theorem yields_conversion_none (hus : Silent us) : Yields (conversion inner us h) none us :=
  (yields_signed_none hus).andThen fun _ => .give

theorem yields_product_none (hus : Silent us) : Yields (product inner us h) none us := by
  unfold product
  exact yields_chain_none (yields_conversion_none hus)

theorem yields_sum_none (hus : Silent us) : Yields (sum inner us h) none us := by
  unfold sum
  exact yields_chain_none (yields_product_none hus)

theorem yields_alternative_none (hus : Silent us) : Yields (alternative inner us h) none us :=
  (yields_sum_none hus).andThen fun _ => .give

theorem yields_comparison_none (hus : Silent us) : Yields (comparison inner us h) none us := by
  unfold comparison pair
  refine (yields_alternative_none hus).andThen fun hu => ?_
  exact .give

theorem yields_conjunction_none (hus : Silent us) : Yields (conjunction inner us h) none us := by
  unfold conjunction
  exact yields_chain_none (yields_comparison_none hus)

theorem yields_disjunction_none (hus : Silent us) : Yields (disjunction inner us h) none us := by
  unfold disjunction
  exact yields_chain_none (yields_conjunction_none hus)

end

/-- **Where no expression starts**, none is read and nothing is reported. -/
theorem yields_expression_none {us : List Token} (hus : Silent us) :
    Yields (expression us) none us := by
  rw [expression]
  exact yields_disjunction_none hus

-- ---------------------------------------------------------------------------
-- Operands
-- ---------------------------------------------------------------------------

/-- What stands behind an expression of the level does not continue it. -/
structure Behind (level : Level) (us : List Token) : Prop where
  ends : Ends level us
  noCall : NoCall us
  noMark : us.head? ≠ some (.punctuation .question)

/-- What stands behind an expression of a level may stand behind one that binds more tightly. -/
theorem Behind.stronger {l m : Level} {us : List Token} (h : Behind l us) (hle : rank l ≤ rank m) :
    Behind m us :=
  ⟨h.ends.stronger hle, h.noCall, h.noMark⟩

theorem behind_rightParenthesis (l : Level) (us : List Token) :
    Behind l (.punctuation .rightParenthesis :: us) :=
  ⟨ends_cons_of_none rfl, nofun, nofun⟩

theorem behind_comma (l : Level) (us : List Token) : Behind l (.punctuation .comma :: us) :=
  ⟨ends_cons_of_none rfl, nofun, nofun⟩

/-- An operator may stand behind every operand that binds more tightly. -/
theorem behind_of_joins {l m : Level} {t : Token} {us : List Token} (h : joins t = some m)
    (hlt : rank m < rank l) : Behind l (t :: us) := by
  refine ⟨ends_cons_of_joins h hlt, ?_, ?_⟩
  all_goals
    intro hhead
    cases hhead
    cases h

/-- How levels read what stands in parentheses. -/
def recur (base : List Token) : Below base (Option Expr) := fun us _ => expression us

/-- The expression is read back. -/
def ReadBack (e : Expr) : Prop :=
  ∀ ts us, ts = e.tokens ++ us → Behind .disjunction us → Yields (expression ts) (some e) us

/-- The expression is read back where an operand stands. -/
def OperandReadBack (e : Expr) : Prop :=
  ∀ base us h, NoCall us → Yields (simple (recur base) (e.operand ++ us) h) (some e) us

section

variable {base ts us : List Token} {e f : Expr}

/-- An expression is read by its own level. -/
theorem yields_expression (level : Level) (hus : Ends .disjunction us)
    (he : ∀ h, Yields (read level (recur ts) ts h) (some e) us) :
    Yields (expression ts) (some e) us := by
  rw [expression]
  exact Yields.weaker .disjunction (Nat.zero_le _) hus (he (Nat.le_refl _))

/-- An operand is read back at every level. -/
theorem OperandReadBack.level (level : Level) {h : (e.operand ++ us).length ≤ base.length}
    (he : OperandReadBack e) (hus : Behind level us) :
    Yields (read level (recur base) (e.operand ++ us) h) (some e) us := by
  have hle : rank level ≤ rank .simple := by cases level <;> decide
  exact Yields.weaker level hle hus.ends (he base us h hus.noCall)

/-- An operand is read back as an expression. -/
theorem OperandReadBack.expression (he : OperandReadBack e) (hus : Behind .disjunction us) :
    Yields (expression (e.operand ++ us)) (some e) us :=
  yields_expression .disjunction hus.ends fun _ => he.level _ hus

theorem yields_closing (us : List Token) :
    Yields (closing (.punctuation .rightParenthesis :: us)) true us :=
  (yields_eat _ us).orReport Nat.one_ne_zero

/-- In parentheses an expression is read back whatever follows. -/
theorem ReadBack.enclosed {h : (enclosed e.tokens ++ us).length ≤ base.length} (he : ReadBack e) :
    Yields (simple (recur base) (NullScript.enclosed e.tokens ++ us) h) (some e) us := by
  have htokens : NullScript.enclosed e.tokens ++ us =
      .punctuation .leftParenthesis :: (e.tokens ++ .punctuation .rightParenthesis :: us) := by
    simp [NullScript.enclosed]
  refine Yields.of_eq (simple _) htokens fun h => ?_
  -- inside of the parentheses nothing but the closing one stands behind the expression
  have hinner := he _ _ rfl (behind_rightParenthesis _ us)
  have hparenthesised : Yields (parenthesised (recur base) _ h) (some e) us :=
    hinner.required.andThen fun _ => (yields_closing us).andThen fun _ => .give
  exact hparenthesised.widen (h := Nat.le_succ _)

/-- In parentheses an expression is read back wherever an expression can stand. -/
theorem ReadBack.expression_enclosed (he : ReadBack e) (hus : Ends .disjunction us) :
    Yields (expression (NullScript.enclosed e.tokens ++ us)) (some e) us :=
  yields_expression .simple hus fun _ => he.enclosed

/-- An expression that is not simple is an operand in parentheses. -/
theorem ReadBack.operand (he : ReadBack e) (hsimple : e.isSimple = false) : OperandReadBack e := by
  intro base us h _
  have hoperand : e.operand = NullScript.enclosed e.tokens := by
    rw [Expr.operand, Expr.asOperand, hsimple]
    rfl
  exact Yields.of_eq (simple _) (congrArg (· ++ us) hoperand) fun _ => he.enclosed

/-- A simple expression is the same as an operand. -/
theorem OperandReadBack.readBack (he : OperandReadBack e) (hsimple : e.isSimple) : ReadBack e := by
  rintro _ us rfl hus
  have hoperand : e.operand = e.tokens := by
    rw [Expr.operand, Expr.asOperand, if_pos hsimple]
  rw [← hoperand]
  exact he.expression hus

end

-- ---------------------------------------------------------------------------
-- Chains
-- ---------------------------------------------------------------------------

section

variable {base us : List Token} {level stronger : Level} {Op : Type} {op? : Token → Option Op}
  {token : Op → Token} {es : List (Op × Expr)}
  (hnext : level.next? = some stronger) (hop : ∀ op, op? (token op) = some op)
  (hjoins : ∀ t op, op? t = some op → joins t = some level)

include hnext hop hjoins

/-- The operator of a chain ends the operand before it, and so does what ends the chain. -/
theorem behind_operands (hus : Behind level us) :
    Behind stronger ((es.flatMap fun x => token x.1 :: x.2.operand) ++ us) := by
  have hlt : rank level < rank stronger := by
    rw [rank_next hnext]
    exact Nat.lt_succ_self _
  cases es with
  | nil => exact hus.stronger (Nat.le_of_lt hlt)
  | cons x es => exact behind_of_joins (hjoins _ _ (hop x.1)) hlt

/-- The operators of a chain are read back with their operands. -/
theorem yields_operands (hes : ∀ x ∈ es, OperandReadBack x.2) (hus : Behind level us)
    {h : ((es.flatMap fun x => token x.1 :: x.2.operand) ++ us).length ≤ base.length} :
    Yields (operands op? (read stronger (recur base))
      ((es.flatMap fun x => token x.1 :: x.2.operand) ++ us) h) es us := by
  induction es with
  | nil => exact yields_operands_nil (op?_eq_none hjoins hus.ends)
  | cons x es ih =>
    obtain ⟨hx, hes⟩ := List.forall_mem_cons.mp hes
    have htokens : ((x :: es).flatMap fun x => token x.1 :: x.2.operand) ++ us =
        token x.1 :: (x.2.operand ++ ((es.flatMap fun x => token x.1 :: x.2.operand) ++ us)) := by
      simp
    refine Yields.of_eq (operands _ _) htokens fun h => ?_
    -- the operand ends at the next operator of the chain, or where the chain ends
    have hoperand := hx.level stronger (h := Nat.le_of_succ_le h)
      (behind_operands hnext hop hjoins hus)
    rw [operands]
    simp only [hop]
    refine hoperand.required.andThen fun _ => ?_
    exact (ih hes).andThen fun _ => .give

end

/-- A chain with at least two operands is read back. -/
theorem readBack_chain (level : Level) {stronger : Level} {Op : Type} (op? : Token → Option Op)
    (token : Op → Token) {make : Expr → List (Op × Expr) → Expr} {e whole : Expr}
    {es : List (Op × Expr)} (hnext : level.next? = some stronger)
    (hop : ∀ op, op? (token op) = some op)
    (hjoins : ∀ t op, op? t = some op → joins t = some level)
    (hread : ∀ (base ts : List Token) (h : ts.length ≤ base.length),
      read level (recur base) ts h = chain op? make (read stronger (recur base)) ts h)
    (htokens : whole.tokens = e.operand ++ es.flatMap fun x => token x.1 :: x.2.operand)
    (hwhole : make e es = whole) (hne : es ≠ []) (he : OperandReadBack e)
    (hes : ∀ x ∈ es, OperandReadBack x.2) : ReadBack whole := by
  rintro _ us rfl hus
  -- what stands behind the chain stands behind its operands, too
  have hlevel := hus.stronger (Nat.zero_le (rank level))
  refine yields_expression level hus.ends fun h => ?_
  rw [hread]
  refine Yields.of_eq (chain _ _ _) (by rw [htokens, List.append_assoc]) fun h => ?_
  refine (he.level _ (behind_operands hnext hop hjoins hlevel)).andThen fun _ => ?_
  refine (yields_operands hnext hop hjoins hes hlevel).andThen fun _ => ?_
  have hchain : chainOf make e es = whole := by
    rw [chainOf, if_neg (by simpa using hne), hwhole]
  rw [hchain]
  exact .give

section

variable {e f : Expr} (he : OperandReadBack e)

include he

/-- A disjunction is read back. -/
theorem readBack_disjunction {es : List Expr} (hes : ∀ x ∈ es, OperandReadBack x) (hne : es ≠ []) :
    ReadBack (.disjunction e es) := by
  -- the operator of the chain is always the same, so that nothing is kept of it
  have hpairs : ∀ x ∈ es.map fun x => ((), x), OperandReadBack x.2 := by simpa using hes
  refine readBack_chain .disjunction (only .disjunction) (fun _ => .disjunction) rfl (fun _ => rfl)
    (fun _ _ => joins_of_only rfl) (fun _ _ _ => rfl) ?_ ?_ (by simpa using hne) he hpairs
  · simp [Expr.tokens, Expr.tokensBehind_eq, List.flatMap_map, Expr.operand]
  · simp [Function.comp_def]

/-- A conjunction is read back. -/
theorem readBack_conjunction {es : List Expr} (hes : ∀ x ∈ es, OperandReadBack x) (hne : es ≠ []) :
    ReadBack (.conjunction e es) := by
  have hpairs : ∀ x ∈ es.map fun x => ((), x), OperandReadBack x.2 := by simpa using hes
  refine readBack_chain .conjunction (only .conjunction) (fun _ => .conjunction) rfl (fun _ => rfl)
    (fun _ _ => joins_of_only rfl) (fun _ _ _ => rfl) ?_ ?_ (by simpa using hne) he hpairs
  · simp [Expr.tokens, Expr.tokensBehind_eq, List.flatMap_map, Expr.operand]
  · simp [Function.comp_def]

/-- A sum is read back. -/
theorem readBack_additive {es : List (AdditiveOp × Expr)} (hes : ∀ x ∈ es, OperandReadBack x.2)
    (hne : es ≠ []) : ReadBack (.additive e es) := by
  have hop (op : AdditiveOp) : additiveOp op.token = some op := by cases op <;> rfl
  refine readBack_chain .sum additiveOp AdditiveOp.token rfl hop joins_of_additiveOp
    (fun _ _ _ => rfl) ?_ rfl hne he hes
  rw [Expr.tokens, Expr.tokensOfSum_eq, Expr.operand]

/-- A product is read back. -/
theorem readBack_multiplicative {es : List (MultiplicativeOp × Expr)}
    (hes : ∀ x ∈ es, OperandReadBack x.2) (hne : es ≠ []) : ReadBack (.multiplicative e es) := by
  refine readBack_chain .product multiplicativeOp Token.multiplicative rfl (fun _ => rfl)
    joins_of_multiplicativeOp (fun _ _ _ => rfl) ?_ rfl hne he hes
  rw [Expr.tokens, Expr.tokensOfProduct_eq, Expr.operand]

-- ---------------------------------------------------------------------------
-- Other operators
-- ---------------------------------------------------------------------------

/-- A comparison is read back. -/
theorem readBack_comparison {op : ComparisonOp} (hf : OperandReadBack f) :
    ReadBack (.comparison e op f) := by
  intro ts us hts hus
  rw [Expr.tokens, List.append_assoc] at hts
  subst hts
  -- the comparison ends its left side
  have hleft : Behind .alternative (.comparison op :: (f.operand ++ us)) :=
    behind_of_joins rfl (by decide)
  have hright : Behind .alternative us := hus.stronger (Nat.zero_le _)
  refine yields_expression .comparison hus.ends fun _ => ?_
  exact yields_comparison (he.level .alternative hleft) fun _ => hf.level .alternative hright

/-- An alternative is read back: its right side may be any expression. -/
theorem readBack_orElse (hf : OperandReadBack f) : ReadBack (.orElse e f) := by
  intro ts us hts hus
  rw [Expr.tokens, List.append_assoc] at hts
  subst hts
  have hleft : Behind .sum (.orElse :: (f.operand ++ us)) := behind_of_joins rfl (by decide)
  refine yields_expression .alternative hus.ends fun _ => ?_
  exact yields_alternative (he.level .sum hleft) fun _ => hf.expression hus

/-- A conversion is read back, as no question mark follows its type. -/
theorem readBack_cast {t : Ty} (ht : t.base ≠ .void) : ReadBack (.cast e t) := by
  intro ts us hts hus
  rw [Expr.tokens, List.append_assoc] at hts
  subst hts
  have hleft : Behind .signed (.keyword .as_ :: (t.tokens ++ us)) :=
    behind_of_joins rfl (by decide)
  refine yields_expression .conversion hus.ends fun _ => ?_
  exact yields_conversion (he.level .signed hleft) (yields_type ht hus.noMark)

/-- A signed expression is read back. -/
theorem readBack_unary {op : UnaryOp} : ReadBack (.unary op e) := by
  intro ts us hts hus
  rw [Expr.tokens] at hts
  subst hts
  refine yields_expression .signed hus.ends fun h => ?_
  exact yields_signed (h := h) fun _ => he.level .simple (hus.stronger (Nat.zero_le _))

end

-- ---------------------------------------------------------------------------
-- Simple expressions
-- ---------------------------------------------------------------------------

/-- A literal is read back. -/
theorem operandReadBack_literal (d : Datum) : OperandReadBack (.literal d) := by
  intro base us h _
  exact .give

/-- A name is read where no parenthesis follows. -/
theorem yields_simple_name {base ts us : List Token} {inner : Below base (Option Expr)}
    {h : ts.length ≤ base.length} {x : String} (hts : ts = .identifier x :: us) (hus : NoCall us) :
    Yields (simple inner ts h) (some (.identifier x)) us := by
  unfold simple
  split
  · cases hts
  · cases hts
    -- this would be a call
    exact absurd rfl hus
  · cases hts
    exact .give
  · cases hts
  · next hname _ =>
    subst hts
    exact (hname x us h rfl HEq.rfl).elim

/-- A name is read back. -/
theorem operandReadBack_identifier (x : String) : OperandReadBack (.identifier x) :=
  fun _ _ _ hus => yields_simple_name rfl hus

/-- Behind an argument stands a comma or the closing parenthesis. -/
theorem behind_moreArguments (es : List Expr) (us : List Token) : Behind .disjunction
    (Expr.tokensOfMoreArguments es ++ .punctuation .rightParenthesis :: us) := by
  cases es with
  | nil =>
    rw [Expr.tokensOfMoreArguments]
    exact behind_rightParenthesis _ us
  | cons e es =>
    rw [Expr.tokensOfMoreArguments]
    exact behind_comma _ _

/-- Further arguments are read back. -/
theorem yields_moreArguments {base us : List Token} {es : List Expr} (hes : ∀ x ∈ es, ReadBack x)
    {h : (Expr.tokensOfMoreArguments es ++ .punctuation .rightParenthesis :: us).length <
      base.length} :
    Yields (moreArguments (recur base)
      (Expr.tokensOfMoreArguments es ++ .punctuation .rightParenthesis :: us) h) es
      (.punctuation .rightParenthesis :: us) := by
  -- on the arguments, each with its comma before it
  induction es with
  | nil =>
    have htokens : Expr.tokensOfMoreArguments [] ++ .punctuation .rightParenthesis :: us =
        .punctuation .rightParenthesis :: us := by
      rw [Expr.tokensOfMoreArguments, List.nil_append]
    refine Yields.of_eq (moreArguments _) htokens fun h => ?_
    rw [moreArguments]
    exact .give
  | cons e es ih =>
    obtain ⟨he, hes⟩ := List.forall_mem_cons.mp hes
    have htokens : Expr.tokensOfMoreArguments (e :: es) ++ .punctuation .rightParenthesis :: us =
        .punctuation .comma :: (e.tokens ++
          (Expr.tokensOfMoreArguments es ++ .punctuation .rightParenthesis :: us)) := by
      rw [Expr.tokensOfMoreArguments, List.cons_append, List.append_assoc]
    refine Yields.of_eq (moreArguments _) htokens fun h => ?_
    rw [moreArguments]
    simp only [if_pos]
    have hargument : Yields (recur base _ (Nat.lt_of_succ_lt h)) (some e) _ :=
      he _ _ rfl (behind_moreArguments es us)
    refine hargument.required.andThen fun _ => ?_
    exact (ih hes).andThen fun _ => .give

/-- The arguments of a call are read back, also if there are none. -/
theorem yields_arguments {base us : List Token} {es : List Expr} (hes : ∀ x ∈ es, ReadBack x)
    {h : (Expr.tokensOfArguments es ++ .punctuation .rightParenthesis :: us).length <
      base.length} :
    Yields (arguments (recur base)
      (Expr.tokensOfArguments es ++ .punctuation .rightParenthesis :: us) h) es
      (.punctuation .rightParenthesis :: us) := by
  cases es with
  | nil =>
    have htokens : Expr.tokensOfArguments [] ++ .punctuation .rightParenthesis :: us =
        .punctuation .rightParenthesis :: us := by
      rw [Expr.tokensOfArguments, List.nil_append]
    refine Yields.of_eq (arguments _) htokens fun h => ?_
    -- a closing parenthesis starts no expression
    have hnone : Yields (recur base _ h) none (.punctuation .rightParenthesis :: us) :=
      yields_expression_none fun _ ht => by cases ht; rfl
    exact hnone.andThen fun _ => .give
  | cons e es =>
    obtain ⟨he, hes⟩ := List.forall_mem_cons.mp hes
    have htokens : Expr.tokensOfArguments (e :: es) ++ .punctuation .rightParenthesis :: us =
        e.tokens ++ (Expr.tokensOfMoreArguments es ++ .punctuation .rightParenthesis :: us) := by
      rw [Expr.tokensOfArguments, List.append_assoc]
    refine Yields.of_eq (arguments _) htokens fun h => ?_
    have hfirst : Yields (recur base _ h) (some e) _ := he _ _ rfl (behind_moreArguments es us)
    refine hfirst.andThen fun _ => ?_
    exact (yields_moreArguments hes).andThen fun _ => .give

/-- A call is read back. -/
theorem operandReadBack_call {f : String} {es : List Expr} (hes : ∀ x ∈ es, ReadBack x) :
    OperandReadBack (.call f es) := by
  intro base us h _
  have htokens : (Expr.call f es).operand ++ us = .identifier f :: .punctuation .leftParenthesis ::
      (Expr.tokensOfArguments es ++ .punctuation .rightParenthesis :: us) := by
    simp [Expr.operand, Expr.asOperand, Expr.isSimple, Expr.tokens, NullScript.enclosed]
  refine Yields.of_eq (simple _) htokens fun h => ?_
  have hcall : Yields (callRest (recur base) f _ (Nat.lt_of_succ_lt h)) (some (.call f es)) us :=
    (yields_arguments hes).andThen fun _ => (yields_closing us).andThen fun _ => .give
  exact hcall.widen (h := Nat.le_add_right _ 2)

/-- What can be printed is read back, as an expression and as an operand. -/
theorem readBack_of_printable {limits : Limits} {decimals : Decimals} {e : Expr}
    (h : e.Printable limits decimals) : ReadBack e ∧ OperandReadBack e := by
  -- Both at once: operators need their operands in the second form, calls their arguments in the
  -- first.
  have compound {e : Expr} (he : ReadBack e) (hsimple : e.isSimple = false) :
      ReadBack e ∧ OperandReadBack e :=
    ⟨he, he.operand hsimple⟩
  have simple {e : Expr} (he : OperandReadBack e) (hsimple : e.isSimple) :
      ReadBack e ∧ OperandReadBack e :=
    ⟨he.readBack hsimple, he⟩
  -- by the kinds of expressions, each with the lemma for its level
  induction h with
  | disjunction _ _ hne he hes =>
    exact compound (readBack_disjunction he.2 (fun x hx => (hes x hx).2) hne) rfl
  | conjunction _ _ hne he hes =>
    exact compound (readBack_conjunction he.2 (fun x hx => (hes x hx).2) hne) rfl
  | comparison _ _ he hf => exact compound (readBack_comparison he.2 hf.2) rfl
  | orElse _ _ he hf => exact compound (readBack_orElse he.2 hf.2) rfl
  | additive _ _ hne he hes =>
    exact compound (readBack_additive he.2 (fun x hx => (hes x hx).2) hne) rfl
  | multiplicative _ _ hne he hes =>
    exact compound (readBack_multiplicative he.2 (fun x hx => (hes x hx).2) hne) rfl
  | cast _ ht he => exact compound (readBack_cast he.2 ht) rfl
  | unary _ he => exact compound (readBack_unary he.2) rfl
  | literal => exact simple (operandReadBack_literal _) rfl
  | identifier => exact simple (operandReadBack_identifier _) rfl
  | call _ _ hes => exact simple (operandReadBack_call fun x hx => (hes x hx).1) rfl

end NullScript.Parsed
