import Mathlib
import NullScript.Proofs.Chains

/-!
# NullScript — arithmetic of integers

Sums, products and negatives of integers are the exact ones, taken to the 64 bits that differ from
them by a multiple of `2 ^ 64` (which is what `Int64.ofInt` does). It makes no difference that this
happens at each operator of a chain. Division by zero fails. Any other quotient is truncated towards
zero, and only that of the least integer and `-1` has no room and wraps around.

* `evaluateChain_int` — a chain on integers follows one on exact integers.
* `division_int` — quotient and remainder.
* `exact_arithmetic` — what expressions with integer operands evaluate to.
-/

namespace NullScript

variable {setting : Setting} {eval : Expr → Action Value} {s t : State}

-- ---------------------------------------------------------------------------
-- Quotient and remainder
-- ---------------------------------------------------------------------------

/-- The quotient `q` and the remainder `r` of two integers. -/
structure Division (a b q r : Int64) : Prop where
  /-- The quotient is truncated towards zero. -/
  quotient : ¬(a = Int64.minValue ∧ b = -1) → q.toInt = a.toInt.tdiv b.toInt
  quotient_least : a = Int64.minValue → b = -1 → q = Int64.minValue
  remainder_lt : r.toInt.natAbs < b.toInt.natAbs
  remainder_sign : r = 0 ∨ r.toInt.sign = a.toInt.sign

theorem ofInt_tdiv (a b : Int64) : Int64.ofInt (a.toInt.tdiv b.toInt) = a / b := by
  rw [← Int64.toInt_inj, Int64.toInt_ofInt, Int64.toInt_div]

theorem ofInt_tmod (a b : Int64) : Int64.ofInt (a.toInt.tmod b.toInt) = a % b := by
  rw [← Int64.toInt_mod, Int64.ofInt_toInt]

/-- Quotient and remainder make up the dividend, also where the quotient wraps around. -/
theorem div_mul_add_mod (a b : Int64) : a / b * b + a % b = a := by
  -- on exact integers the law holds, and taking an integer to 64 bits keeps sums and products
  have hexact : a.toInt.tdiv b.toInt * b.toInt + a.toInt.tmod b.toInt = a.toInt := by
    rw [Int.mul_comm]
    exact Int.mul_tdiv_add_tmod _ _
  calc a / b * b + a % b
      = .ofInt (a.toInt.tdiv b.toInt * b.toInt + a.toInt.tmod b.toInt) := by
        rw [Int64.ofInt_add, Int64.ofInt_mul, ofInt_tdiv, ofInt_tmod, Int64.ofInt_toInt]
    _ = a := by rw [hexact, Int64.ofInt_toInt]

/-- **Quotient and remainder** of integers. -/
theorem division_int {a b : Int64} (hb : b ≠ 0) : Division a b (a / b) (a % b) where
  quotient h := by
    by_cases ha : a = Int64.minValue
    · -- neither operand is the one that would have to be there for the quotient to wrap around
      exact Int64.toInt_div_of_ne_right a b fun h' => h ⟨ha, h'⟩
    · exact Int64.toInt_div_of_ne_left a b ha
  quotient_least ha hb := by
    -- only the one pair of operands is left
    subst ha hb
    decide
  remainder_lt := by
    have hpos : 0 < b.toInt.natAbs := Int.natAbs_pos.mpr fun h => hb (Int64.toInt_inj.mp h)
    rw [Int64.toInt_mod, Int.natAbs_tmod]
    exact Nat.mod_lt _ hpos
  remainder_sign := by
    have hsign := Int.sign_tmod a.toInt b.toInt
    rw [← Int64.toInt_mod] at hsign
    by_cases hdvd : b.toInt ∣ a.toInt
    · -- the divisor goes into the dividend, so nothing remains
      rw [if_pos hdvd, Int.sign_eq_zero_iff_zero] at hsign
      exact .inl (Int64.toInt_inj.mp hsign)
    · rw [if_neg hdvd] at hsign
      exact .inr hsign

-- ---------------------------------------------------------------------------
-- One operator
-- ---------------------------------------------------------------------------

/-- What an operand of a sum adds to it. -/
def AdditiveOp.signed : AdditiveOp → Int → Int
  | .plus, n => n
  | .minus, n => -n

namespace Value

/-- `+` and `-` of an integer taken to 64 bits are the exact ones, taken to 64 bits. -/
theorem additive_int (op : AdditiveOp) (k : Int) (n : Int64) :
    (int (.ofInt k)).additive op (int n) = .ok (int (.ofInt (k + op.signed n.toInt))) := by
  cases op with
  | plus =>
    show Except.ok (int (.ofInt k + n)) = _
    rw [AdditiveOp.signed, Int64.ofInt_add, Int64.ofInt_toInt]
  | minus =>
    show Except.ok (int (.ofInt k - n)) = _
    -- subtraction adds the negative
    rw [AdditiveOp.signed, Int64.ofInt_add, Int64.ofInt_neg, Int64.ofInt_toInt,
      Int64.sub_eq_add_neg]

/-- `*` of an integer taken to 64 bits is the exact product, taken to 64 bits. -/
theorem times_int (k : Int) (n : Int64) :
    (int (.ofInt k)).multiplicative .times (int n) = .ok (int (.ofInt (k * n.toInt))) := by
  show Except.ok (int (.ofInt k * n)) = _
  rw [Int64.ofInt_mul, Int64.ofInt_toInt]

/-- Division by zero fails, and so does its remainder. -/
theorem multiplicative_zero {op : MultiplicativeOp} (hop : op ≠ .times) (a : Int64) :
    (int a).multiplicative op (int 0) = .error .divisionByZero := by
  cases op with
  | times => exact absurd rfl hop
  | divide | remainder => rfl

/-- Division by any other integer gives the quotient. -/
theorem divide_int (a : Int64) {b : Int64} (hb : b ≠ 0) :
    (int a).multiplicative .divide (int b) = .ok (int (a / b)) := by
  show ((if b = 0 then .error .divisionByZero else .ok (a / b) : Except Failure Int64)).map int = _
  rw [if_neg hb]
  rfl

/-- The remainder of a division by any other integer. -/
theorem remainder_int (a : Int64) {b : Int64} (hb : b ≠ 0) :
    (int a).multiplicative .remainder (int b) = .ok (int (a % b)) := by
  show ((if b = 0 then .error .divisionByZero else .ok (a % b) : Except Failure Int64)).map int = _
  rw [if_neg hb]
  rfl

theorem minus_int (a : Int64) : (int a).unary .minus = .ok (int (.ofInt (-a.toInt))) := by
  show Except.ok (int (-a)) = _
  rw [Int64.ofInt_neg, Int64.ofInt_toInt]

end Value

-- ---------------------------------------------------------------------------
-- Chains of operators
-- ---------------------------------------------------------------------------

/-- What the operators of a chain make of exact integers. -/
def exactChain {Op : Type} (exact : Int → Op → Int → Int) (k : Int) :
    List (Op × Expr) → List Int64 → Int
  | p :: rest, n :: ns => exactChain exact (exact k p.1 n.toInt) rest ns
  | _, _ => k

/-- A chain on integers follows the chain on exact integers, if each of its operators does. -/
theorem evaluateChain_int {Op : Type} {apply : Value → Op → Value → Except Failure Value}
    {exact : Int → Op → Int → Int} {rest : List (Op × Expr)}
    (happly : ∀ p ∈ rest, ∀ k n,
      apply (.int (.ofInt k)) p.1 (.int n) = .ok (.int (.ofInt (exact k p.1 n.toInt))))
    {ns : List Int64} (h : evaluateAll eval (rest.map Prod.snd) s = .done (ns.map .int) t)
    (k : Int) :
    evaluateChain eval apply (.int (.ofInt k)) rest s =
      .done (.int (.ofInt (exactChain exact k rest ns))) t := by
  -- along the operators, with the exact result so far taken to 64 bits
  induction rest generalizing k s ns with
  | nil =>
    cases ns with
    | nil =>
      cases h
      rfl
    | cons n ns => cases h
  | cons p rest ih =>
    rw [List.forall_mem_cons] at happly
    obtain ⟨v, s', ws, hv, hws, hns⟩ := evaluateAll_cons_eq_done h
    -- the operand at this operator is the first one of those given
    obtain ⟨n, ns, rfl, rfl, rfl⟩ := List.map_eq_cons_iff.mp hns
    rw [evaluateChain_of_ok hv (happly.1 k n)]
    exact ih happly.2 hws _

/-- An expression that is a chain on integers evaluates to what the exact chain gives, taken to 64
bits. -/
theorem IsChain.evaluates_int {Op : Type} {chain : Expr → List (Op × Expr) → Expr}
    {apply : Value → Op → Value → Except Failure Value} (h : IsChain setting chain apply)
    {exact : Int → Op → Int → Int} {first : Expr} {others : List (Op × Expr)}
    (happly : ∀ p ∈ others, ∀ k n,
      apply (.int (.ofInt k)) p.1 (.int n) = .ok (.int (.ofInt (exact k p.1 n.toInt))))
    {n : Int64} {ns : List Int64}
    (hoperands :
      EvaluatesAll setting (first :: others.map Prod.snd) s (.int n :: ns.map .int) t) :
    Evaluates setting (chain first others) s
      (.done (.int (.ofInt (exactChain exact n.toInt others ns))) t) := by
  obtain ⟨steps, hsteps⟩ := hoperands.eventually
  obtain ⟨_, s', _, hn, hns, heq⟩ := evaluateAll_cons_eq_done (hsteps steps (Nat.le_refl steps))
  cases heq
  -- the first operand starts the exact chain
  have hfirst : Value.int n = .int (.ofInt n.toInt) := by rw [Int64.ofInt_toInt]
  refine ⟨nofun, steps + 1, ?_⟩
  rw [h, Action.bind_apply, hn, hfirst]
  exact evaluateChain_int happly hns n.toInt

/-- An exact chain of `+` and `-` is the sum of its operands with their signs. -/
theorem exactChain_signed (k : Int) (others : List (AdditiveOp × Expr)) (ns : List Int64) :
    exactChain (fun k op n => k + op.signed n) k others ns =
      k + (List.zipWith (fun p n => p.1.signed n.toInt) others ns).sum := by
  induction others generalizing k ns with
  | nil => exact (Int.add_zero k).symm
  | cons p others ih =>
    cases ns with
    | nil => exact (Int.add_zero k).symm
    | cons n ns => rw [exactChain, ih, List.zipWith_cons_cons, List.sum_cons, Int.add_assoc]

/-- An exact chain of `*` is the product of its operands. -/
theorem exactChain_times (k : Int) {es : List Expr} {ns : List Int64}
    (h : es.length = ns.length) :
    exactChain (fun k _ n => k * n) k (es.map fun e => (MultiplicativeOp.times, e)) ns =
      k * (ns.map Int64.toInt).prod := by
  induction es generalizing k ns with
  | nil =>
    cases ns with
    | nil => exact (Int.mul_one k).symm
    | cons n ns => cases h
  | cons e es ih =>
    cases ns with
    | nil => cases h
    | cons n ns =>
      rw [List.map_cons, exactChain, ih _ (Nat.succ.inj h), List.map_cons, List.prod_cons,
        Int.mul_assoc]

-- ---------------------------------------------------------------------------
-- Expressions
-- ---------------------------------------------------------------------------

/-- What expressions with integer operands evaluate to. -/
structure ExactArithmetic (setting : Setting) : Prop where
  /-- A sum is the exact one, taken to 64 bits. -/
  sum : ∀ first (others : List (AdditiveOp × Expr)) s t n (ns : List Int64),
    EvaluatesAll setting (first :: others.map Prod.snd) s (.int n :: ns.map .int) t →
    Evaluates setting (.additive first others) s (.done
      (.int (.ofInt (n.toInt + (List.zipWith (fun p m => p.1.signed m.toInt) others ns).sum))) t)
  /-- A product is the exact one, taken to 64 bits. -/
  product : ∀ first (others : List Expr) s t n (ns : List Int64),
    EvaluatesAll setting (first :: others) s (.int n :: ns.map .int) t →
    Evaluates setting (.multiplicative first (others.map fun e => (.times, e))) s (.done
      (.int (.ofInt (n.toInt * (ns.map Int64.toInt).prod))) t)
  /-- `/` and `%` fail if the right operand is zero, and then in the state that it leaves. -/
  zero : ∀ x op y s t a b, op ≠ .times → EvaluatesAll setting [x, y] s [.int a, .int b] t →
    ∀ u, Evaluates setting (.multiplicative x [(op, y)]) s (.failed .divisionByZero u) ↔
      b = 0 ∧ u = t
  division : ∀ x y s t a b, b ≠ 0 → EvaluatesAll setting [x, y] s [.int a, .int b] t →
    ∃ q r, Division a b q r ∧
      Evaluates setting (.multiplicative x [(.divide, y)]) s (.done (.int q) t) ∧
      Evaluates setting (.multiplicative x [(.remainder, y)]) s (.done (.int r) t)
  /-- `(a / b) * b + a % b` is `a`, whichever expressions the five operands are. -/
  recomposition : ∀ x y z x' y' s t a b, b ≠ 0 →
    EvaluatesAll setting [x, y, z, x', y'] s [.int a, .int b, .int b, .int a, .int b] t →
    Evaluates setting
      (.additive (.multiplicative (.multiplicative x [(.divide, y)]) [(.times, z)])
        [(.plus, .multiplicative x' [(.remainder, y')])]) s (.done (.int a) t)
  /-- A negative is the exact one, taken to 64 bits. -/
  negative : ∀ x s t a, Evaluates setting x s (.done (.int a) t) →
    Evaluates setting (.unary .minus x) s (.done (.int (.ofInt (-a.toInt))) t)

section

variable {x y : Expr} {a b : Int64}

/-- A division by anything but zero evaluates to the quotient, in the state its operands leave. -/
theorem evaluates_divide (h : EvaluatesAll setting [x, y] s [.int a, .int b] t) (hb : b ≠ 0) :
    Evaluates setting (.multiplicative x [(.divide, y)]) s (.done (.int (a / b)) t) := by
  have hpair := (isChain_multiplicative setting).evaluates_pair .divide h
  rwa [Value.divide_int a hb] at hpair

/-- A remainder by anything but zero evaluates to it, in the state its operands leave. -/
theorem evaluates_remainder (h : EvaluatesAll setting [x, y] s [.int a, .int b] t) (hb : b ≠ 0) :
    Evaluates setting (.multiplicative x [(.remainder, y)]) s (.done (.int (a % b)) t) := by
  have hpair := (isChain_multiplicative setting).evaluates_pair .remainder h
  rwa [Value.remainder_int a hb] at hpair

/-- A division by zero fails in the state its operands leave. -/
theorem evaluates_zero {op : MultiplicativeOp} (hop : op ≠ .times)
    (h : EvaluatesAll setting [x, y] s [.int a, .int 0] t) :
    Evaluates setting (.multiplicative x [(op, y)]) s (.failed .divisionByZero t) := by
  have hpair := (isChain_multiplicative setting).evaluates_pair op h
  rwa [Value.multiplicative_zero hop] at hpair

/-- A negative sign evaluates to the negative of its operand. -/
theorem evaluates_minus (h : Evaluates setting x s (.done (.int a) t)) :
    Evaluates setting (.unary .minus x) s (.done (.int (.ofInt (-a.toInt))) t) := by
  obtain ⟨n, hn⟩ := h.eventually
  refine ⟨nofun, n + 1, ?_⟩
  have hminus : evaluate setting (n + 1) (.unary .minus x) =
      evaluate setting n x >>= fun v => .lift (v.unary .minus) := rfl
  rw [hminus, Action.bind_apply, hn n (Nat.le_refl n)]
  dsimp only
  rw [Value.minus_int]
  rfl

end

/-- **Arithmetic of integers** is exact up to multiples of `2 ^ 64`. -/
theorem exact_arithmetic (setting : Setting) : ExactArithmetic setting where
  sum first others s t n ns h := by
    rw [← exactChain_signed]
    exact (isChain_additive setting).evaluates_int (fun p _ k m => Value.additive_int p.1 k m) h
  product first others s t n ns h := by
    have hlength : others.length = ns.length := by
      simpa using h.length_eq
    -- the operands of the chain of `*` are the given ones
    have hsnd : (others.map fun e => (MultiplicativeOp.times, e)).map Prod.snd = others := by
      rw [List.map_map]
      exact List.map_id others
    rw [← exactChain_times n.toInt hlength]
    refine (isChain_multiplicative setting).evaluates_int ?_ ?_
    · intro p hp k m
      obtain ⟨e, -, rfl⟩ := List.mem_map.mp hp
      exact Value.times_int k m
    · rwa [hsnd]
  zero x op y s t a b hop h u := by
    constructor
    · intro hfailed
      by_cases hb : b = 0
      · subst hb
        -- an evaluation ends in one way only, and this one ends in the failure
        cases hfailed.unique (evaluates_zero hop h)
        exact ⟨rfl, rfl⟩
      · -- evaluation would have ended with a value
        cases op with
        | times => exact absurd rfl hop
        | divide => cases hfailed.unique (evaluates_divide h hb)
        | remainder => cases hfailed.unique (evaluates_remainder h hb)
    · rintro ⟨rfl, rfl⟩
      exact evaluates_zero hop h
  division x y s t a b hb h :=
    ⟨a / b, a % b, division_int hb, evaluates_divide h hb, evaluates_remainder h hb⟩
  recomposition x y z x' y' s t a b hb h := by
    -- the five operands are evaluated one after the other
    obtain _ | ⟨hx, _ | ⟨hy, _ | ⟨hz, hlast⟩⟩⟩ := h
    have hquotient := evaluates_divide (.cons hx (.cons hy .nil)) hb
    have hproduct :
        Evaluates setting (.multiplicative (.multiplicative x [(.divide, y)]) [(.times, z)]) s
          (.done (.int (a / b * b)) _) :=
      (isChain_multiplicative setting).evaluates_pair .times (.cons hquotient (.cons hz .nil))
    have hsum := (isChain_additive setting).evaluates_pair .plus
      (.cons hproduct (.cons (evaluates_remainder hlast hb) .nil))
    -- no operator but the last one of the three gives the sum
    have hvalue : (Value.int (a / b * b)).additive .plus (.int (a % b)) =
        .ok (.int (a / b * b + a % b)) := rfl
    rwa [hvalue, div_mul_add_mod] at hsum
  negative _ _ _ _ := evaluates_minus

/-- The greatest integer and `1`, and the least one divided by `-1`, both of which wrap around. -/
theorem exact_arithmetic_wrapping :
    Evaluates ⟨[.addBase], 2⟩
        (.additive (.literal (.int Int64.maxValue)) [(.plus, .literal (.int 1))])
        Session.midCall.state (.done (.int Int64.minValue) Session.midCall.state) ∧
      Evaluates ⟨[.addBase], 2⟩
        (.additive
          (.multiplicative
            (.multiplicative (.literal (.int Int64.minValue)) [(.divide, .literal (.int (-1)))])
            [(.times, .literal (.int (-1)))])
          [(.plus, .multiplicative (.literal (.int Int64.minValue))
            [(.remainder, .literal (.int (-1)))])])
        Session.midCall.state (.done (.int Int64.minValue) Session.midCall.state) := by
  have hliteral (n : Int64) : Evaluates ⟨[.addBase], 2⟩ (.literal (.int n)) Session.midCall.state
      (.done (.int n) Session.midCall.state) := evaluates_literal (.int n) _
  constructor
  · exact (exact_arithmetic _).sum _ [(.plus, .literal (.int 1))] _ _ Int64.maxValue [1]
      (.cons (hliteral _) (.cons (hliteral 1) .nil))
  · exact (exact_arithmetic _).recomposition _ _ _ _ _ _ _ Int64.minValue (-1) (by decide)
      (.cons (hliteral _) (.cons (hliteral _) (.cons (hliteral _)
        (.cons (hliteral _) (.cons (hliteral _) .nil)))))

end NullScript
