import NullScript.Proofs.Invariant

/-!
# NullScript — renaming a local variable

A variable of a block is renamed where it is declared and where it is meant: behind the declaration,
and in the blocks there, up to a declaration of the same name in such a block. The initial value of
that declaration still means the outer variable. Names of functions are not names of variables.

* `renameLocal` — a block with a variable of its own renamed.
* `varsOf` — the names of variables that occur in statements.
* `evaluateWith_rename` — what a renamed expression means, in terms of its renamed parts.
-/

namespace NullScript

-- ---------------------------------------------------------------------------
-- Names
-- ---------------------------------------------------------------------------

/-- The name, with `y` in place of `x`. -/
def newName (x y name : String) : String := if name = x then y else name

theorem newName_of_ne {x name : String} (y : String) (h : name ≠ x) : newName x y name = name :=
  if_neg h

/-- Names stay different if none of them was the new one before. -/
theorem newName_eq_iff {x y name name' : String} (h : name ≠ y) (h' : name' ≠ y) :
    newName x y name = newName x y name' ↔ name = name' := by
  unfold newName
  split <;> split <;> simp_all [eq_comm]

-- ---------------------------------------------------------------------------
-- Expressions
-- ---------------------------------------------------------------------------

namespace Expr

section

variable (x y : String)

mutual

/-- The expression with the variable `x` called `y`. -/
def rename : Expr → Expr
  | .disjunction first others => .disjunction first.rename (renameAll others)
  | .conjunction first others => .conjunction first.rename (renameAll others)
  | .comparison left op right => .comparison left.rename op right.rename
  | .orElse left right => .orElse left.rename right.rename
  | .additive first others => .additive first.rename (renameSum others)
  | .multiplicative first others => .multiplicative first.rename (renameProduct others)
  | .cast operand target => .cast operand.rename target
  | .unary op operand => .unary op operand.rename
  | .literal d => .literal d
  | .identifier name => .identifier (newName x y name)
  | .call f arguments => .call f (renameAll arguments)

def renameAll : List Expr → List Expr
  | [] => []
  | e :: es => e.rename :: renameAll es

def renameSum : List (AdditiveOp × Expr) → List (AdditiveOp × Expr)
  | [] => []
  | (op, e) :: es => (op, e.rename) :: renameSum es

def renameProduct : List (MultiplicativeOp × Expr) → List (MultiplicativeOp × Expr)
  | [] => []
  | (op, e) :: es => (op, e.rename) :: renameProduct es

end

/-- All expressions of a list are renamed. -/
theorem renameAll_eq (es : List Expr) : renameAll x y es = es.map (rename x y) := by
  induction es with
  | nil => rw [renameAll, List.map_nil]
  | cons e es ih => rw [renameAll, ih, List.map_cons]

theorem renameSum_eq (es : List (AdditiveOp × Expr)) :
    renameSum x y es = es.map (Prod.map id (rename x y)) := by
  induction es with
  | nil => rw [renameSum, List.map_nil]
  | cons e es ih => rw [renameSum, ih, List.map_cons, Prod.map, id]

theorem renameProduct_eq (es : List (MultiplicativeOp × Expr)) :
    renameProduct x y es = es.map (Prod.map id (rename x y)) := by
  induction es with
  | nil => rw [renameProduct, List.map_nil]
  | cons e es ih => rw [renameProduct, ih, List.map_cons, Prod.map, id]

end

mutual

/-- The names of the variables in the expression. -/
def vars : Expr → List String
  | .disjunction first others => first.vars ++ varsOfAll others
  | .conjunction first others => first.vars ++ varsOfAll others
  | .comparison left _ right => left.vars ++ right.vars
  | .orElse left right => left.vars ++ right.vars
  | .additive first others => first.vars ++ varsOfSum others
  | .multiplicative first others => first.vars ++ varsOfProduct others
  | .cast operand _ => operand.vars
  | .unary _ operand => operand.vars
  | .literal _ => []
  | .identifier name => [name]
  | .call _ arguments => varsOfAll arguments

def varsOfAll : List Expr → List String
  | [] => []
  | e :: es => e.vars ++ varsOfAll es

def varsOfSum : List (AdditiveOp × Expr) → List String
  | [] => []
  | (_, e) :: es => e.vars ++ varsOfSum es

def varsOfProduct : List (MultiplicativeOp × Expr) → List String
  | [] => []
  | (_, e) :: es => e.vars ++ varsOfProduct es

end

/-- The variables of a list are those of its members. -/
theorem varsOfAll_eq (es : List Expr) : varsOfAll es = es.flatMap vars := by
  induction es with
  | nil => rw [varsOfAll, List.flatMap_nil]
  | cons e es ih => rw [varsOfAll, ih, List.flatMap_cons]

theorem varsOfSum_eq (es : List (AdditiveOp × Expr)) :
    varsOfSum es = (es.map Prod.snd).flatMap vars := by
  induction es with
  | nil => rw [varsOfSum, List.map_nil, List.flatMap_nil]
  | cons e es ih => rw [varsOfSum, ih, List.map_cons, List.flatMap_cons]

theorem varsOfProduct_eq (es : List (MultiplicativeOp × Expr)) :
    varsOfProduct es = (es.map Prod.snd).flatMap vars := by
  induction es with
  | nil => rw [varsOfProduct, List.map_nil, List.flatMap_nil]
  | cons e es ih => rw [varsOfProduct, ih, List.map_cons, List.flatMap_cons]

/-- The variables of an expression, other than a name, are those of its parts. -/
theorem vars_eq (e : Expr) (h : ∀ name, e ≠ .identifier name) :
    e.vars = e.parts.flatMap vars := by
  cases e with
  | disjunction first others | conjunction first others =>
    rw [vars, varsOfAll_eq, parts, List.flatMap_cons]
  | comparison left op right | orElse left right =>
    rw [vars, parts, List.flatMap_cons, List.flatMap_singleton]
  | additive first others =>
    rw [vars, varsOfSum_eq, parts, List.flatMap_cons]
  | multiplicative first others =>
    rw [vars, varsOfProduct_eq, parts, List.flatMap_cons]
  | cast operand target | unary op operand => rw [vars, parts, List.flatMap_singleton]
  | literal d => rfl
  | identifier name => exact absurd rfl (h name)
  | call f arguments => rw [vars, varsOfAll_eq, parts]

/-- A name that does not occur in an expression does not occur in its parts. -/
theorem not_mem_vars_of_mem_parts {y : String} {e e' : Expr} (h : y ∉ e.vars)
    (he' : e' ∈ e.parts) : y ∉ e'.vars := by
  -- a name has no parts
  have hname : ∀ name, e ≠ .identifier name := by
    rintro name rfl
    exact List.not_mem_nil he'
  rw [vars_eq e hname] at h
  exact fun hy => h (List.mem_flatMap.mpr ⟨e', he', hy⟩)

end Expr

-- ---------------------------------------------------------------------------
-- Statements
-- ---------------------------------------------------------------------------

/-- Does the statement declare a variable of the name, in the scope that it stands in? -/
def Statement.declaresName (name : String) : Statement → Bool
  | .declare _ name' _ _ => name' = name
  | _ => false

/-- Only a declaration declares a name. -/
theorem Statement.eq_declare_of_declaresName {name : String} {st : Statement}
    (h : st.declaresName name = true) :
    ∃ isConst type value, st = .declare isConst name type value := by
  cases st with
  | declare isConst name' type value =>
    obtain rfl : name' = name := of_decide_eq_true h
    exact ⟨isConst, type, value, rfl⟩
  | _ => cases h

/-- The statement with its expressions changed by `f`, and its blocks by `g`. -/
def Statement.mapParts (f : Expr → Expr) (g : List Statement → List Statement) :
    Statement → Statement
  | .branch condition body otherwise => .branch (f condition) (g body) (otherwise.map g)
  | .loop condition body => .loop (f condition) (g body)
  | .giveBack value => .giveBack (value.map f)
  | .perform e => .perform (f e)
  | .assign target value => .assign (f target) (f value)
  | .declare isConst name type value => .declare isConst name type (value.map f)

theorem Statement.mapParts_id (st : Statement) : st.mapParts id id = st := by
  cases st <;> simp [mapParts]

section

variable (x y : String)

mutual

/-- The statement with the variable `x`, which is declared before it, called `y`. -/
def Statement.rename : Statement → Statement
  | .branch condition body otherwise =>
    .branch (condition.rename x y) (renameBody body) (renameOtherwise otherwise)
  | .loop condition body => .loop (condition.rename x y) (renameBody body)
  | .giveBack value => .giveBack (value.map (Expr.rename x y))
  | .perform e => .perform (e.rename x y)
  | .assign target value => .assign (target.rename x y) (value.rename x y)
  | .declare isConst name type value => .declare isConst name type (value.map (Expr.rename x y))

/-- The statements with the variable `x`, which is declared before them, called `y`. Behind another
declaration of the name it means the variable of that one. -/
def renameBody : List Statement → List Statement
  | [] => []
  | st :: rest => st.rename :: if st.declaresName x then rest else renameBody rest

def renameOtherwise : Option (List Statement) → Option (List Statement)
  | none => none
  | some body => some (renameBody body)

end

/-- The second branch is renamed if there is one. -/
theorem renameOtherwise_eq (otherwise : Option (List Statement)) :
    renameOtherwise x y otherwise = otherwise.map (renameBody x y) := by
  cases otherwise with
  | none => rw [renameOtherwise, Option.map_none]
  | some body => rw [renameOtherwise, Option.map_some]

/-- A statement is renamed part by part. -/
theorem Statement.rename_eq (st : Statement) :
    st.rename x y = st.mapParts (Expr.rename x y) (renameBody x y) := by
  cases st with
  | branch condition body otherwise => rw [rename, renameOtherwise_eq, mapParts]
  | _ => rw [rename, mapParts]

/-- The statements of a block with the variable `x` that they declare called `y`. -/
def renameLocal : List Statement → List Statement
  | [] => []
  | .declare isConst name type value :: rest =>
    if name = x then .declare isConst y type value :: renameBody x y rest
    else .declare isConst name type value :: renameLocal rest
  | st :: rest => st :: renameLocal rest

/-- Before the declaration a block stays as it is. -/
theorem renameLocal_cons {st : Statement} (h : st.declaresName x = false)
    (rest : List Statement) : renameLocal x y (st :: rest) = st :: renameLocal x y rest := by
  cases st with
  | declare isConst name type value => rw [renameLocal, if_neg (of_decide_eq_false h)]
  | _ => rfl

end

section

variable {x y : String}

/-- What is declared in a scope already is not renamed. -/
theorem countP_declaresName_renameBody (name : String) (body : List Statement) :
    (renameBody x y body).countP (·.declaresName name) = body.countP (·.declaresName name) := by
  induction body with
  | nil => rw [renameBody]
  | cons st rest ih =>
    have hst : (st.rename x y).declaresName name = st.declaresName name := by
      rw [Statement.rename_eq]
      cases st <;> rfl
    rw [renameBody, List.countP_cons, List.countP_cons, hst]
    -- the rest is renamed or not, which changes no declared names
    split
    · rfl
    · rw [ih]

end

mutual

/-- The names of the variables in the statement, those that are declared included. -/
def Statement.vars : Statement → List String
  | .branch condition body otherwise =>
    condition.vars ++ (varsOf body ++ varsOfOtherwise otherwise)
  | .loop condition body => condition.vars ++ varsOf body
  | .giveBack value => (value.map Expr.vars).getD []
  | .perform e => e.vars
  | .assign target value => target.vars ++ value.vars
  | .declare _ name _ value => name :: (value.map Expr.vars).getD []

/-- The names of the variables in the statements. -/
def varsOf : List Statement → List String
  | [] => []
  | st :: rest => st.vars ++ varsOf rest

def varsOfOtherwise : Option (List Statement) → List String
  | none => []
  | some body => varsOf body

end

theorem varsOf_eq (body : List Statement) :
    varsOf body = body.flatMap Statement.vars := by
  induction body with
  | nil => rw [varsOf, List.flatMap_nil]
  | cons st rest ih => rw [varsOf, ih, List.flatMap_cons]

/-- A name that does not occur in statements does not occur in any of them. -/
theorem not_mem_vars_of_mem {y : String} {body : List Statement} (h : y ∉ varsOf body)
    {st : Statement} (hst : st ∈ body) : y ∉ st.vars := by
  rw [varsOf_eq] at h
  exact fun hy => h (List.mem_flatMap.mpr ⟨st, hst, hy⟩)

namespace Statement

variable {y : String} {st : Statement}

/-- A statement that a name does not occur in does not declare it. -/
theorem declaresName_of_not_mem_vars (h : y ∉ st.vars) : st.declaresName y = false := by
  refine Bool.eq_false_iff.mpr fun hst => h ?_
  obtain ⟨isConst, type, value, rfl⟩ := eq_declare_of_declaresName hst
  exact List.mem_cons_self

/-- A name that does not occur in a statement does not occur in its expressions. -/
theorem not_mem_vars_of_mem_parts (h : y ∉ st.vars) {e : Expr} (he : e ∈ st.parts) :
    y ∉ e.vars := by
  intro hy
  apply h
  cases st with
  | branch condition body otherwise =>
    obtain rfl := List.mem_singleton.mp he
    exact List.mem_append_left _ hy
  | loop condition body =>
    obtain rfl := List.mem_singleton.mp he
    exact List.mem_append_left _ hy
  | giveBack value =>
    obtain rfl := Option.mem_toList.mp he
    exact hy
  | perform e' =>
    obtain rfl := List.mem_singleton.mp he
    exact hy
  | assign target value =>
    obtain rfl := List.mem_singleton.mp he
    exact List.mem_append_right _ hy
  | declare isConst name type value =>
    obtain rfl := Option.mem_toList.mp he
    exact List.mem_cons_of_mem _ hy

/-- A name that does not occur in a statement does not occur in its blocks. -/
theorem not_mem_vars_of_mem_blocks (h : y ∉ st.vars) {body : List Statement}
    (hbody : body ∈ st.blocks) : y ∉ varsOf body := by
  intro hy
  apply h
  cases st with
  | branch condition first otherwise =>
    rw [vars]
    rcases List.mem_cons.mp hbody with rfl | hbody
    · exact List.mem_append_right _ (List.mem_append_left _ hy)
    · obtain rfl := Option.mem_toList.mp hbody
      exact List.mem_append_right _ (List.mem_append_right _ hy)
  | loop condition first =>
    obtain rfl := List.mem_singleton.mp hbody
    exact List.mem_append_right _ hy
  | _ => cases hbody

end Statement

/-- A renamed block declares the new name once, and the old one not at all. -/
theorem countP_declaresName_renameLocal {x y : String} {body : List Statement}
    (hx : body.countP (·.declaresName x) = 1) (hy : y ∉ varsOf body) :
    (renameLocal x y body).countP (·.declaresName x) = 0 ∧
      (renameLocal x y body).countP (·.declaresName y) = 1 := by
  induction body with
  | nil => cases hx
  | cons st rest ih =>
    have hrest : y ∉ varsOf rest := fun h => hy (List.mem_append_right _ h)
    have hst : y ∉ st.vars := not_mem_vars_of_mem hy List.mem_cons_self
    rw [List.countP_cons] at hx
    -- at the declaration, which becomes one of `y`, or still before it
    cases hdeclares : st.declaresName x with
    | true =>
      obtain ⟨isConst, type, value, rfl⟩ := Statement.eq_declare_of_declaresName hdeclares
      have hxy : y ≠ x := fun h => hst (h ▸ List.mem_cons_self)
      have hzero : rest.countP (·.declaresName y) = 0 := by
        rw [List.countP_eq_zero]
        intro st' hst'
        rw [Statement.declaresName_of_not_mem_vars (not_mem_vars_of_mem hrest hst')]
        exact Bool.false_ne_true
      -- the only declaration of `x` is this one, so the rest has none
      rw [hdeclares, if_pos rfl, Nat.add_eq_right] at hx
      rw [renameLocal, if_pos rfl, List.countP_cons, List.countP_cons,
        countP_declaresName_renameBody, countP_declaresName_renameBody, hx, hzero]
      simp [Statement.declaresName, hxy]
    | false =>
      rw [hdeclares, if_neg Bool.false_ne_true, Nat.add_zero] at hx
      rw [renameLocal_cons x y hdeclares, List.countP_cons, List.countP_cons, hdeclares,
        Statement.declaresName_of_not_mem_vars hst]
      exact ih hx hrest

-- ---------------------------------------------------------------------------
-- One step of evaluation
-- ---------------------------------------------------------------------------

section

variable (setting : Setting) (eval : Expr → Action Value) (exec : Statement → Action Flow)
  (f : Expr → Expr)

/-- Changed operands may be read as a changed evaluation of the operands. -/
theorem evaluateLogical_map (decisive : Bool) (es : List Expr) :
    evaluateLogical eval decisive (es.map f) =
      evaluateLogical (fun e => eval (f e)) decisive es := by
  induction es with
  | nil => rfl
  | cons e es ih => rw [List.map_cons, evaluateLogical, evaluateLogical, ih]

/-- Changed operands of a chain may be read as a changed evaluation. -/
theorem evaluateChain_map {Op : Type} (apply : Value → Op → Value → Except Failure Value)
    (v : Value) (rest : List (Op × Expr)) :
    evaluateChain eval apply v (rest.map (Prod.map id f)) =
      evaluateChain (fun e => eval (f e)) apply v rest := by
  induction rest generalizing v with
  | nil => rfl
  | cons x rest ih =>
    obtain ⟨op, e⟩ := x
    simp only [List.map_cons, Prod.map_apply, id, evaluateChain, ih]

/-- Changed expressions may be read as a changed evaluation of the expressions. -/
theorem evaluateAll_map (es : List Expr) :
    evaluateAll eval (es.map f) = evaluateAll (fun e => eval (f e)) es := by
  induction es with
  | nil => rfl
  | cons e es ih => rw [List.map_cons, evaluateAll, evaluateAll, ih]

/-- Changed arguments may be read as a changed evaluation; the name of the function stays. -/
theorem call_map (name : String) (arguments : List Expr) :
    call setting eval exec name (arguments.map f) =
      call setting (fun e => eval (f e)) exec name arguments := by
  unfold call
  rw [evaluateAll_map]

/-- A renamed expression means what it meant, in terms of its renamed parts, if it is not the
variable itself. -/
theorem evaluateWith_rename (x y : String) {e : Expr} (h : ∀ name, e ≠ .identifier name) :
    evaluateWith setting eval exec (e.rename x y) =
      evaluateWith setting (fun e => eval (e.rename x y)) exec e := by
  -- operands of chains and arguments are lists; other expressions have their parts in place
  cases e with
  | disjunction first others | conjunction first others =>
    rw [Expr.rename, Expr.renameAll_eq, evaluateWith, evaluateWith, ← List.map_cons,
      evaluateLogical_map]
  | additive first others =>
    rw [Expr.rename, Expr.renameSum_eq]
    simp only [evaluateWith, evaluateChain_map]
  | multiplicative first others =>
    rw [Expr.rename, Expr.renameProduct_eq]
    simp only [evaluateWith, evaluateChain_map]
  | identifier name => exact absurd rfl (h name)
  | call name arguments =>
    rw [Expr.rename, Expr.renameAll_eq, evaluateWith_call, evaluateWith_call, call_map]
  | _ => rfl

end

end NullScript
