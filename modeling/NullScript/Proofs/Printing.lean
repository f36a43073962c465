import NullScript.Proofs.Grammar
import NullScript.Proofs.Spelling

/-!
# NullScript — printing programs

A program is printed as tokens that do not depend on how tightly operators bind: operands that are
not simple, conditions, values and expression statements stand in parentheses. The text has each
token in its spelling and a blank behind it.

* `Expr.tokens`, `Statement.tokens`, `Function.tokens`, `printed` — printing.
* `Expr.Printable`, `Statement.Printable`, `Function.Printable`, `Program.Printable` — what has a
  text: chains have operands, names and literals keep the limits, types can be written.
* `spells_spelling`, `Program.Printable.allWritable` — every token of what is printable has a
  spelling.
-/

namespace NullScript

-- ---------------------------------------------------------------------------
-- Expressions
-- ---------------------------------------------------------------------------

/-- Tokens in parentheses. -/
def enclosed (ts : List Token) : List Token :=
  .punctuation .leftParenthesis :: (ts ++ [.punctuation .rightParenthesis])

/-- The tokens of a type: the word for its base and the mark of a nullable one. -/
def Ty.tokens (t : Ty) : List Token :=
  (t.base.word?.map Token.keyword).toList ++ if t.nullable then [.punctuation .question] else []

namespace Expr

/-- Is it a literal, a name or a call, which need no parentheses? -/
def isSimple : Expr → Bool
  | .literal _ | .identifier _ | .call _ _ => true
  | _ => false

/-- The tokens of the expression as those of an operand. -/
def asOperand (e : Expr) (ts : List Token) : List Token := if e.isSimple then ts else enclosed ts

mutual

/-- The tokens of an expression. -/
def tokens : Expr → List Token
  | .disjunction e es => e.asOperand e.tokens ++ tokensBehind .disjunction es
  | .conjunction e es => e.asOperand e.tokens ++ tokensBehind .conjunction es
  | .comparison e op f => e.asOperand e.tokens ++ .comparison op :: f.asOperand f.tokens
  | .orElse e f => e.asOperand e.tokens ++ .orElse :: f.asOperand f.tokens
  | .additive e es => e.asOperand e.tokens ++ tokensOfSum es
  | .multiplicative e es => e.asOperand e.tokens ++ tokensOfProduct es
  | .cast e t => e.asOperand e.tokens ++ .keyword .as_ :: t.tokens
  | .unary op e => .unary op :: e.asOperand e.tokens
  | .literal d => [.literal d]
  | .identifier x => [.identifier x]
  | .call f es => .identifier f :: enclosed (tokensOfArguments es)

/-- Operands, each behind the same token. -/
def tokensBehind (t : Token) : List Expr → List Token
  | [] => []
  | e :: es => t :: (e.asOperand e.tokens ++ tokensBehind t es)

/-- The further operands of a sum, each behind its operator. -/
def tokensOfSum : List (AdditiveOp × Expr) → List Token
  | [] => []
  | (op, e) :: es => op.token :: (e.asOperand e.tokens ++ tokensOfSum es)

/-- The further operands of a product, each behind its operator. -/
def tokensOfProduct : List (MultiplicativeOp × Expr) → List Token
  | [] => []
  | (op, e) :: es => .multiplicative op :: (e.asOperand e.tokens ++ tokensOfProduct es)

/-- The arguments of a call, with commas between them. -/
def tokensOfArguments : List Expr → List Token
  | [] => []
  | e :: es => e.tokens ++ tokensOfMoreArguments es

/-- Arguments with a comma before each. -/
def tokensOfMoreArguments : List Expr → List Token
  | [] => []
  | e :: es => .punctuation .comma :: (e.tokens ++ tokensOfMoreArguments es)

end

/-- The tokens of an expression where an operand stands. -/
def operand (e : Expr) : List Token := e.asOperand e.tokens

/-- Operands behind one token are printed one by one. -/
theorem tokensBehind_eq (t : Token) (es : List Expr) :
    tokensBehind t es = es.flatMap fun e => t :: e.operand := by
  induction es with
  | nil => rw [tokensBehind, List.flatMap_nil]
  | cons e es ih => rw [tokensBehind, ih, List.flatMap_cons, operand, List.cons_append]

/-- The further operands of a sum are printed one by one. -/
theorem tokensOfSum_eq (es : List (AdditiveOp × Expr)) :
    tokensOfSum es = es.flatMap fun x => x.1.token :: x.2.operand := by
  induction es with
  | nil => rw [tokensOfSum, List.flatMap_nil]
  | cons x es ih => rw [tokensOfSum, ih, List.flatMap_cons, operand, List.cons_append]

/-- The further operands of a product are printed one by one. -/
theorem tokensOfProduct_eq (es : List (MultiplicativeOp × Expr)) :
    tokensOfProduct es = es.flatMap fun x => .multiplicative x.1 :: x.2.operand := by
  induction es with
  | nil => rw [tokensOfProduct, List.flatMap_nil]
  | cons x es ih => rw [tokensOfProduct, ih, List.flatMap_cons, operand, List.cons_append]

/-- The further arguments of a call are printed one by one. -/
theorem tokensOfMoreArguments_eq (es : List Expr) :
    tokensOfMoreArguments es = es.flatMap fun e => .punctuation .comma :: e.tokens := by
  induction es with
  | nil => rw [tokensOfMoreArguments, List.flatMap_nil]
  | cons e es ih => rw [tokensOfMoreArguments, ih, List.flatMap_cons, List.cons_append]

end Expr

-- ---------------------------------------------------------------------------
-- Statements, functions and programs
-- ---------------------------------------------------------------------------

/-- Tokens in braces. -/
def braced (ts : List Token) : List Token :=
  .punctuation .leftBrace :: (ts ++ [.punctuation .rightBrace])

namespace Statement

mutual

/-- The tokens of a statement. -/
def tokens : Statement → List Token
  | .branch c body none =>
    .keyword .if_ :: (enclosed c.tokens ++ braced (tokensOfBody body))
  | .branch c body (some other) =>
    .keyword .if_ :: (enclosed c.tokens ++
      (braced (tokensOfBody body) ++ .keyword .else_ :: braced (tokensOfBody other)))
  | .loop c body => .keyword .while_ :: (enclosed c.tokens ++ braced (tokensOfBody body))
  | .giveBack none => [.keyword .return_]
  | .giveBack (some e) => .keyword .return_ :: enclosed e.tokens
  | .perform e => enclosed e.tokens
  | .assign target e => target.tokens ++ .punctuation .assign :: enclosed e.tokens
  | .declare isConst x t none =>
    .keyword (declarationWord isConst) :: (t.tokens ++ [.identifier x])
  | .declare isConst x t (some e) =>
    .keyword (declarationWord isConst) ::
      (t.tokens ++ .identifier x :: .punctuation .assign :: enclosed e.tokens)

/-- The tokens of the statements of a block, one behind the other. -/
def tokensOfBody : List Statement → List Token
  | [] => []
  | s :: body => s.tokens ++ tokensOfBody body

end

/-- Does the statement start with an expression? -/
def isExpression : Statement → Bool
  | .perform _ | .assign _ _ => true
  | _ => false

/-- The statements of a block are printed one by one. -/
theorem tokensOfBody_eq (body : List Statement) : tokensOfBody body = body.flatMap tokens := by
  induction body with
  | nil => rw [tokensOfBody, List.flatMap_nil]
  | cons s body ih => rw [tokensOfBody, ih, List.flatMap_cons]

end Statement

/-- The tokens of a parameter: its type and its name. -/
def Parameter.tokens (p : Parameter) : List Token := p.type.tokens ++ [.identifier p.name]

/-- Parameters with commas between them. -/
def tokensOfParameters : List Parameter → List Token
  | [] => []
  | p :: ps => p.tokens ++ ps.flatMap fun p => .punctuation .comma :: p.tokens

/-- The tokens of a result type. There are none for `void`. -/
def tokensOfResult (t : Ty) : List Token := if t = .void then [] else .arrow :: t.tokens

/-- The tokens of a function. -/
def Function.tokens (f : Function) : List Token :=
  .keyword .fun_ :: .identifier f.name :: (enclosed (tokensOfParameters f.parameters) ++
    (tokensOfResult f.returns ++ braced (Statement.tokensOfBody f.body)))

/-- What a program text consists of. -/
inductive Item where
  | statement (s : Statement)
  | function (f : Function)

namespace Item

/-- The tokens of a part of the text. -/
def tokens : Item → List Token
  | .statement s => s.tokens
  | .function f => f.tokens

/-- The part, if it is a statement. -/
def statement? : Item → Option Statement
  | .statement s => some s
  | .function _ => none

/-- The part, if it is a function. -/
def function? : Item → Option Function
  | .statement _ => none
  | .function f => some f

end Item

/-- The program of which these are the statements and functions, in any order. -/
def programOf (items : List Item) : Program :=
  ⟨items.filterMap Item.statement?, items.filterMap Item.function?⟩

/-- The program with its functions in front of its statements. -/
def Program.items (p : Program) : List Item :=
  p.functions.map .function ++ p.statements.map .statement

/-- A program is made up of its own functions and statements. -/
theorem programOf_items (p : Program) : programOf p.items = p := by
  have hstatements : (p.functions.map Item.function).filterMap Item.statement? = [] :=
    List.filterMap_eq_nil_iff.mpr (List.forall_mem_map.mpr fun _ _ => rfl)
  have hfunctions : (p.statements.map Item.statement).filterMap Item.function? = [] :=
    List.filterMap_eq_nil_iff.mpr (List.forall_mem_map.mpr fun _ _ => rfl)
  unfold programOf Program.items
  rw [List.filterMap_append, List.filterMap_append, hstatements, hfunctions]
  simp [Function.comp_def, Item.statement?, Item.function?]

-- ---------------------------------------------------------------------------
-- Texts
-- ---------------------------------------------------------------------------

/-- How doubles are written: the digits before and behind the point. -/
abbrev Decimals := Float → List Char × List Char

section

variable (limits : Limits) (decimals : Decimals)

/-- The text of a literal. -/
def Datum.spelling : Datum → List Char
  | .null => "null".toList
  | .int n => (Integer.display n).toList
  | .double x => (decimals x).1 ++ '.' :: (decimals x).2
  | .string s => quote s
  | .bool b => (if b then "true" else "false").toList

/-- The text of a token. -/
def Token.spelling : Token → List Char
  | .comment text => '/' :: '/' :: text.toList
  | .literal d => d.spelling decimals
  | .keyword k => k.spelling.toList
  | .identifier x => x.toList
  | .plus => ['+']
  | .multiplicative op => op.symbol.toList
  | .comparison op => op.symbol.toList
  | .unary op => op.symbol.toList
  | .punctuation .leftParenthesis => ['(']
  | .punctuation .rightParenthesis => [')']
  | .punctuation .leftBrace => ['\x7b']
  | .punctuation .rightBrace => ['\x7d']
  | .punctuation .comma => [',']
  | .punctuation .question => ['?']
  | .punctuation .assign => ['=']
  | .orElse => ['?', ':']
  | .conjunction => ['&', '&']
  | .disjunction => ['|', '|']
  | .arrow => ['-', '>']

/-- The text of tokens: their spellings with blanks behind them. -/
def textOf (ts : List Token) : List Char := spelled (ts.map fun t => (t.spelling decimals, t))

/-- The text of a program whose statements and functions come in this order. -/
def printed (items : List Item) : String :=
  String.ofList (textOf decimals (items.flatMap Item.tokens))

/-- The literal has a spelling within the limits. -/
def Datum.Writable : Datum → Prop
  | .int n => 0 ≤ n ∧ n ≤ limits.integerValue
  | .double x =>
    IsWhole limits (decimals x).1 ∧ (decimals x).2.all Char.isDigit ∧
      (decimals x).2.length ≤ limits.fractionDigits ∧
      Piece.doubleValue (wholeValue (decimals x).1) (decimals x).2 = x
  | .string s => s.toList.length ≤ limits.stringLength
  | _ => True

/-- The token has a spelling within the limits, and is no comment. -/
def Token.Writable : Token → Prop
  | .comment _ => False
  | .literal d => d.Writable limits decimals
  | .identifier x => IsName limits x
  | _ => True

end

-- ---------------------------------------------------------------------------
-- What can be printed
-- ---------------------------------------------------------------------------

/-- No `return` without a value stands directly before an expression, which would be read as its
value. -/
def apart : List Statement → Bool
  | .giveBack none :: s :: body => !s.isExpression && apart (s :: body)
  | _ :: body => apart body
  | [] => true

section

variable (limits : Limits) (decimals : Decimals)

/-- The expression has a text: chains have operands, names and literals keep the limits, and values
are converted to types that can be written. -/
inductive Expr.Printable : Expr → Prop
  | disjunction {e : Expr} {es : List Expr} :
    Printable e → (∀ x ∈ es, Printable x) → es ≠ [] → Printable (.disjunction e es)
  | conjunction {e : Expr} {es : List Expr} :
    Printable e → (∀ x ∈ es, Printable x) → es ≠ [] → Printable (.conjunction e es)
  | comparison {e f : Expr} {op : ComparisonOp} :
    Printable e → Printable f → Printable (.comparison e op f)
  | orElse {e f : Expr} : Printable e → Printable f → Printable (.orElse e f)
  | additive {e : Expr} {es : List (AdditiveOp × Expr)} :
    Printable e → (∀ x ∈ es, Printable x.2) → es ≠ [] → Printable (.additive e es)
  | multiplicative {e : Expr} {es : List (MultiplicativeOp × Expr)} :
    Printable e → (∀ x ∈ es, Printable x.2) → es ≠ [] → Printable (.multiplicative e es)
  | cast {e : Expr} {t : Ty} : Printable e → t.base ≠ .void → Printable (.cast e t)
  | unary {op : UnaryOp} {e : Expr} : Printable e → Printable (.unary op e)
  | literal {d : Datum} : d.Writable limits decimals → Printable (.literal d)
  | identifier {x : String} : IsName limits x → Printable (.identifier x)
  | call {f : String} {es : List Expr} :
    IsName limits f → (∀ x ∈ es, Printable x) → Printable (.call f es)

/-- The statement has a text. Only a name can be assigned to. -/
inductive Statement.Printable : Statement → Prop
  | branch {c : Expr} {body : List Statement} {otherwise : Option (List Statement)} :
    c.Printable limits decimals → (∀ s ∈ body, Printable s) → apart body →
    (∀ other ∈ otherwise, ∀ s ∈ other, Printable s) → (∀ other ∈ otherwise, apart other) →
    Printable (.branch c body otherwise)
  | loop {c : Expr} {body : List Statement} :
    c.Printable limits decimals → (∀ s ∈ body, Printable s) → apart body →
    Printable (.loop c body)
  | giveBack {value : Option Expr} :
    (∀ e ∈ value, e.Printable limits decimals) → Printable (.giveBack value)
  | perform {e : Expr} : e.Printable limits decimals → Printable (.perform e)
  | assign {x : String} {e : Expr} :
    IsName limits x → e.Printable limits decimals → Printable (.assign (.identifier x) e)
  | declare {isConst : Bool} {x : String} {t : Ty} {value : Option Expr} :
    IsName limits x → t.base ≠ .void → (∀ e ∈ value, e.Printable limits decimals) →
    Printable (.declare isConst x t value)

/-- The function has a text. -/
structure Function.Printable (f : Function) : Prop where
  name : IsName limits f.name
  parameters : ∀ p ∈ f.parameters, IsName limits p.name ∧ p.type.base ≠ .void
  returns : f.returns = .void ∨ f.returns.base ≠ .void
  body : ∀ s ∈ f.body, s.Printable limits decimals
  apart : apart f.body

/-- The program has a text. No two functions have one name. -/
structure Program.Printable (p : Program) : Prop where
  statements : ∀ s ∈ p.statements, s.Printable limits decimals
  apart : apart p.statements
  functions : ∀ f ∈ p.functions, f.Printable limits decimals
  names : (p.functions.map Function.name).Nodup

end

-- ---------------------------------------------------------------------------
-- Spellings of printed tokens
-- ---------------------------------------------------------------------------

section

variable {limits : Limits} {decimals : Decimals}

/-- **The spelling of a writable token spells it**: the lexer reads it back. -/
theorem spells_spelling {t : Token} (h : t.Writable limits decimals) :
    Spells limits (t.spelling decimals) t := by
  cases t with
  | comment => exact h.elim
  | literal d =>
    cases d with
    | null => exact .reserved rfl
    | int n =>
      -- the digits that display an integer add up to it again
      obtain ⟨hwhole, hvalue⟩ := isWhole_display h.1 h.2
      have hint := Spells.int hwhole
      rwa [hvalue] at hint
    | double x =>
      -- a double is written so that its two parts add up to it
      obtain ⟨hwhole, hfraction, hshort, hvalue⟩ := h
      have hdouble := Spells.double hwhole hfraction hshort
      rwa [hvalue] at hdouble
    | string s => exact .string h
    | bool b => cases b <;> exact .reserved rfl
  | keyword k => cases k <;> exact .reserved rfl
  | identifier x => exact .name h
  | plus => exact .sign rfl
  | multiplicative op => cases op <;> exact .sign rfl
  | comparison op =>
    cases op with
    | less | greater => exact .sign rfl
    | _ => exact .pair rfl
  | unary op => cases op <;> exact .sign rfl
  | punctuation p => cases p <;> exact .sign rfl
  | orElse | conjunction | disjunction | arrow => exact .pair rfl

/-- All of the tokens have a spelling within the limits. -/
def AllWritable (limits : Limits) (decimals : Decimals) (ts : List Token) : Prop :=
  ∀ t ∈ ts, t.Writable limits decimals

variable {ts us : List Token}

@[simp] theorem allWritable_nil : AllWritable limits decimals [] := nofun

@[simp] theorem allWritable_cons {t : Token} :
    AllWritable limits decimals (t :: ts) ↔
      t.Writable limits decimals ∧ AllWritable limits decimals ts :=
  List.forall_mem_cons

@[simp] theorem allWritable_append :
    AllWritable limits decimals (ts ++ us) ↔
      AllWritable limits decimals ts ∧ AllWritable limits decimals us :=
  List.forall_mem_append

@[simp] theorem allWritable_enclosed :
    AllWritable limits decimals (enclosed ts) ↔ AllWritable limits decimals ts := by
  simp [enclosed, Token.Writable]

@[simp] theorem allWritable_braced :
    AllWritable limits decimals (braced ts) ↔ AllWritable limits decimals ts := by
  simp [braced, Token.Writable]

/-- What is put together from writable parts is writable. -/
theorem allWritable_flatMap {α : Type} {f : α → List Token} {l : List α}
    (h : ∀ x ∈ l, AllWritable limits decimals (f x)) :
    AllWritable limits decimals (l.flatMap f) := by
  intro t ht
  obtain ⟨x, hx, ht⟩ := List.mem_flatMap.mp ht
  exact h x hx t ht

/-- Every type is written with a word and at most one mark. -/
@[simp] theorem Ty.allWritable_tokens (t : Ty) : AllWritable limits decimals t.tokens := by
  unfold Ty.tokens
  cases t.base.word? <;> cases t.nullable <;> simp [Token.Writable]

theorem AdditiveOp.writable_token (op : AdditiveOp) : op.token.Writable limits decimals := by
  cases op <;> trivial

/-- Parentheses around an operand do no harm. -/
theorem Expr.allWritable_operand {e : Expr} (h : AllWritable limits decimals e.tokens) :
    AllWritable limits decimals e.operand := by
  unfold operand asOperand
  split
  · exact h
  · exact allWritable_enclosed.mpr h

/-- **Every token of a printable expression has a spelling.** -/
theorem Expr.Printable.allWritable {e : Expr} (h : e.Printable limits decimals) :
    AllWritable limits decimals e.tokens := by
  -- induction on what makes the expression printable; chains are written operand by operand
  induction h with
  | disjunction _ _ _ he hes | conjunction _ _ _ he hes =>
    rw [Expr.tokens, Expr.tokensBehind_eq]
    refine allWritable_append.mpr ⟨Expr.allWritable_operand he, allWritable_flatMap ?_⟩
    exact fun x hx => allWritable_cons.mpr ⟨trivial, Expr.allWritable_operand (hes x hx)⟩
  | comparison _ _ he hf | orElse _ _ he hf =>
    rw [Expr.tokens]
    refine allWritable_append.mpr ⟨Expr.allWritable_operand he, ?_⟩
    exact allWritable_cons.mpr ⟨trivial, Expr.allWritable_operand hf⟩
  | additive _ _ _ he hes =>
    rw [Expr.tokens, Expr.tokensOfSum_eq]
    refine allWritable_append.mpr ⟨Expr.allWritable_operand he, allWritable_flatMap ?_⟩
    exact fun x hx => allWritable_cons.mpr
      ⟨x.1.writable_token, Expr.allWritable_operand (hes x hx)⟩
  | multiplicative _ _ _ he hes =>
    rw [Expr.tokens, Expr.tokensOfProduct_eq]
    refine allWritable_append.mpr ⟨Expr.allWritable_operand he, allWritable_flatMap ?_⟩
    exact fun x hx => allWritable_cons.mpr ⟨trivial, Expr.allWritable_operand (hes x hx)⟩
  | @cast e t _ _ he =>
    rw [Expr.tokens]
    refine allWritable_append.mpr ⟨Expr.allWritable_operand he, ?_⟩
    exact allWritable_cons.mpr ⟨trivial, t.allWritable_tokens⟩
  | unary _ he =>
    rw [Expr.tokens]
    exact allWritable_cons.mpr ⟨trivial, Expr.allWritable_operand he⟩
  | literal hd => exact allWritable_cons.mpr ⟨hd, allWritable_nil⟩
  | identifier hx => exact allWritable_cons.mpr ⟨hx, allWritable_nil⟩
  | @call f es hf _ hes =>
    rw [Expr.tokens]
    refine allWritable_cons.mpr ⟨hf, allWritable_enclosed.mpr ?_⟩
    -- the first argument has no comma before it
    cases es with
    | nil => exact allWritable_nil
    | cons e es =>
      obtain ⟨he, hes⟩ := List.forall_mem_cons.mp hes
      rw [Expr.tokensOfArguments, Expr.tokensOfMoreArguments_eq]
      refine allWritable_append.mpr ⟨he, allWritable_flatMap ?_⟩
      exact fun x hx => allWritable_cons.mpr ⟨trivial, hes x hx⟩

/-- A block is writable if its statements are. -/
theorem Statement.allWritable_body {body : List Statement}
    (h : ∀ s ∈ body, AllWritable limits decimals s.tokens) :
    AllWritable limits decimals (tokensOfBody body) := by
  rw [tokensOfBody_eq]
  exact allWritable_flatMap h

/-- Every token of a printable statement has a spelling. -/
theorem Statement.Printable.allWritable {s : Statement} (h : s.Printable limits decimals) :
    AllWritable limits decimals s.tokens := by
  -- induction on what makes the statement printable, for its blocks
  induction h with
  | @branch c body otherwise hc _ _ _ _ hbody hother =>
    have hbody := Statement.allWritable_body hbody
    cases otherwise with
    | none =>
      rw [Statement.tokens]
      simp [Token.Writable, hc.allWritable, hbody]
    | some other =>
      have hother := Statement.allWritable_body (hother other rfl)
      rw [Statement.tokens]
      simp [Token.Writable, hc.allWritable, hbody, hother]
  | loop hc _ _ hbody =>
    rw [Statement.tokens]
    simp [Token.Writable, hc.allWritable, Statement.allWritable_body hbody]
  | @giveBack value he =>
    cases value with
    | none =>
      rw [Statement.tokens]
      simp [Token.Writable]
    | some e =>
      rw [Statement.tokens]
      simp [Token.Writable, (he e rfl).allWritable]
  | perform he =>
    rw [Statement.tokens]
    exact allWritable_enclosed.mpr he.allWritable
  | assign hx he =>
    rw [Statement.tokens, Expr.tokens]
    simp [Token.Writable, hx, he.allWritable]
  | @declare isConst x t value hx _ he =>
    cases value with
    | none =>
      rw [Statement.tokens]
      simp [Token.Writable, hx]
    | some e =>
      rw [Statement.tokens]
      simp [Token.Writable, hx, (he e rfl).allWritable]

/-- Every token of a printable function has a spelling. -/
theorem Function.Printable.allWritable {f : Function} (h : f.Printable limits decimals) :
    AllWritable limits decimals f.tokens := by
  -- the parts of the function in their order: parameters, result type and body
  have hparameter : ∀ p ∈ f.parameters, AllWritable limits decimals p.tokens := fun p hp => by
    simp [Parameter.tokens, Token.Writable, (h.parameters p hp).1]
  have hparameters : AllWritable limits decimals (tokensOfParameters f.parameters) := by
    cases hps : f.parameters with
    | nil => exact allWritable_nil
    | cons p ps =>
      rw [hps] at hparameter
      obtain ⟨hp, hps⟩ := List.forall_mem_cons.mp hparameter
      refine allWritable_append.mpr ⟨hp, allWritable_flatMap ?_⟩
      exact fun q hq => allWritable_cons.mpr ⟨trivial, hps q hq⟩
  have hresult : AllWritable limits decimals (tokensOfResult f.returns) := by
    unfold tokensOfResult
    split
    · exact allWritable_nil
    · simp [Token.Writable]
  have hbody := Statement.allWritable_body fun s hs => (h.body s hs).allWritable
  unfold Function.tokens
  simp [Token.Writable, h.name, hparameters, hresult, hbody]

/-- Every token of what can be printed has a spelling. -/
theorem Program.Printable.allWritable {items : List Item}
    (h : (programOf items).Printable limits decimals) :
    AllWritable limits decimals (items.flatMap Item.tokens) := by
  -- every part of the text is a statement or a function of the program
  refine allWritable_flatMap fun item hitem => ?_
  cases item with
  | statement s =>
    exact (h.statements s (List.mem_filterMap.mpr ⟨_, hitem, rfl⟩)).allWritable
  | function f =>
    exact (h.functions f (List.mem_filterMap.mpr ⟨_, hitem, rfl⟩)).allWritable

end

end NullScript
