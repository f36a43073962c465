import Mathlib.Data.List.Induction
import NullScript.Proofs.Arena

/-!
# NullScript — lexical scopes

Scopes are opened, filled, written to and closed in any order. After all of it a name stands for
the nearest variable that the text around would give it: that of a block around, up to the call,
or a global one. A scope that is closed leaves behind what was there when it was opened, except for
the values that were stored in between.

* `Scopes.lexical` — the operations on scopes, one by one.
* `ScopeOp.arena_pop_between` — what is left when a scope is closed again.
* `scopes_are_lexical` — both, after every sequence of operations.
-/

namespace NullScript

/-- An operation on scopes. -/
inductive ScopeOp where
  | pushBlock
  | pushCall (parameters : List Variable)
  /-- A declaration that is not allowed leaves the scopes as they are. -/
  | declare (x : Variable)
  | set (name : String) (value : Value)
  | pop

/-- Does the operation open a scope? -/
def ScopeOp.Opens : ScopeOp → Prop
  | .pushBlock | .pushCall _ => True
  | .declare _ | .set .. | .pop => False

namespace Scopes

/-- The scopes after an operation. -/
def apply (s : Scopes) : ScopeOp → Scopes
  | .pushBlock => s.pushBlock
  | .pushCall parameters => s.pushCall parameters
  | .declare x =>
    match s.declare x with
    | .ok t => t
    | .error _ => s
  | .set name value => s.set name value
  | .pop => s.pop

/-- The scopes after operations one after the other. -/
def run (s : Scopes) (ops : List ScopeOp) : Scopes := ops.foldl apply s

theorem run_append (s : Scopes) (ops ops' : List ScopeOp) :
    s.run (ops ++ ops') = (s.run ops).run ops' :=
  List.foldl_append

-- ---------------------------------------------------------------------------
-- One operation
-- ---------------------------------------------------------------------------

/-- The scopes in which a name is looked for, one after the other: those of the blocks around, up
to and including the first one of a call, and then the global one. -/
def visible (s : Scopes) : List Variables :=
  (s.inner.takeWhile (·.kind = .block)).map Scope.bindings ++
    (s.inner.find? (·.kind = .call)).toList.map Scope.bindings ++ [s.globals]

/-- Scopes keep to the rules of lexical environments. -/
structure Lexical (s : Scopes) : Prop where
  /-- A search along the parents ends, and nowhere else than in the scope of `home?`. -/
  resolves : ∀ name result,
    s.arena.Resolves name (some (s.depth - 1)) result ↔ result = s.home? name
  /-- What a name stands for is the variable there. -/
  found : ∀ name, s.get? name = (s.home? name).bind fun i => s.arena.lookup? i name
  /-- It is the first one of the name in the visible scopes. -/
  nearest : ∀ name, s.get? name = s.visible.findSome? fun vs => vs.get? name
  /-- Storing changes the value of this variable, and nothing else. -/
  set : ∀ name value, (s.set name value).arena.map Prod.fst = s.arena.map Prod.fst ∧
    ∀ i other, (s.set name value).arena.lookup? i other =
      if s.home? name = some i ∧ other = name then
        (s.arena.lookup? i other).map fun x => { x with value }
      else s.arena.lookup? i other
  /-- A declaration fails for a name that the innermost scope holds. -/
  duplicate : ∀ x, (s.arena.lookup? (s.depth - 1) x.name).isSome →
    s.declare x = .error (.duplicateVariable x.name)
  /-- For any other name the innermost scope gets one more variable, and nothing else changes. -/
  declare : ∀ x, s.arena.lookup? (s.depth - 1) x.name = none →
    ∃ t, s.declare x = .ok t ∧ t.arena.map Prod.fst = s.arena.map Prod.fst ∧
      ∀ i other, t.arena.lookup? i other =
        if i = s.depth - 1 ∧ other = x.name then some x else s.arena.lookup? i other
  /-- The parent of a block is the innermost scope. -/
  pushBlock : s.pushBlock.arena = s.arena ++ [(some (s.depth - 1), [])]
  /-- That of a call is the global scope. -/
  pushCall : ∀ parameters,
    (s.pushCall parameters).arena = s.arena ++ [(some 0, Variables.ofList parameters)]

/-- What a name stands for is found in the visible scopes, one after the other. -/
theorem getInner?_or_eq_findSome? (globals : Variables) (name : String) (scopes : List Scope) :
    (getInner? name scopes).or (globals.get? name) =
      (visible ⟨scopes, globals⟩).findSome? fun vs => vs.get? name := by
  induction scopes with
  | nil =>
    show globals.get? name = List.findSome? _ [globals]
    cases h : globals.get? name <;> simp [h]
  | cons scope outer ih =>
    unfold getInner?
    unfold visible at ih ⊢
    cases hkind : scope.kind with
    | block =>
      -- a block is visible, and so is whatever is visible behind it
      rw [List.takeWhile_cons_of_pos (by simp [hkind]), List.find?_cons_of_neg (by simp [hkind]),
        List.map_cons, List.cons_append, List.cons_append, List.findSome?_cons]
      cases h : scope.bindings.get? name with
      | some x => rfl
      | none => exact ih
    | call =>
      -- a call is the last one of the inner scopes that is visible, and the global scope follows
      rw [List.takeWhile_cons_of_neg (by simp [hkind]), List.find?_cons_of_pos (by simp [hkind])]
      show _ = List.findSome? _ [scope.bindings, globals]
      rw [List.findSome?_cons]
      cases h : scope.bindings.get? name with
      | some x => rfl
      | none => cases h : globals.get? name <;> simp [h]

/-- **The operations on scopes** are those on lexical environments. -/
theorem lexical (s : Scopes) : s.Lexical where
  resolves name result :=
    ⟨fun h => h.eq (s.resolves_home name), fun h => h ▸ s.resolves_home name⟩
  found := s.get?_eq_lookup?
  nearest name := getInner?_or_eq_findSome? s.globals name s.inner
  set name value := ⟨s.map_fst_arena_set name value, s.lookup?_set name value⟩
  duplicate x h := by
    rw [Scopes.declare, declares_eq_isSome, if_pos h]
  declare x h := by
    -- a scope that does not hold the name has room for it
    have hfree : s.declares x.name = false := by
      rw [declares_eq_isSome, h]
      rfl
    obtain ⟨t, ht⟩ := exists_declare hfree
    have hlast : s.depth - 1 < s.arena.length := by
      rw [length_arena]
      exact Nat.sub_one_lt (Nat.succ_ne_zero _)
    refine ⟨t, ht, ?_, fun i other => ?_⟩
    · rw [arena_declare ht]
      exact Arena.map_fst_modify _ _ _
    · rw [arena_declare ht, Arena.lookup?_add _ _ _ _ _ hlast]
      simp only [eq_comm]
  pushBlock := s.arena_pushBlock
  pushCall := s.arena_pushCall

-- ---------------------------------------------------------------------------
-- From opening a scope to closing it
-- ---------------------------------------------------------------------------

/-- More than `n` scopes are open all the time. -/
def Stays (n : Nat) (s : Scopes) : List ScopeOp → Prop
  | [] => n < s.depth
  | op :: ops => n < s.depth ∧ (s.apply op).Stays n ops

/-- What an operation stores: the number of the scope that it stores in, the name and the value. -/
def stores (s : Scopes) : ScopeOp → Option (Nat × String × Value)
  | .set name value => (s.home? name).map fun i => (i, name, value)
  | .pushBlock | .pushCall _ | .declare _ | .pop => none

/-- What operations store one after the other. -/
def stored (s : Scopes) : List ScopeOp → List (Nat × String × Value)
  | [] => []
  | op :: ops => (s.stores op).toList ++ (s.apply op).stored ops

/-- The scopes with values stored in them one after the other. What is stored in a scope that is not
there is lost. -/
def restore (a : Arena) (writes : List (Nat × String × Value)) : Arena :=
  writes.foldl (fun a w => a.write w.1 w.2.1 w.2.2) a

/-- Scopes that stay open are open at first. -/
theorem lt_depth_of_stays {n : Nat} {s : Scopes} {ops : List ScopeOp} (h : s.Stays n ops) :
    n < s.depth := by
  cases ops with
  | nil => exact h
  | cons op ops => exact h.1

/-- What is stored in a scope further outside is stored in that part of the scopes. -/
theorem take_write (a : Arena) (n i : Nat) (name : String) (value : Value) :
    (a.write i name value).take n = Arena.write (a.take n) i name value := by
  unfold Arena.write
  exact List.take_modify _ _ _ _

/-- **One operation**, seen from the scopes further outside: it changes nothing there, unless it
stores a value. -/
theorem take_arena_apply {n : Nat} {s : Scopes} (op : ScopeOp) (h : n < s.depth)
    (h' : n < (s.apply op).depth) :
    (s.apply op).arena.take n = restore (s.arena.take n) (s.stores op).toList := by
  have hlength : n ≤ s.arena.length := by
    rw [length_arena]
    exact Nat.le_of_lt h
  -- only `set` may reach the scopes further outside: the others work at the innermost one
  cases op with
  | pushBlock =>
    show s.pushBlock.arena.take n = s.arena.take n
    rw [arena_pushBlock, List.take_append_of_le_length hlength]
  | pushCall parameters =>
    show (s.pushCall parameters).arena.take n = s.arena.take n
    rw [arena_pushCall, List.take_append_of_le_length hlength]
  | declare x =>
    show (s.apply (.declare x)).arena.take n = s.arena.take n
    cases hdeclare : s.declare x with
    | ok t =>
      have hshort : (s.arena.take n).length ≤ s.depth - 1 := by
        rw [List.length_take]
        omega
      simp only [apply, hdeclare]
      -- the innermost scope is not among the first `n`
      rw [arena_declare hdeclare, Arena.add, List.take_modify, List.modify_eq_self hshort]
    | error e => simp only [apply, hdeclare]
  | set name value =>
    show (s.set name value).arena.take n =
      restore (s.arena.take n) ((s.home? name).map fun i => (i, name, value)).toList
    rw [arena_set]
    cases s.home? name with
    | some i => exact take_write _ _ _ _ _
    | none => rfl
  | pop =>
    show s.pop.arena.take n = s.arena.take n
    have hpop : n < s.pop.arena.length := by
      rw [length_arena]
      exact h'
    rw [arena_pop, List.length_take] at hpop
    -- a scope is closed, but more than `n` are left
    rw [arena_pop, List.take_take, Nat.min_eq_left (by omega)]

/-- **Many operations**, seen from the scopes that stay open all the time. -/
theorem take_arena_run {n : Nat} {s : Scopes} {ops : List ScopeOp} (h : s.Stays n ops) :
    (s.run ops).arena.take n = restore (s.arena.take n) (s.stored ops) := by
  induction ops generalizing s with
  | nil => rfl
  | cons op ops ih =>
    show ((s.apply op).run ops).arena.take n = _
    -- what the first operation stores is stored before what the others do
    rw [ih h.2, take_arena_apply op h.1 (lt_depth_of_stays h.2), stored, restore, restore, restore,
      List.foldl_append]

/-- An operation opens one scope at most, and only to do this. -/
theorem depth_apply_le (s : Scopes) (op : ScopeOp) :
    (s.apply op).depth ≤ s.depth ∨ op.Opens ∧ (s.apply op).depth = s.depth + 1 := by
  cases op with
  | pushBlock => exact .inr ⟨trivial, rfl⟩
  | pushCall parameters => exact .inr ⟨trivial, rfl⟩
  | declare x =>
    left
    cases hdeclare : s.declare x with
    | ok t =>
      have hlength : t.arena.length = s.arena.length := by
        rw [arena_declare hdeclare, Arena.add, List.length_modify]
      simp only [apply, hdeclare]
      rw [length_arena, length_arena] at hlength
      exact Nat.le_of_eq hlength
    | error e =>
      simp only [apply, hdeclare]
      exact Nat.le_refl _
  | set name value =>
    left
    show (s.set name value).depth ≤ s.depth
    rw [← length_arena, ← length_arena, arena_set]
    cases s.home? name with
    | some i => exact Nat.le_of_eq (List.length_modify _ _ _)
    | none => exact Nat.le_refl _
  | pop =>
    left
    show s.pop.depth ≤ s.depth
    rw [depth, depth, pop, List.length_tail]
    omega

theorem stays_append {n : Nat} {s : Scopes} {ops : List ScopeOp} {op : ScopeOp}
    (h : s.Stays n ops) (hop : n < (s.run (ops ++ [op])).depth) : s.Stays n (ops ++ [op]) := by
  induction ops generalizing s with
  | nil => exact ⟨h, hop⟩
  | cons first ops ih => exact ⟨h.1, ih h.2 hop⟩

/-- **Every open scope was opened.** Behind the operation that opened it, it stays open. -/
theorem exists_opening {n : Nat} (s : Scopes) (ops : List ScopeOp) (hs : s.depth ≤ n)
    (h : n < (s.run ops).depth) :
    ∃ before op between, ops = before ++ op :: between ∧ op.Opens ∧ (s.run before).depth = n ∧
      ((s.run before).apply op).Stays n between := by
  -- the last operation either opened the scope, or it was open before
  induction ops using List.reverseRecOn with
  | nil => exact absurd h (Nat.not_lt.mpr hs)
  | append_singleton ops op ih =>
    have hlast : s.run (ops ++ [op]) = (s.run ops).apply op := s.run_append ops [op]
    rcases Nat.lt_or_ge n (s.run ops).depth with hlt | hge
    · -- the scope was open before, so it was opened by one of the operations before
      obtain ⟨before, push, between, rfl, hopens, hdepth, hstays⟩ := ih hlt
      refine ⟨before, push, between ++ [op], by simp, hopens, hdepth, stays_append hstays ?_⟩
      have hrun : ((s.run before).apply push).run (between ++ [op]) =
          s.run ((before ++ push :: between) ++ [op]) := by
        rw [List.append_assoc, run_append s before]
        rfl
      rw [hrun]
      exact h
    · rw [hlast] at h
      rcases depth_apply_le (s.run ops) op with hle | ⟨hopens, hdepth⟩
      · omega
      · exact ⟨ops, op, [], rfl, hopens, by omega, h⟩

/-- Closing the scope that an operation has opened. -/
theorem arena_pop_between {s : Scopes} {op : ScopeOp} {between : List ScopeOp} (hopens : op.Opens)
    (hstays : (s.apply op).Stays s.depth between)
    (hdepth : ((s.apply op).run between).depth = s.depth + 1) :
    ((s.apply op).run between).pop.arena = restore s.arena ((s.apply op).stored between) := by
  -- behind the opened scope, the others are what they were
  have hopened : (s.apply op).arena.take s.depth = s.arena := by
    cases op with
    | pushBlock => exact List.take_left' (length_arena s)
    | pushCall parameters => exact List.take_left' (length_arena s)
    | declare x => exact hopens.elim
    | set name value => exact hopens.elim
    | pop => exact hopens.elim
  have hpos : max 1 s.depth = s.depth := Nat.max_eq_right (Nat.succ_pos _)
  rw [arena_pop, hdepth, Nat.add_sub_cancel, hpos, take_arena_run hstays, hopened]

/-- Behind the operations the innermost scope is one that was opened by one of them and has been
open since. If it is closed, what is left is what was there before it was opened, with the values
that were stored in between. -/
def Closes (s : Scopes) (ops : List ScopeOp) : Prop :=
  ∃ before op between, ops = before ++ op :: between ∧ op.Opens ∧
    (s.run before).depth + 1 = (s.run ops).depth ∧
    ((s.run before).apply op).Stays (s.run before).depth between ∧
    (s.run (ops ++ [.pop])).arena =
      restore (s.run before).arena (((s.run before).apply op).stored between)

end Scopes

/-- **Scopes are lexical environments**, after all operations on them in any order. -/
theorem scopes_are_lexical (ops : List ScopeOp) :
    (Scopes.empty.run ops).Lexical ∧
      (1 < (Scopes.empty.run ops).depth → Scopes.empty.Closes ops) := by
  refine ⟨Scopes.lexical _, fun h => ?_⟩
  -- the innermost scope is the one that is looked for
  obtain ⟨before, op, between, rfl, hopens, hdepth, hstays⟩ :=
    Scopes.exists_opening (n := (Scopes.empty.run ops).depth - 1) .empty ops (by
      show 1 ≤ _
      omega) (by omega)
  have hrun : Scopes.empty.run (before ++ op :: between) =
      ((Scopes.empty.run before).apply op).run between := Scopes.run_append _ _ _
  have hpop : Scopes.empty.run ((before ++ op :: between) ++ [.pop]) =
      (((Scopes.empty.run before).apply op).run between).pop := by
    rw [Scopes.run_append, hrun]
    rfl
  rw [← hdepth] at hstays
  refine ⟨before, op, between, rfl, hopens, by omega, hstays, ?_⟩
  rw [hpop]
  refine Scopes.arena_pop_between hopens hstays ?_
  rw [← hrun]
  omega

/-- A global variable is written to in a block, shadowed there, and seen by a call. -/
def ScopeOp.shadowing : List ScopeOp :=
  [.declare ⟨"x", .int, false, .int 1⟩, .pushBlock, .set "x" (.int 2),
    .declare ⟨"x", .int, false, .int 3⟩, .set "x" (.int 4), .pushCall []]

/-- The value that was stored in the block reaches the global variable, and the call sees it. -/
theorem scopes_are_lexical_shadowing :
    (Scopes.empty.run ScopeOp.shadowing).get? "x" = some ⟨"x", .int, false, .int 2⟩ ∧
      1 < (Scopes.empty.run ScopeOp.shadowing).depth ∧
      Scopes.empty.Closes ScopeOp.shadowing :=
  ⟨by decide +kernel, by decide +kernel,
    (scopes_are_lexical ScopeOp.shadowing).2 (by decide +kernel)⟩

end NullScript
