import NullScript.Proofs.Accepted
import NullScript.Proofs.Reachable

/-!
# NullScript — declared functions

A program's functions are declared in the order of their names, whatever order the table has them
in. A function with the name of a built-in one is left out and noted, and all others can be found.

* `FunctionTable.byName_eq_of_perm` — the order of a table plays no part.
* `Session.register_fst` — what is noted.
* `Session.find?_register` — which function a name stands for.
* `Session.Reachable.free` — the name of a built-in function never stands for a declared one.
-/

namespace NullScript

-- ---------------------------------------------------------------------------
-- Tables without a name twice
-- ---------------------------------------------------------------------------

namespace FunctionTable

variable {table other : FunctionTable} {f : Function} {name : String}

/-- A function is found under its own name. -/
theorem mem_of_find? (h : table.find? name = some f) : f ∈ table ∧ f.name = name :=
  ⟨List.mem_of_find?_eq_some h, by simpa using List.find?_some h⟩

/-- In a table without a name twice, what is found is what is there. -/
theorem find?_eq_some_iff (hnodup : (table.map Function.name).Nodup) :
    table.find? name = some f ↔ f ∈ table ∧ f.name = name := by
  constructor
  · exact mem_of_find?
  · rintro ⟨hf, rfl⟩
    exact find?_of_mem hnodup hf

/-- Another order of the table makes no difference to what is found. -/
theorem find?_eq_of_perm (hnodup : (table.map Function.name).Nodup) (h : other.Perm table) :
    other.find? name = table.find? name := by
  refine Option.ext fun f => ?_
  have hother : (other.map Function.name).Nodup := (h.map _).nodup_iff.mpr hnodup
  rw [find?_eq_some_iff hother, find?_eq_some_iff hnodup, h.mem_iff]

theorem find?_cons (f : Function) (table : FunctionTable) (name : String) :
    FunctionTable.find? (f :: table) name =
      if f.name = name then some f else table.find? name := by
  unfold find?
  by_cases hname : f.name = name <;> simp [hname]

/-- A function that is put into the table is found, and all others as before. -/
theorem find?_put (f : Function) (table : FunctionTable) (name : String) :
    (table.put f).find? name = if f.name = name then some f else table.find? name := by
  rw [put, find?_cons]
  by_cases hname : f.name = name
  · rw [if_pos hname, if_pos hname]
  · rw [if_neg hname, if_neg hname, find?, List.find?_filter, find?]
    -- the functions that were dropped have another name
    congr 1
    funext g
    by_cases hg : g.name = name
    · simp [hg, Ne.symm hname]
    · simp [hg]

theorem perm_byName (table : FunctionTable) : table.byName.Perm table := List.mergeSort_perm _ _

/-- The functions are sorted by their names. -/
theorem pairwise_byName (table : FunctionTable) :
    table.byName.Pairwise fun f g => f.name ≤ g.name := by
  have hsorted : table.byName.Pairwise fun f g => decide (f.name ≤ g.name) = true := by
    refine List.pairwise_mergeSort ?_ ?_ table
    · intro f g h hfg hgh
      exact decide_eq_true (String.le_trans (of_decide_eq_true hfg) (of_decide_eq_true hgh))
    · intro f g
      simpa using String.le_total f.name g.name
  exact hsorted.imp of_decide_eq_true

/-- Two functions of one name are the same one. -/
theorem eq_of_name_eq (hnodup : (table.map Function.name).Nodup) {g : Function} (hf : f ∈ table)
    (hg : g ∈ table) (h : f.name = g.name) : f = g := by
  have hfound := find?_of_mem hnodup hf
  rw [h, find?_of_mem hnodup hg] at hfound
  exact (Option.some.inj hfound).symm

/-- **The order of a table plays no part**: its functions are declared in one order only. -/
theorem byName_eq_of_perm (hnodup : (table.map Function.name).Nodup) (h : other.Perm table) :
    other.byName = table.byName := by
  refine List.Perm.eq_of_pairwise ?_ (pairwise_byName other) (pairwise_byName table)
    ((perm_byName other).trans (h.trans (perm_byName table).symm))
  -- functions that are equal in order have one name, and so are the same one
  intro f g hf hg hfg hgf
  have hf' : f ∈ table := h.mem_iff.mp ((perm_byName other).mem_iff.mp hf)
  have hg' : g ∈ table := (perm_byName table).mem_iff.mp hg
  exact eq_of_name_eq hnodup hf' hg' (String.le_antisymm hfg hgf)

/-- No function of the table has the name of a built-in one. -/
def Free (table : FunctionTable) : Prop := ∀ f ∈ table, Builtin.find? f.name = none

end FunctionTable

-- ---------------------------------------------------------------------------
-- Declaring functions
-- ---------------------------------------------------------------------------

theorem Builtin.find?_name (b : Builtin) : Builtin.find? b.name = some b := by
  cases b <;> rfl

/-- Is this the name of a built-in function? -/
theorem Builtin.isSome_find? {name : String} :
    (Builtin.find? name).isSome ↔ ∃ b : Builtin, b.name = name := by
  constructor
  · intro h
    obtain ⟨b, hb⟩ := Option.isSome_iff_exists.mp h
    exact ⟨b, by simpa using List.find?_some hb⟩
  · rintro ⟨b, rfl⟩
    rw [Builtin.find?_name]
    rfl

namespace Session

variable {table : FunctionTable} {maxDepth : Nat}

/-- The functions that are left out, in order. -/
theorem register_fst (table : FunctionTable) (fs : List Function) :
    (register table fs).1 =
      ((fs.filter fun f => (Builtin.find? f.name).isSome).map Function.name).map
        .builtinRedefined := by
  -- induction on the functions in the order of declaration
  induction fs generalizing table with
  | nil => rfl
  | cons f fs ih =>
    rw [register]
    cases hname : Builtin.find? f.name with
    | some b =>
      rw [List.filter_cons_of_pos (by simp [hname])]
      exact congrArg (Failure.builtinRedefined f.name :: ·) (ih table)
    | none =>
      rw [List.filter_cons_of_neg (by simp [hname])]
      exact ih (table.put f)

/-- A name stands for the function that was declared last, unless that was left out. -/
theorem find?_register {fs : List Function} (hnodup : (fs.map Function.name).Nodup)
    (name : String) :
    FunctionTable.find? (register table fs).2 name =
      if (Builtin.find? name).isSome then table.find? name
      else (FunctionTable.find? fs name).or (table.find? name) := by
  -- induction on the functions in the order of declaration
  induction fs generalizing table with
  | nil => simp [register, FunctionTable.find?]
  | cons f fs ih =>
    obtain ⟨hf, hnodup⟩ := List.nodup_cons.mp hnodup
    rw [register, FunctionTable.find?_cons]
    cases hb : Builtin.find? f.name with
    -- the function is left out, as its name is that of a built-in one
    | some b =>
      refine Eq.trans (ih hnodup) ?_
      by_cases hname : f.name = name
      · subst hname
        simp [hb]
      · rw [if_neg hname]
    | none =>
      -- the function is put into the table, where a later one may take its place
      refine Eq.trans (ih hnodup) ?_
      rw [FunctionTable.find?_put]
      by_cases hname : f.name = name
      · subst hname
        -- no later function has the name
        have hlater : FunctionTable.find? fs f.name = none := by
          refine List.find?_eq_none.mpr fun g hg hname => hf ?_
          rw [← of_decide_eq_true hname]
          exact List.mem_map_of_mem hg
        simp [hb, hlater]
      · rw [if_neg hname, if_neg hname]

/-- Declaring functions lets no name of a built-in one into the table. -/
theorem free_register (h : table.Free) (fs : List Function) :
    FunctionTable.Free (register table fs).2 := by
  induction fs generalizing table with
  | nil => exact h
  | cons f fs ih =>
    rw [register]
    split
    · exact ih h
    · rename_i hname
      refine ih fun g hg => ?_
      rcases List.mem_cons.mp hg with rfl | hg
      · exact hname
      · exact h g (List.mem_filter.mp hg).1

/-- Between the calls of a session no declared function has the name of a built-in one. -/
theorem Idle.free {s : Session} (hs : s.Idle maxDepth) : s.functions.Free := by
  induction hs with
  | new streams => exact nofun
  | interpret _ h ih =>
    rw [(interpret_eq_some h).1]
    exact free_register ih _
  | evaluate _ _ ih => exact ih
  | execute _ _ ih => exact ih
  | executeBlock _ _ ih => exact ih

/-- **The name of a built-in function** never stands for a declared one. -/
theorem Reachable.free {s : Session} (hs : s.Reachable maxDepth) : s.functions.Free := by
  induction hs with
  | idle h => exact h.free
  | declared fs h => exact free_register h.free fs
  | evaluate _ _ ih => exact ih
  | execute _ _ ih => exact ih
  | executeBlock _ _ ih => exact ih
  | enterBlock _ ih => exact ih
  | enterCall _ _ _ _ _ ih => exact ih

end Session

end NullScript
