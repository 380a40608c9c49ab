import Mathlib.Data.List.Basic

/-!
# Walks of a radix tree

A multi-level table maps a key to an entry by descending one level at a time:
the table of a level and the key's index at that level name a slot, the entry in
the slot names the table of the next level or ends the descent.  `Radix` is the
shape of such a tree for one key and `Radix.walk` the list of visits that a descent
makes in a memory; `Radix.walk_congr_radix` and
`Radix.walk_congr_read` compare the walks of two trees and in two memories.
-/

/-- A radix tree as seen by one key: where a level's slot lies in a table, and
which table an entry of a level names. -/
structure Radix (Lvl Table Slot Entry : Type) where
  slot : Lvl → Table → Slot
  next : Lvl → Entry → Option Table

namespace Radix

/-- One step of a walk: the slot read at a level and the entry found in it. -/
structure Visit (Lvl Slot Entry : Type) where
  level : Lvl
  slot : Slot
  entry : Entry
  deriving DecidableEq

variable {Lvl Table Slot Entry : Type}

/-- Descend through `levels` from a table until an entry names no further table. -/
def walk (R : Radix Lvl Table Slot Entry) (read : Slot → Entry) :
    List Lvl → Table → List (Visit Lvl Slot Entry)
  | [], _ => []
  | level :: levels, table =>
      ⟨level, R.slot level table, read (R.slot level table)⟩ ::
        (R.next level (read (R.slot level table))).elim [] (R.walk read levels)

variable {R : Radix Lvl Table Slot Entry} {read : Slot → Entry} {levels : List Lvl}
  {table : Table}

theorem walk_cons (level : Lvl) :
    R.walk read (level :: levels) table =
      ⟨level, R.slot level table, read (R.slot level table)⟩ ::
        (R.next level (read (R.slot level table))).elim [] (R.walk read levels) := rfl

/-- Membership in the part of a walk below one entry. -/
theorem mem_elim_walk {found : Option Table} {visit : Visit Lvl Slot Entry} :
    visit ∈ found.elim [] (R.walk read levels) ↔
      ∃ table, found = some table ∧ visit ∈ R.walk read levels table := by
  cases found <;> simp

/-- Two trees with the same slots that name the same next table at every visited
entry are walked the same way. -/
theorem walk_congr_radix {R' : Radix Lvl Table Slot Entry}
    (slots : ∀ level table, R'.slot level table = R.slot level table)
    (agree : ∀ visit ∈ R.walk read levels table,
      R'.next visit.level visit.entry = R.next visit.level visit.entry) :
    R'.walk read levels table = R.walk read levels table := by
  induction levels generalizing table with
  | nil => rfl
  | cons level levels ih =>
      rw [walk_cons, List.forall_mem_cons] at agree
      rw [walk_cons, walk_cons, slots, agree.1]
      cases found : R.next level (read (R.slot level table)) with
      | none => rfl
      | some next =>
          rw [found] at agree
          exact congrArg _ (ih agree.2)

/-- A memory with the same entries in the visited slots is walked the same way. -/
theorem walk_congr_read {read' : Slot → Entry}
    (agree : ∀ visit ∈ R.walk read levels table, read' visit.slot = read visit.slot) :
    R.walk read' levels table = R.walk read levels table := by
  induction levels generalizing table with
  | nil => rfl
  | cons level levels ih =>
      rw [walk_cons, List.forall_mem_cons] at agree
      rw [walk_cons, walk_cons, agree.1]
      cases found : R.next level (read (R.slot level table)) with
      | none => rfl
      | some next =>
          rw [found] at agree
          exact congrArg _ (ih agree.2)

/-- A visit finds what its slot holds. -/
theorem entry_of_mem_walk {visit : Visit Lvl Slot Entry}
    (member : visit ∈ R.walk read levels table) : visit.entry = read visit.slot := by
  induction levels generalizing table with
  | nil => cases member
  | cons level levels ih =>
      rw [walk_cons] at member
      rcases List.mem_cons.mp member with rfl | later
      · rfl
      · obtain ⟨next, -, member⟩ := mem_elim_walk.mp later
        exact ih member

/-- What holds of the slots of every table that a descent can come to holds of the visited
slots. -/
theorem forall_slot_walk {P : Slot → Prop} (first : ∀ level, P (R.slot level table))
    (below : ∀ up entry next, R.next up entry = some next → ∀ level, P (R.slot level next)) :
    ∀ visit ∈ R.walk read levels table, P visit.slot := by
  induction levels generalizing table with
  | nil => nofun
  | cons level levels ih =>
      rw [walk_cons, List.forall_mem_cons]
      refine ⟨first level, fun visit member => ?_⟩
      obtain ⟨next, named, member⟩ := mem_elim_walk.mp member
      exact ih (below _ _ _ named) visit member

end Radix
