import PTEditor.Translation

/-!
# Pages whose PTEs can be edited

A family of walks to PTEs, none of which stands in a slot through which a page of the family is
found.  Storing the PTEs then leaves the tables of all pages as they are, and every PTE holds
what is stored there.
-/

namespace PTEditor

open ByteMem

/-- Walks through tables of one memory, none of whose PTE slots is a slot of a table. -/
structure Walk.Separate {ι : Type} (walk : ι → Walk) (pages : List ι) (mem : ByteMem) : Prop where
  reads : ∀ page ∈ pages, (walk page).read = mem.read
  paged : ∀ page ∈ pages, (walk page).Paged
  aligned : ∀ page ∈ pages, (walk page).root.toNat % 4096 = 0
  apart : ∀ page ∈ pages, ∀ other ∈ pages, ∀ level, level ≠ .pte → level ≠ .p4d →
    (walk page).slot .pte ≠ (walk other).slot level

/-- A memory that differs from another at most in the PTEs of some pages. -/
def Walk.Settled {ι : Type} (walk : ι → Walk) (pages : List ι) (mem mem' : ByteMem) : Prop :=
  ∀ b, (∀ page ∈ pages, ¬ InWord ((walk page).slot .pte) b) → mem' b = mem b

section Pages

variable {ι : Type} {walk : ι → Walk} {pages : List ι} {mem mem' : ByteMem} {page : ι}

theorem Walk.Separate.aligned_slot (separate : Walk.Separate walk pages mem)
    (member : page ∈ pages) (level : Level) : Aligned ((walk page).slot level) := by
  have root : Aligned (walk page).root := by
    have aligned := separate.aligned page member
    unfold Aligned
    omega
  exact Walk.aligned_slot root level

/-- In a settled memory the tables of a page are as they were. -/
theorem Walk.Separate.sameTables (separate : Walk.Separate walk pages mem)
    (settled : Walk.Settled walk pages mem mem') (member : page ∈ pages) :
    (walk page).SameTables mem'.read := by
  intro level ne here
  have paged := separate.paged page member
  have notP4d := (Walk.exists_x86 paged.definition level).mp here
  rw [separate.reads page member]
  refine read_congr fun b inWord => settled b fun other inPages inPte => ?_
  exact apart_of_aligned (separate.aligned_slot inPages .pte) (separate.aligned_slot member level)
    (separate.apart other inPages page member level ne notP4d) b inPte inWord

/-- Storing the PTE of one of the pages leaves a memory settled. -/
theorem Walk.Settled.write (settled : Walk.Settled walk pages mem mem') (member : page ∈ pages)
    (value : Word) : Walk.Settled walk pages mem (mem'.write ((walk page).slot .pte) value) := by
  intro b outside
  rw [write_of_not_inWord _ _ (outside page member)]
  exact settled b outside

/-- Pages of four-level tables are separate if their entries and slots are. -/
theorem Walk.separate_of_all (reads : ∀ page, (walk page).read = mem.read)
    (arch : ∀ page, (walk page).arch = .x86_64)
    (definition : ∀ page, (walk page).definition = .x86_64)
    (roots : pages.all (fun page => decide
      ((walk page).root.toNat % 4096 = 0 ∧ (walk page).root ≠ 0)) = true)
    (entries : pages.all (fun page => Level.all.all fun level => decide (level ≠ .pte →
      PointsToTable ((walk page).entry level) ∧
        (hardwareFrame ((walk page).entry level)).toNat < 2 ^ 28)) = true)
    (slots : pages.all (fun page => pages.all fun other => Level.all.all fun level =>
      decide (level ≠ .pte → level ≠ .p4d →
        (walk page).slot .pte ≠ (walk other).slot level)) = true) :
    Walk.Separate walk pages mem := by
  simp only [List.all_eq_true, decide_eq_true_eq] at roots entries slots
  exact
    { reads := fun page _ => reads page
      paged := fun page member =>
        { arch := arch page
          definition := definition page
          root := (roots page member).2
          table := fun level ne => (entries page member level level.mem_all ne).1
          frame := fun level ne => (entries page member level level.mem_all ne).2 }
      aligned := fun page member => (roots page member).1
      apart := fun page member other member' level =>
        slots page member other member' level level.mem_all }

end Pages

end PTEditor
