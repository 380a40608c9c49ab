import PTEditor.Library.PteSpec
import PTEditor.Translation

/-!
# The tables of a process

`System.tables` is the walk of a page, a pid with an address, through the tables whose root
GET_ROOT reports.  Whichever implementation is in use, as long as it gets at these tables
(`Serves`) the library resolves the page to the entries of the walk, and an update of the
PTE stores it in the slot of the walk.
-/

namespace PTEditor

open ByteMem

/-- The walk of a page through the tables of its process. -/
def System.tables (sys : System) (k : Kernel) (page : Pid × Word) : Walk :=
  { arch := .x86_64, definition := .x86_64, root := sys.pagingRoot k page.1, addr := page.2,
    read := k.mem.read }

/-- The library is attached to a 4-level x86_64 machine. -/
structure Drives (sys : System) (lib : Lib) (w : World) : Prop where
  attached : Attached sys lib w
  fourLevel : FourLevel sys.host
  definition : lib.pagingDefinition = .x86_64

/-- The implementation in use gets at the tables of a page. -/
inductive Serves (sys : System) (lib : Lib) (k : Kernel) (page : Pid × Word) : Prop
  | kernel (selected : lib.implementation = .kernel)
  | user (root : sys.userRoot lib k page.1 = sys.pagingRoot k page.1)
      (access : UserAccess sys lib (sys.tables k page).slots)

theorem Drives.withMem {sys : System} {lib : Lib} {w : World} (drives : Drives sys lib w)
    (mem : ByteMem) : Drives sys lib (w.withMem mem) :=
  ⟨drives.attached.withMem mem, drives.fourLevel, drives.definition⟩

/-! ## The descent of the kernel -/

namespace OnFourLevel

variable {kernel : KernelWalk} {user : Walk}

theorem entry_pud_of_leadsTo (both : OnFourLevel kernel user) {goal : Level}
    (leads : user.LeadsTo goal) (member : .p4d ∈ goal.upper) :
    kernel.entry .pud = user.entry .pud := by
  have table := leads.table .p4d member
  have pgd := both.entry_pgd
  rw [leads.entry_p4d, pgd] at table
  rw [both.kernel_pud table, leads.entry_eq_read (by decide), leads.slot_below member rfl,
    leads.entry_p4d, pgd, both.addr]

theorem entry_pmd_of_leadsTo (both : OnFourLevel kernel user) {goal : Level}
    (leads : user.LeadsTo goal) (member : .pud ∈ goal.upper) :
    kernel.entry .pmd = user.entry .pmd := by
  have higher : .p4d ∈ goal.upper :=
    Level.mem_upper.mpr (Nat.lt_trans (by decide) (Level.mem_upper.mp member))
  have pud := both.entry_pud_of_leadsTo leads higher
  rw [both.kernel_pmd (pud ▸ leads.table .pud member), leads.entry_eq_read (by decide),
    leads.slot_below member rfl, pud, both.addr]

/-- The pointer of the PTE points to the slot of the walk. -/
theorem ptePtr_of_paged (both : OnFourLevel kernel user) (paged : user.Paged) :
    ∃ pointer, kernel.ptePtr = some pointer ∧ kernel.host.virtToPhys pointer = user.slot .pte := by
  have pmd := both.entry_pmd_of_leadsTo paged.leadsTo (by decide)
  have table : PointsToTable (kernel.entry .pmd) := pmd ▸ paged.table .pmd (by decide)
  obtain ⟨slot, found, place⟩ :=
    both.fourLevel.pteOffset kernel.pmdPtr (kernel.entry .pmd) kernel.addr
  refine ⟨slot, found, ?_⟩
  rw [place table, paged.leadsTo.slot_below (by decide) rfl, pmd, both.addr]

/-- The kernel finds the entries of the walk. -/
theorem entry_of_paged (both : OnFourLevel kernel user) (paged : user.Paged) (level : Level) :
    kernel.entry level = user.entry level := by
  cases level with
  | pgd => exact both.entry_pgd.symm
  | p4d => rw [both.entry_p4d, paged.leadsTo.entry_p4d, both.entry_pgd]
  | pud => exact both.entry_pud_of_leadsTo paged.leadsTo (by decide)
  | pmd => exact both.entry_pmd_of_leadsTo paged.leadsTo (by decide)
  | pte =>
      obtain ⟨pointer, found, place⟩ := both.ptePtr_of_paged paged
      have pointed : kernel.pointer .pte = some pointer := found
      rw [KernelWalk.entry, pointed, paged.leadsTo.entry_eq_read (by decide), ← place]
      exact both.read pointer

theorem ne_zero_of_pointsToTable {entry : Word} (table : PointsToTable entry) : entry ≠ 0 := by
  rintro rfl
  exact absurd table.1 (by decide)

theorem not_large_of_pointsToTable {entry : Word} (table : PointsToTable entry) :
    ¬ (entry.getLsbD 0 = true ∧ entry.getLsbD 7 = true) := by
  rintro ⟨-, large⟩
  rw [table.2] at large
  cases large

/-- The kernel finds the PMD valid below two tables. -/
theorem valid_pmd_of_leadsTo (both : OnFourLevel kernel user) {goal : Level}
    (leads : user.LeadsTo goal) (member : .pud ∈ goal.upper) (present : user.entry .pmd ≠ 0) :
    kernel.Valid .pmd := by
  have higher : ∀ {level : Level}, level.rank < Level.pud.rank → level ∈ goal.upper :=
    fun above => Level.mem_upper.mpr (Nat.lt_trans above (Level.mem_upper.mp member))
  have pgd : PointsToTable (kernel.entry .pgd) :=
    both.entry_pgd ▸ leads.table .pgd (higher (by decide))
  have pud : PointsToTable (kernel.entry .pud) :=
    (both.entry_pud_of_leadsTo leads (higher (by decide))).symm ▸ leads.table .pud member
  rw [both.kernel_valid_pmd, both.kernel_valid_pud, both.entry_pmd_of_leadsTo leads member]
  exact ⟨⟨ne_zero_of_pointsToTable pgd, both.fourLevel.p4dBad _ pgd,
    ne_zero_of_pointsToTable pud⟩, present, not_large_of_pointsToTable pud⟩

/-- The kernel finds every level valid. -/
theorem valid_of_paged (both : OnFourLevel kernel user) (paged : user.Paged) (level : Level) :
    kernel.Valid level := by
  have table := paged.table .pmd (by decide)
  have pmd := both.valid_pmd_of_leadsTo paged.leadsTo (by decide) (ne_zero_of_pointsToTable table)
  have pte : kernel.Valid .pte := by
    rw [both.kernel_valid_pte, both.entry_of_paged paged .pmd]
    exact ⟨pmd, not_large_of_pointsToTable table⟩
  rcases eq_or_ne level .pte with rfl | ne
  · exact pte
  · exact pte.upper (Walk.mem_upper_pte ne)

end OnFourLevel

/-! ## Resolving and updating -/

section Runs

variable {sys : System} {lib : Lib} {w : World} {page : Pid × Word}

/-- A process with a root has an mm, in which the kernel descends as the walk does. -/
theorem exists_mm_of_root (fourLevel : FourLevel sys.host)
    (root : (sys.tables w.kernel page).root ≠ 0) :
    ∃ mm, sys.host.getMm (sizeOfInt page.1) = some mm ∧
      OnFourLevel (w.kernel.walk sys.host page.2 mm) (sys.tables w.kernel page) := by
  cases found : sys.host.getMm (sizeOfInt page.1) with
  | none =>
      refine absurd ?_ root
      exact (pagingRoot_of_unknown found).trans (if_pos fourLevel.arch)
  | some mm =>
      refine ⟨mm, rfl, fourLevel, rfl, rfl, rfl, ?_, fun _ => rfl⟩
      have root := pagingRoot_of_mm (k := w.kernel) found
      rw [System.rootOf, fourLevel.arch, if_neg (by simp)] at root
      exact root

/-- A user-space implementation that starts from the reported root makes the walk. -/
theorem userWalk_eq_tables (drives : Drives sys lib w)
    (root : sys.userRoot lib w.kernel page.1 = sys.pagingRoot w.kernel page.1) :
    sys.userWalk lib w.kernel page.2 page.1 = sys.tables w.kernel page := by
  have arch := drives.attached.arch.trans drives.fourLevel.arch
  rw [System.userWalk, System.walkOver, arch, drives.definition, root]
  rfl

/-- **Resolving a page finds the entries of its walk.** -/
theorem run_pteditResolve_paged (drives : Drives sys lib w)
    (serves : Serves sys lib w.kernel page) (paged : (sys.tables w.kernel page).Paged) :
    ∃ r, Prog.run (sysHandler sys) (pteditResolve lib page.2 page.1) w = some (r, w) ∧
      (∀ level, r.field level = (sys.tables w.kernel page).entry level) ∧
      ∀ level, level ≠ .p4d → r.Valid level := by
  cases serves with
  | kernel selected =>
      obtain ⟨mm, found, both⟩ := exists_mm_of_root drives.fourLevel paged.root
      refine ⟨sys.kernelEntry w.kernel page.2 page.1, ?_, fun level => ?_, fun level _ => ?_⟩
      · rw [pteditResolve, selected]
        exact run_pteditResolveKernel drives.attached page.2 page.1
      · have valid := both.valid_of_paged paged level
        exact (field_kernelEntry found level).trans
          ((if_pos valid).trans (both.entry_of_paged paged level))
      · exact (valid_kernelEntry found level).mpr (both.valid_of_paged paged level)
  | user root access =>
      have walk := userWalk_eq_tables drives root
      refine ⟨_, run_pteditResolve drives.attached (walk ▸ access), fun level => ?_,
        fun level ne => ?_⟩
      · rw [walk, Walk.field_resolved]
        refine if_pos ⟨paged.reached level, fun _ => ?_⟩
        exact ((paged.valid_iff .pgd).mpr (by decide)).2.2 rfl
      · rw [walk]
        exact (Walk.valid_resolved _ _ _).mpr ((paged.valid_iff level).mpr ne)

/-- **Resolving an address of a page of 2 MiB finds its PMD entry.** -/
theorem run_pteditResolve_largePaged (drives : Drives sys lib w)
    (serves : Serves sys lib w.kernel page) (paged : (sys.tables w.kernel page).LargePaged) :
    ∃ r, Prog.run (sysHandler sys) (pteditResolve lib page.2 page.1) w = some (r, w) ∧
      r.pmd = (sys.tables w.kernel page).entry .pmd := by
  have leads := paged.leadsTo
  have nonzero : (sys.tables w.kernel page).entry .pmd ≠ 0 := by
    intro zero
    have present := paged.maps.1
    rw [zero] at present
    exact absurd present (by decide)
  cases serves with
  | kernel selected =>
      obtain ⟨mm, found, both⟩ := exists_mm_of_root drives.fourLevel leads.root
      refine ⟨sys.kernelEntry w.kernel page.2 page.1, ?_, ?_⟩
      · rw [pteditResolve, selected]
        exact run_pteditResolveKernel drives.attached page.2 page.1
      · have valid := both.valid_pmd_of_leadsTo leads (by decide) nonzero
        exact (field_kernelEntry found .pmd).trans
          ((if_pos valid).trans (both.entry_pmd_of_leadsTo leads (by decide)))
  | user root access =>
      have walk := userWalk_eq_tables drives root
      have recorded : (sys.tables w.kernel page).Recorded .pmd := by
        refine ⟨⟨leads.root, fun up member => ?_, fun pte => by cases pte⟩, fun pgd => by cases pgd⟩
        rw [leads.arch, present_x86]
        exact (leads.table up member).1
      refine ⟨_, run_pteditResolve drives.attached (walk ▸ access), ?_⟩
      rw [walk]
      exact (Walk.field_resolved _ _ .pmd).trans (if_pos recorded)

/-- **An update of the PTE stores it in the slot of the walk.** -/
theorem run_pteditUpdate_paged (drives : Drives sys lib w)
    (serves : Serves sys lib w.kernel page) (paged : (sys.tables w.kernel page).Paged)
    {vm : PteditEntry} (only : vm.PteOnly) :
    Prog.run (sysHandler sys) (pteditUpdate lib page.2 page.1 vm) w =
      some ((), w.withMem (w.kernel.mem.write ((sys.tables w.kernel page).slot .pte) vm.pte)) := by
  cases serves with
  | kernel selected =>
      obtain ⟨mm, found, both⟩ := exists_mm_of_root drives.fourLevel paged.root
      obtain ⟨pointer, here, place⟩ := both.ptePtr_of_paged paged
      have stores := @kernelStores_of_pteOnly sys.host w.kernel mm pointer
        { vm with vaddr := page.2, pid := sizeOfInt page.1 } found
        (both.valid_of_paged paged .pte) here only
      have place : sys.host.virtToPhys pointer = (sys.tables w.kernel page).slot .pte := place
      rw [pteditUpdate, selected]
      dsimp only
      rw [run_pteditUpdateKernel drives.attached, stores, place]
      rfl
  | user root access =>
      have walk := userWalk_eq_tables drives root
      have fits : lib.pagingDefinition.Fits := drives.definition ▸ PteditPagingDefinition.x86_64_fits
      rw [run_pteditUpdate_pteOnly drives.attached fits (walk ▸ access)
        (walk ▸ paged.valid_pte) only, walk]

/-- **An edit of the PTE edits the word in the slot of the walk.** -/
theorem run_pteditPteEdit_paged (drives : Drives sys lib w)
    (serves : Serves sys lib w.kernel page) (paged : (sys.tables w.kernel page).Paged)
    (edit : Word → Word) :
    Prog.run (sysHandler sys) (pteditPteEdit lib page.2 page.1 edit) w =
      some ((), w.withMem (w.kernel.mem.write ((sys.tables w.kernel page).slot .pte)
        (edit (w.kernel.mem.read ((sys.tables w.kernel page).slot .pte))))) := by
  obtain ⟨r, resolves, fields, valid⟩ := run_pteditResolve_paged drives serves paged
  have pte : r.pte = w.kernel.mem.read ((sys.tables w.kernel page).slot .pte) :=
    (fields .pte).trans (paged.leadsTo.entry_eq_read (by decide))
  rw [pteditPteEdit, Prog.run_bind_of_some resolves, if_neg (not_not.mpr (valid .pte (by decide))),
    ← pte]
  exact run_pteditUpdate_paged drives serves paged (PteditEntry.pteOnly_of_valid rfl)

end Runs

end PTEditor
