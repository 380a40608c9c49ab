import PTEditor.Library.Slots

/-!
# Large pages at the PUD level

The architecture allows an entry to map a large page at the PUD and at the PMD.
`ptedit_resolve_user_ext` tests the size bit of the PMD entry only, so it takes the
data of a 1 GiB page for a table of PMD entries: `resolveUser_enters_largePud` says
that it always does.
-/

namespace PTEditor

open ByteMem

/-- The walk has come to a PUD entry that maps a 1 GiB page. -/
structure MapsLargePud (walk : Walk) : Prop where
  root : walk.root ≠ 0
  pgd : (walk.read (walk.slot .pgd)).getLsbD 0 = true
  pud : (walk.read (walk.slot .pud)).getLsbD 0 = true
  large : (walk.read (walk.slot .pud)).getLsbD 7 = true

/-- Resolving and updating treat a PUD entry that maps a large page as a leaf: nothing
below it is reported, read or written. -/
structure SparesLargePud (sys : System) (lib : Lib) (w : World) (address : Word) (pid : Pid) :
    Prop where
  reported : ∀ r w', Prog.run (sysHandler sys) (pteditResolve lib address pid) w = some (r, w') →
    ¬ r.Valid .pmd ∧ ¬ r.Valid .pte
  read : ∀ a ∈ (pteditWalk lib.arch lib.pagingDefinition address
      (sys.userRoot lib w.kernel pid) pid).queries w.kernel.mem.read,
    a = (sys.userWalk lib w.kernel address pid).slot .pgd ∨
      a = (sys.userWalk lib w.kernel address pid).slot .pud
  written : ∀ vm w', Prog.run (sysHandler sys) (pteditUpdate lib address pid vm) w =
      some ((), w') → ∀ b,
    ¬ InWord ((sys.userWalk lib w.kernel address pid).slot .pgd) b →
    ¬ InWord ((sys.userWalk lib w.kernel address pid).slot .pud) b →
      w'.kernel.mem b = w.kernel.mem b

/-- Below a large PUD entry the walk goes on to the PMD. -/
theorem MapsLargePud.valid_pmd {walk : Walk} (x86 : walk.arch = .x86_64)
    (definition : walk.definition = .x86_64) (maps : MapsLargePud walk) : walk.Valid .pmd := by
  have pudHere : walk.Exists .pud := .inr (.inr (by rw [definition]; decide))
  have pmdHere : walk.Exists .pmd := .inr (.inr (by rw [definition]; decide))
  have pgd : Present walk.arch (walk.entry .pgd) := by
    rw [x86, present_x86]
    exact maps.pgd
  have p4d : Present walk.arch (walk.entry .p4d) := by
    have folded : ¬ walk.Exists .p4d := by
      simp [Walk.Exists, definition, PteditPagingDefinition.has, PteditPagingDefinition.x86_64]
    rw [walk.entry_of_not_exists folded rfl]
    exact pgd
  have pud : Present walk.arch (walk.entry .pud) := by
    rw [x86, present_x86, walk.entry_of_exists pudHere]
    exact maps.pud
  exact ⟨pmdHere, ⟨maps.root, by simpa [Level.upper] using ⟨pgd, p4d, pud⟩,
    fun same => absurd same (by decide)⟩, fun same => absurd same (by decide)⟩

/-- An entry structure that selects the PMD alone. -/
def pmdOnly (value : Word) : PteditEntry :=
  { PteditEntry.cleared 0 0 with pmd := value, valid := Level.pmd.validMask }

/-- **Below a 1 GiB page the walker reads, reports and writes a PMD entry.** -/
theorem resolveUser_enters_largePud
    {sys : System} {lib : Lib} {w : World} {address : Word} {pid : Pid}
    (attached : Attached sys lib w) (x86 : lib.arch = .x86_64)
    (definition : lib.pagingDefinition = .x86_64)
    (access : UserAccess sys lib (sys.userWalk lib w.kernel address pid).slots)
    (maps : MapsLargePud (sys.userWalk lib w.kernel address pid)) :
    ¬ SparesLargePud sys lib w address pid ∧
    (∃ r, Prog.run (sysHandler sys) (pteditResolve lib address pid) w = some (r, w) ∧
      r.Valid .pmd) ∧
    (sys.userWalk lib w.kernel address pid).slot .pmd ∈ (pteditWalk lib.arch lib.pagingDefinition
      address (sys.userRoot lib w.kernel pid) pid).queries w.kernel.mem.read ∧
    ∀ value, Prog.run (sysHandler sys) (pteditUpdate lib address pid (pmdOnly value)) w =
      some ((), w.withMem (w.kernel.mem.write
        ((sys.userWalk lib w.kernel address pid).slot .pmd) value)) := by
  have valid := maps.valid_pmd x86 definition
  have resolves := run_pteditResolve attached access
  have reported := ((sys.userWalk lib w.kernel address pid).valid_resolved (sizeOfInt pid) .pmd).mpr
    valid
  have fits : (sys.userWalk lib w.kernel address pid).definition.Fits := by
    change lib.pagingDefinition.Fits
    rw [definition]
    exact PteditPagingDefinition.x86_64_fits
  have member := (sys.userWalk lib w.kernel address pid).mem_slots.mpr
    ⟨.pmd, valid.1, valid.2.1, rfl⟩
  refine ⟨fun spares => (spares.reported _ _ resolves).1 reported, ⟨_, resolves, reported⟩, ?_, ?_⟩
  · have asked := (sys.userWalk lib w.kernel address pid).queries_pteditWalk pid
    exact asked ▸ member
  · intro value
    -- of the five stores only the one of the PMD is selected
    have only : ∀ level, (pmdOnly value).Valid level ↔ level = .pmd := by
      intro level
      cases level <;> simp [pmdOnly, PteditEntry.Valid, Level.validMask, Level.rank]
    have has : (sys.userWalk lib w.kernel address pid).definition.has .pmd ≠ 0 := by
      change lib.pagingDefinition.has .pmd ≠ 0
      rw [definition]
      decide
    have stores : (sys.userWalk lib w.kernel address pid).stores (pmdOnly value) =
        [((sys.userWalk lib w.kernel address pid).slot .pmd, value)] := by
      rw [Walk.stores_of_only only]
      exact if_pos ⟨(only .pmd).mpr rfl, valid, .inr has⟩
    rw [run_pteditUpdate_stores attached fits access, stores]
    rfl

/-- The sample machine with a 1 GiB page at address 0. -/
def largePudMem : ByteMem :=
  ByteMem.writeAll (fun _ => 0)
    [(0x1000, 0x2003), (0x2000, 0x40000083), (0x40000000, 0x1122334455667788)]

def largePudWorld : World := sampleWorld.withMem largePudMem

theorem largePudWorld_maps :
    MapsLargePud (sampleSystem.userWalk sampleLib largePudWorld.kernel 0 0) :=
  ⟨by decide, by decide +kernel, by decide +kernel, by decide +kernel⟩

/-- The first word of the page's data is reported as its PMD entry, and an update of
that entry overwrites it. -/
theorem largePud_not_spared :
    MapsLargePud (sampleSystem.userWalk sampleLib largePudWorld.kernel 0 0) ∧
    ¬ SparesLargePud sampleSystem sampleLib largePudWorld 0 0 ∧
    ∃ r mem,
      Prog.run (sysHandler sampleSystem) (pteditResolve sampleLib 0 0) largePudWorld =
        some (r, largePudWorld) ∧
      r.Valid .pmd ∧ r.pmd = 0x1122334455667788 ∧
      Prog.run (sysHandler sampleSystem) (pteditUpdate sampleLib 0 0 (pmdOnly 0)) largePudWorld =
        some ((), largePudWorld.withMem mem) ∧
      largePudMem.read 0x40000000 = 0x1122334455667788 ∧ mem.read 0x40000000 = 0 := by
  have attached : Attached sampleSystem sampleLib largePudWorld := sample_attached.withMem _
  have resolves := run_pteditResolve attached (sample_access
    (sampleSystem.userWalk sampleLib largePudWorld.kernel 0 0).slots)
  have reported : ((sampleSystem.userWalk sampleLib largePudWorld.kernel 0 0).resolved
      (sizeOfInt 0)).Valid .pmd := by
    decide +kernel
  exact ⟨largePudWorld_maps, fun spares => (spares.reported _ _ resolves).1 reported, _, _,
    resolves, reported, by decide +kernel, run_pteditUpdate attached (sample_access _),
    by decide +kernel, by decide +kernel⟩

theorem resolveUser_enters_largePud_sample :
    ¬ SparesLargePud sampleSystem sampleLib largePudWorld 0 0 :=
  (resolveUser_enters_largePud (sample_attached.withMem _) rfl rfl (sample_access _)
    largePudWorld_maps).1

end PTEditor
