import PTEditor.Cores
import PTEditor.Switching

/-!
# Updates keep the TLBs coherent

Every PTE operation of the library ends with a flush of the page whose PTE it edits.  When no
other address has that PTE in its walk (`Unshared`), what the CPUs have cached stays what the
tables say, so a process cannot tell a run from one in which every access goes through the
page tables anew: `ensures_processRun`.
-/

namespace PTEditor

open ByteMem

/-! ## Changes of memory and the walks -/

/-- The slots that the walk of an address reads. -/
def System.walkSlots (sys : System) (k : Kernel) (mm : Mm) (addr : Word) : List Word :=
  (hardwareWalk .x86_64 k.mem.read (sys.root k mm) addr).map (·.slot)

/-- An address lies in the page of a process. -/
def System.OfPage (sys : System) (page : Pid × Word) (mm : Mm) (addr : Word) : Prop :=
  sys.host.getMm (sizeOfInt page.1) = some mm ∧ addr.toNat / 4096 = page.2.toNat / 4096

/-- The translations of the addresses of a page. -/
def System.pageTranslations (sys : System) (page : Pid × Word) : Set Translation :=
  {t | sys.OfPage page t.mm t.address}

/-- Only the addresses of a page have its PTE in their walks. -/
structure Unshared (sys : System) (k : Kernel) (pages : List (Pid × Word)) : Prop where
  root : ∀ mm, (sys.root k mm).toNat % 4096 = 0
  page : ∀ page ∈ pages, page.2.toNat % 4096 = 0 ∧ UserSpace page.2
  own : ∀ page ∈ pages, ∀ mm addr, UserSpace addr →
    (sys.tables k page).slot .pte ∈ sys.walkSlots k mm addr → sys.OfPage page mm addr

/-- A memory in which the user-space walks read the slots that they read at first, and the
tables of some pages are as they were. -/
structure Keeps (sys : System) (k : Kernel) (pages : List (Pid × Word)) (mem : ByteMem) : Prop where
  slots : ∀ mm addr, UserSpace addr →
    sys.walkSlots (k.withMem mem) mm addr = sys.walkSlots k mm addr
  tables : ∀ page ∈ pages, (sys.tables k page).SameTables mem.read

section Walks

variable {sys : System} {k : Kernel} {pages : List (Pid × Word)} {mem mem' : ByteMem} {mm : Mm}
  {addr : Word}

theorem keeps_self (k : Kernel) (pages : List (Pid × Word)) : Keeps sys k pages k.mem :=
  ⟨fun _ _ _ => rfl, fun _ _ _ _ _ => rfl⟩

/-- The walk of an address depends on its page only. -/
theorem hardwareWalk_congr_page {read : Word → Word} {root : Word} {addr' : Word}
    (same : addr.toNat / 4096 = addr'.toNat / 4096) :
    hardwareWalk .x86_64 read root addr = hardwareWalk .x86_64 read root addr' := by
  have index : ∀ level, PteditPagingDefinition.x86_64.indexField level addr =
      PteditPagingDefinition.x86_64.indexField level addr' := by
    intro level
    have above : 2 ^ PteditPagingDefinition.x86_64.shift level =
        4096 * 2 ^ (PteditPagingDefinition.x86_64.shift level - 12) := by
      cases level <;> rfl
    apply BitVec.eq_of_toNat_eq
    rw [PteditPagingDefinition.indexField, PteditPagingDefinition.indexField,
      PteditPagingDefinition.toNat_bitField, PteditPagingDefinition.toNat_bitField, above,
      ← Nat.div_div_eq_div_mul, ← Nat.div_div_eq_div_mul, same]
  unfold hardwareWalk hardwareRadix
  simp only [index]

theorem hardwareLeaf_congr_walk {read read' : Word → Word} {root : Word}
    (same : hardwareWalk .x86_64 read' root addr = hardwareWalk .x86_64 read root addr) :
    hardwareLeaf .x86_64 read' root addr = hardwareLeaf .x86_64 read root addr := by
  rw [hardwareLeaf_eq_getLast, hardwareLeaf_eq_getLast, same]

/-- A change of memory outside the slots of a walk does not change the walk. -/
theorem hardwareWalk_of_outside
    (outside : ∀ slot ∈ sys.walkSlots (k.withMem mem) mm addr, ∀ b, InWord slot b →
      mem' b = mem b) :
    hardwareWalk .x86_64 mem'.read (sys.root k mm) addr =
      hardwareWalk .x86_64 mem.read (sys.root k mm) addr :=
  Radix.walk_congr_read fun _ member => read_congr (outside _ (List.mem_map_of_mem member))

theorem Unshared.aligned_walkSlots (unshared : Unshared sys k pages) {slot : Word}
    (member : slot ∈ sys.walkSlots (k.withMem mem) mm addr) : Aligned slot := by
  obtain ⟨visit, visited, rfl⟩ := List.mem_map.mp member
  exact aligned_hardwareWalk (unshared.root mm) visit visited

theorem root_of_live {page : Pid × Word} (fourLevel : FourLevel sys.host)
    (live : sys.host.getMm (sizeOfInt page.1) = some mm) :
    sys.pagingRoot k page.1 = sys.root k mm := by
  rw [pagingRoot_of_mm live, System.rootOf, fourLevel.arch]
  exact if_neg (by simp)

/-- The slots of a walk through three tables, in a memory with these tables. -/
theorem walkSlots_of_paged {page : Pid × Word} (fourLevel : FourLevel sys.host)
    (live : sys.host.getMm (sizeOfInt page.1) = some mm) (paged : (sys.tables k page).Paged)
    (tables : (sys.tables k page).SameTables mem.read)
    (same : addr.toNat / 4096 = page.2.toNat / 4096) :
    sys.walkSlots (k.withMem mem) mm addr =
      [.pgd, .pud, .pmd, .pte].map (sys.tables k page).slot := by
  have walk : hardwareWalk .x86_64 mem.read (sys.pagingRoot k page.1) page.2 = _ :=
    (paged.withRead tables).hardwareWalk_eq
  have slot : ∀ level, ((sys.tables k page).withRead mem.read).slot level =
      (sys.tables k page).slot level := Walk.slot_withRead tables
  unfold System.walkSlots
  rw [hardwareWalk_congr_page same]
  change (hardwareWalk .x86_64 mem.read (sys.root k mm) page.2).map _ = _
  rw [← root_of_live fourLevel live, walk]
  simp only [List.map_cons, List.map_nil, Walk.visit, slot]

namespace Keeps

variable {page : Pid × Word}

/-- A PTE that is written is in no walk but those of its page. -/
theorem not_mem_walkSlots (keeps : Keeps sys k pages mem) (unshared : Unshared sys k pages)
    (member : page ∈ pages) (user : UserSpace addr) (other : ¬ sys.OfPage page mm addr) :
    (sys.tables k page).slot .pte ∉ sys.walkSlots (k.withMem mem) mm addr := by
  rw [keeps.slots mm addr user]
  exact fun here => other (unshared.own page member mm addr user here)

/-- Writing the PTE of a page leaves the walks of other addresses. -/
theorem hardwareWalk_write (keeps : Keeps sys k pages mem) (mapped : Mapped sys k pages)
    (unshared : Unshared sys k pages) (member : page ∈ pages) (user : UserSpace addr)
    (other : ¬ sys.OfPage page mm addr) (value : Word) :
    hardwareWalk .x86_64 (mem.write ((sys.tables k page).slot .pte) value).read (sys.root k mm)
        addr = hardwareWalk .x86_64 mem.read (sys.root k mm) addr := by
  refine hardwareWalk_of_outside fun slot visited b inSlot => write_of_not_inWord _ _ fun inPte => ?_
  have ne : slot ≠ (sys.tables k page).slot .pte := fun same =>
    keeps.not_mem_walkSlots unshared member user other (same ▸ visited)
  exact apart_of_aligned (unshared.aligned_walkSlots visited) (mapped.aligned_slot member .pte) ne b
    inSlot inPte

/-- Writing the PTE of one of the pages keeps the tables. -/
theorem write (keeps : Keeps sys k pages mem) (fourLevel : FourLevel sys.host)
    (mapped : Mapped sys k pages) (unshared : Unshared sys k pages) (member : page ∈ pages)
    (value : Word) : Keeps sys k pages (mem.write ((sys.tables k page).slot .pte) value) := by
  have tables : ∀ other ∈ pages, (sys.tables k other).SameTables
      (mem.write ((sys.tables k page).slot .pte) value).read := by
    intro other inPages level ne here
    have notP4d := (Walk.exists_x86 rfl level).mp here
    rw [← keeps.tables other inPages level ne here]
    refine read_congr fun b inSlot => write_of_not_inWord _ _ fun inPte => ?_
    exact apart_of_aligned (mapped.aligned_slot member .pte) (mapped.aligned_slot inPages level)
      (mapped.apart page member other inPages level ne notP4d) b inPte inSlot
  refine ⟨fun mm addr user => ?_, tables⟩
  by_cases own : sys.OfPage page mm addr
  · have paged := mapped.paged page member
    rw [← keeps.slots mm addr user,
      walkSlots_of_paged fourLevel own.1 paged (tables page member) own.2,
      walkSlots_of_paged fourLevel own.1 paged (keeps.tables page member) own.2]
  · have walk := keeps.hardwareWalk_write mapped unshared member user own value
    rw [← keeps.slots mm addr user]
    exact congrArg (List.map _) walk

/-- A change outside the slots of every walk keeps the tables. -/
theorem outside (keeps : Keeps sys k pages mem) (fourLevel : FourLevel sys.host)
    (mapped : Mapped sys k pages) (unshared : Unshared sys k pages)
    (apart : ∀ mm addr, UserSpace addr → ∀ slot ∈ sys.walkSlots k mm addr, ∀ b, InWord slot b →
      mem' b = mem b) : Keeps sys k pages mem' := by
  have walk : ∀ mm addr, UserSpace addr → hardwareWalk .x86_64 mem'.read (sys.root k mm) addr =
      hardwareWalk .x86_64 mem.read (sys.root k mm) addr := by
    intro mm addr user
    refine hardwareWalk_of_outside ?_
    rw [keeps.slots mm addr user]
    exact apart mm addr user
  refine ⟨fun mm addr user => ?_, fun page member level ne here => ?_⟩
  · rw [← keeps.slots mm addr user]
    exact congrArg (List.map _) (walk mm addr user)
  · have paged := mapped.paged page member
    obtain ⟨mm, live, -⟩ := exists_mm_of_root (w := ⟨k, fun _ => 0⟩) fourLevel paged.root
    have slots : sys.walkSlots (k.withMem k.mem) mm page.2 = _ :=
      walkSlots_of_paged fourLevel live paged (fun _ _ _ => rfl) rfl
    rw [← keeps.tables page member level ne here]
    refine read_congr (apart mm page.2 (unshared.page page member).2 _ ?_)
    have notP4d := (Walk.exists_x86 rfl level).mp here
    change _ ∈ sys.walkSlots (k.withMem k.mem) mm page.2
    rw [slots]
    exact List.mem_map_of_mem (by cases level <;> simp_all)

end Keeps

/-- What is cached of other addresses stays current when the PTE of a page is written. -/
theorem Keeps.coherent_write {page : Pid × Word} {stale : Set Translation}
    {tlb : Set CachedTranslation} (keeps : Keeps sys k pages mem) (mapped : Mapped sys k pages)
    (unshared : Unshared sys k pages) (member : page ∈ pages) (value : Word)
    (coherent : sys.Coherent (k.withMem mem) stale tlb) :
    sys.Coherent (k.withMem (mem.write ((sys.tables k page).slot .pte) value))
      (stale ∪ sys.pageTranslations page) tlb := by
  refine coherent.change (fun t old => .inl old) fun cached user fresh current => ?_
  have other : ¬ sys.OfPage page cached.1.mm cached.1.address := fun own => fresh (.inr own)
  exact (hardwareLeaf_congr_walk
    (keeps.hardwareWalk_write mapped unshared member user other value)).trans current

/-- What is cached stays current when memory changes outside all walks. -/
theorem Keeps.coherent_outside {stale : Set Translation} {tlb : Set CachedTranslation}
    (keeps : Keeps sys k pages mem)
    (apart : ∀ mm addr, UserSpace addr → ∀ slot ∈ sys.walkSlots k mm addr, ∀ b, InWord slot b →
      mem' b = mem b)
    (coherent : sys.Coherent (k.withMem mem) stale tlb) :
    sys.Coherent (k.withMem mem') stale tlb := by
  refine coherent.change (fun t old => old) fun cached user fresh current => ?_
  have walk : hardwareWalk .x86_64 mem'.read (sys.root k cached.1.mm) cached.1.address =
      hardwareWalk .x86_64 mem.read (sys.root k cached.1.mm) cached.1.address := by
    refine hardwareWalk_of_outside ?_
    rw [keeps.slots _ _ user]
    exact apart _ _ user
  exact (hardwareLeaf_congr_walk walk).trans current

end Walks

/-! ## The library on the CPUs -/

/-- The module flushes with `flush_tlb_mm_range`, in pages of 4 KiB. -/
def FlushesPages (w : World) : Prop := FlushesWith .kernel 4096 w

section Library

variable {sys : System} {lib : Lib} {w : World} {pages : List (Pid × Word)} {mem : ByteMem}
  {c : Cores} {k : Kernel} {page : Pid × Word} {stale : Set Translation}

/-- The flush of an address at the start of a page drops the translations of the page. -/
theorem pageTranslations_subset_flushedBy (arch : sys.host.arch = .x86_64)
    (aligned : page.2.toNat % 4096 = 0) (user : UserSpace page.2) :
    sys.pageTranslations page ⊆ flushedBy sys.host 4096 .kernel page.1 page.2 := by
  rintro t ⟨live, same⟩
  have small := t.address.isLt
  unfold UserSpace at user
  have stop : (page.2 + sizeOfInt 4096).toNat = page.2.toNat + 4096 := by
    rw [BitVec.toNat_add, show (sizeOfInt 4096).toNat = 4096 from rfl]
    exact Nat.mod_eq_of_lt (by omega)
  unfold flushedBy
  rw [arch]
  dsimp only
  rw [live]
  refine ⟨rfl, ?_, ?_⟩
  · rw [BitVec.le_def]
    omega
  · rw [BitVec.lt_def, stop]
    omega

/-- What the library relies on at a moment of a run: it is prepared, and memory has the
tables of the pages. -/
structure Running (sys : System) (lib : Lib) (w : World) (pages : List (Pid × Word))
    (mem : ByteMem) : Prop where
  fourLevel : FourLevel sys.host
  loaded : w.kernel.Loaded sys.host
  flushes : FlushesPages w
  mapped : Mapped sys w.kernel pages
  unshared : Unshared sys w.kernel pages
  prepared : Prepared sys lib w.kernel
  window : lib.implementation = .user → ∀ page ∈ pages, sys.InWindow w.kernel page
  keeps : Keeps sys w.kernel pages mem

namespace Running

theorem drives (running : Running sys lib w pages mem) : Drives sys lib (w.withMem mem) :=
  (running.prepared.drives running.fourLevel running.loaded).withMem mem

theorem paged (running : Running sys lib w pages mem) (member : page ∈ pages) :
    (sys.tables (w.withMem mem).kernel page).Paged :=
  (running.mapped.paged page member).withRead (running.keeps.tables page member)

theorem slot (running : Running sys lib w pages mem) (member : page ∈ pages) (level : Level) :
    (sys.tables (w.withMem mem).kernel page).slot level = (sys.tables w.kernel page).slot level :=
  Walk.slot_withRead (running.keeps.tables page member) level

theorem serves (running : Running sys lib w pages mem) (member : page ∈ pages) :
    Serves sys lib (w.withMem mem).kernel page := by
  refine (running.prepared.withMem mem).serves (running.mapped.aligned page member) fun user => ?_
  intro a read
  rw [tables_withMem] at read
  exact running.window user page member a ((running.mapped.paged page member).slots_withRead
    (running.keeps.tables page member) a read)

theorem exists_live (running : Running sys lib w pages mem) (member : page ∈ pages) :
    ∃ mm, sys.host.getMm (sizeOfInt page.1) = some mm := by
  obtain ⟨mm, live, -⟩ := exists_mm_of_root running.fourLevel (running.mapped.paged page member).root
  exact ⟨mm, live⟩

/-- Resolving a page finds the entries of its walk, whatever is cached. -/
theorem ensures_resolve (running : Running sys lib w pages mem) (member : page ∈ pages)
    (world : c.world = w.withMem mem)
    (coherent : sys.Coherent c.world.kernel stale c.tlb) :
    (CoreProg.library (pteditResolve lib page.2 page.1)).Ensures sys.cores c fun r c' =>
      ((∀ level, r.field level = (sys.tables (w.withMem mem).kernel page).entry level) ∧
        ∀ level, level ≠ .p4d → r.Valid level) ∧
      c'.world = w.withMem mem ∧ sys.Coherent (w.withMem mem).kernel stale c'.tlb := by
  obtain ⟨r, resolves, found⟩ := run_pteditResolve_paged running.drives (running.serves member)
    (running.paged member)
  rw [← world] at resolves found ⊢
  refine (ensures_reading (world ▸ running.drives.attached)
    (performs_pteditResolve (readsOnly_allowsReads lib) _ _) resolves coherent).mono ?_
  rintro r' c' ⟨rfl, kept⟩
  exact ⟨found, kept⟩

/-- A PTE that is stored and whose page is then flushed. -/
theorem coherent_of_flushed (running : Running sys lib w pages mem) (member : page ∈ pages)
    {tlb : Set CachedTranslation}
    (coherent : sys.Coherent k ((stale ∪ sys.pageTranslations page) \
      flushedBy sys.host 4096 .kernel page.1 page.2) tlb) :
    sys.Coherent k (stale \ sys.pageTranslations page) tlb := by
  obtain ⟨aligned, user⟩ := running.unshared.page page member
  have dropped := pageTranslations_subset_flushedBy running.fourLevel.arch aligned user
  refine coherent.mono fun t old => ?_
  have notPage : t ∉ sys.pageTranslations page := fun own => old.2 (dropped own)
  exact ⟨old.1.resolve_right notPage, notPage⟩

end Running

/-- `ptedit_phys_write_…` at a place that the implementation in use gets at. -/
theorem ensures_pteditPhysWritePwrite (umem : sys.file lib.umem = .umem) (a v : Word)
    (coherent : sys.Coherent c.world.kernel stale c.tlb) :
    (CoreProg.library (pteditPhysWritePwrite lib a v)).Ensures sys.cores c fun _ c' =>
      c'.world = c.world.withMem (c.world.kernel.mem.write a v) ∧
        sys.Coherent c.world.kernel stale c'.tlb := by
  have answer : sysHandler sys (.pwrite lib.umem (bytesOfWord v) a) c.world =
      some (some (bytesOfWord v).length, c.world.withMem (c.world.kernel.mem.write a v)) := by
    rw [sysHandler, umem]
    rfl
  refine (ensures_op coherent answer).bind ?_
  rintro r c' ⟨-, world, kept, -⟩
  exact ⟨world, kept⟩

theorem ensures_pteditPhysWriteMap {length : Nat} (window : lib.vmem = .umem 0 length) {a : Word}
    (inside : a.toNat + 8 ≤ length) (v : Word)
    (coherent : sys.Coherent c.world.kernel stale c.tlb) :
    (CoreProg.library (pteditPhysWriteMap lib a v)).Ensures sys.cores c fun _ c' =>
      c'.world = c.world.withMem (c.world.kernel.mem.write a v) ∧
        sys.Coherent c.world.kernel stale c'.tlb := by
  have answer : sysHandler sys (.store lib.vmem a v) c.world =
      some ((), c.world.withMem (c.world.kernel.mem.write a v)) := by
    have stored := @run_pteditPhysWriteMap sys lib c.world length window a v
    rw [if_pos inside] at stored
    exact (Prog.run_perform _ _).symm.trans stored
  refine (ensures_op coherent answer).mono ?_
  rintro r c' ⟨-, world, kept, -⟩
  exact ⟨world, kept⟩

/-- The updater stores the PTE in the slot of the walk. -/
theorem Running.updateSlot_eq (running : Running sys lib w pages mem) (member : page ∈ pages)
    {current : PteditEntry}
    (fields : ∀ level, current.field level = (sys.tables (w.withMem mem).kernel page).entry level)
    (root : Word) :
    updateSlot lib.arch lib.pagingDefinition root page.2 current .pte =
      (sys.tables w.kernel page).slot .pte := by
  have arch := running.drives.attached.arch.trans running.fourLevel.arch
  have slot : tableSlot .x86_64 ((sys.tables (w.withMem mem).kernel page).entry .pmd)
      (PteditPagingDefinition.x86_64.intIndex .pte page.2) =
        (sys.tables w.kernel page).slot .pte := running.slot member .pte
  rw [PteditPagingDefinition.intIndex_eq PteditPagingDefinition.x86_64_fits, ← fields] at slot
  rw [arch, running.prepared.definition]
  exact slot

/-- The body of the user-space updaters stores the PTE and flushes its page. -/
theorem Running.ensures_updateUserExt (running : Running sys lib w pages mem)
    (member : page ∈ pages) (world : c.world = w.withMem mem)
    (selected : lib.implementation ≠ .kernel) {vm : PteditEntry} (only : vm.PteOnly)
    {pset : Word → Word → Sys Unit}
    (writes : ∀ c : Cores, c.world = w.withMem mem → sys.Coherent c.world.kernel stale c.tlb →
      (CoreProg.library (pset ((sys.tables w.kernel page).slot .pte) vm.pte)).Ensures sys.cores c
        fun _ c' =>
          c'.world = c.world.withMem (c.world.kernel.mem.write ((sys.tables w.kernel page).slot .pte)
            vm.pte) ∧ sys.Coherent c.world.kernel stale c'.tlb)
    (coherent : sys.Coherent c.world.kernel stale c.tlb) :
    (CoreProg.library (pteditUpdateUserExt lib page.2 page.1 vm pset)).Ensures sys.cores c
      fun _ c' =>
        c'.world = w.withMem (mem.write ((sys.tables w.kernel page).slot .pte) vm.pte) ∧
        sys.Coherent c'.world.kernel (stale \ sys.pageTranslations page) c'.tlb := by
  have noRoot : sys.userRoot lib (w.withMem mem).kernel page.1 ≠ 0 := by
    cases running.serves member with
    | kernel kernel => exact absurd kernel selected
    | user root access =>
        rw [root]
        exact (running.paged member).root
  unfold pteditUpdateUserExt
  rw [CoreProg.library_bind]
  refine (running.ensures_resolve member world coherent).bind ?_
  rintro current c₁ ⟨⟨fields, valid⟩, world₁, coherent₁⟩
  have asked := run_pteditUserRoot running.drives.attached page.1
  rw [← world₁] at asked coherent₁
  have attached₁ : Attached sys lib c₁.world := world₁ ▸ running.drives.attached
  rw [CoreProg.library_bind]
  refine (ensures_reading attached₁ (performs_pteditUserRoot (readsOnly_allowsReads lib) _) asked
    coherent₁).bind ?_
  rintro root c₂ ⟨rfl, world₂, coherent₂⟩
  rw [← world₂] at coherent₂
  replace world₂ := world₂.trans world₁
  -- only the PTE is selected
  have pte : Selected lib.pagingDefinition vm current .pte :=
    ⟨(only .pte).mpr rfl, valid .pte (by decide), .inl rfl⟩
  have others : ∀ {level}, level ≠ .pte → ¬ Selected lib.pagingDefinition vm current level :=
    fun ne chosen => ne ((only _).mp chosen.1)
  rw [world₁, if_neg noRoot]
  unfold pteditUpdateLevel
  rw [if_pos pte, if_neg (others (by decide)), if_neg (others (by decide)),
    if_neg (others (by decide)), if_neg (others (by decide)), running.updateSlot_eq member fields,
    CoreProg.library_bind]
  refine (writes c₂ world₂ coherent₂).bind ?_
  rintro - c₃ ⟨world₃, coherent₃⟩
  rw [world₂] at world₃ coherent₃
  have stored := running.keeps.coherent_write running.mapped running.unshared member vm.pte coherent₃
  have attached₃ : Attached sys lib c₃.world := world₃ ▸ running.drives.attached.withMem _
  have flushes₃ : FlushesWith .kernel 4096 c₃.world :=
    world₃ ▸ ⟨running.flushes.method, running.flushes.size⟩
  refine (ensures_pteditInvalidateTlbPid attached₃ flushes₃ page.1 page.2
    (by rw [world₃]; exact stored)).mono ?_
  rintro - c₄ ⟨world₄, coherent₄⟩
  rw [world₃] at world₄
  rw [world₄]
  rw [world₃] at coherent₄
  exact ⟨rfl, running.coherent_of_flushed member coherent₄⟩

/-- **Updates.**  An update of the PTE of a page stores it and leaves no translation of the
page stale, under every implementation. -/
theorem Running.ensures_update (running : Running sys lib w pages mem) (member : page ∈ pages)
    (world : c.world = w.withMem mem) {vm : PteditEntry} (only : vm.PteOnly)
    (coherent : sys.Coherent c.world.kernel stale c.tlb) :
    (CoreProg.library (pteditUpdate lib page.2 page.1 vm)).Ensures sys.cores c fun _ c' =>
      c'.world = w.withMem (mem.write ((sys.tables w.kernel page).slot .pte) vm.pte) ∧
      sys.Coherent c'.world.kernel (stale \ sys.pageTranslations page) c'.tlb := by
  have attached : Attached sys lib c.world := world ▸ running.drives.attached
  have flushes : FlushesWith .kernel 4096 c.world :=
    world ▸ ⟨running.flushes.method, running.flushes.size⟩
  have finish : ∀ pset : Word → Word → Sys Unit,
      (CoreProg.library (pteditUpdateUserExt lib page.2 page.1 vm pset)).Ensures sys.cores c
        (fun _ c' =>
          c'.world = w.withMem (mem.write ((sys.tables w.kernel page).slot .pte) vm.pte) ∧
          sys.Coherent c'.world.kernel (stale \ sys.pageTranslations page) c'.tlb) →
      (CoreProg.library (do
          pteditUpdateUserExt lib page.2 page.1 vm pset
          pteditInvalidateTlbPid lib page.1 page.2)).Ensures sys.cores c fun _ c' =>
        c'.world = w.withMem (mem.write ((sys.tables w.kernel page).slot .pte) vm.pte) ∧
        sys.Coherent c'.world.kernel (stale \ sys.pageTranslations page) c'.tlb := by
    intro pset body
    rw [CoreProg.library_bind]
    refine body.bind ?_
    rintro - c₁ ⟨world₁, coherent₁⟩
    have attached₁ : Attached sys lib c₁.world := world₁ ▸ running.drives.attached.withMem _
    have flushes₁ : FlushesWith .kernel 4096 c₁.world :=
      world₁ ▸ ⟨running.flushes.method, running.flushes.size⟩
    refine (ensures_pteditInvalidateTlbPid attached₁ flushes₁ page.1 page.2 coherent₁).mono ?_
    rintro - c₂ ⟨world₂, coherent₂⟩
    rw [world₂]
    exact ⟨world₁, coherent₂.mono fun t old => old.1⟩
  unfold pteditUpdate
  cases running.serves member with
  | kernel selected =>
      obtain ⟨mm, live⟩ := running.exists_live member
      have stored := run_pteditUpdate_paged running.drives (.kernel selected) (running.paged member)
        only
      rw [running.slot member, pteditUpdate, selected, ← world] at stored
      have done := run_pteditUpdateKernel attached page.2 page.1 vm
      have after := (Prod.mk.inj (Option.some.inj (done.symm.trans stored))).2
      rw [selected]
      refine (ensures_pteditUpdateKernel attached flushes live page.2 vm coherent).mono ?_
      rintro - c' ⟨world', kept, gone⟩
      rw [after, world] at world'
      rw [world] at kept
      rw [world']
      refine ⟨rfl, ?_⟩
      have stored := running.keeps.coherent_write running.mapped running.unshared member vm.pte kept
      refine running.coherent_of_flushed member ?_
      exact stored.flush fun cached inTlb => ⟨inTlb, gone cached inTlb⟩
  | user root access =>
      cases access with
      | pread selected umem =>
          rw [selected]
          refine finish _ (running.ensures_updateUserExt member world ?_ only ?_ coherent)
          · rw [selected]
            decide
          · exact fun c _ coherent => ensures_pteditPhysWritePwrite umem _ _ coherent
      | mapped selected length window inside =>
          rw [selected]
          refine finish _ (running.ensures_updateUserExt member world ?_ only ?_ coherent)
          · rw [selected]
            decide
          · have slot := (running.paged member).reached .pte
            have read : (sys.tables (w.withMem mem).kernel page).slot .pte ∈
                (sys.tables (w.withMem mem).kernel page).slots :=
              (Walk.mem_slots _).mpr ⟨.pte, .inr (.inl rfl), slot, rfl⟩
            have bound := inside _ read
            rw [running.slot member] at bound
            exact fun c _ coherent => ensures_pteditPhysWriteMap window bound _ coherent

end Library

end PTEditor
