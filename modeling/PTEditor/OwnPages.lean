import PTEditor.ProcessRuns

/-!
# The pages of a process

What a process sees of the pages whose PTEs it edits: a load or a store at an offset into a
page goes to the frame that the PTE names.  A store may also hit a PTE itself, when a page or
`/proc/umem` maps the page table; then the translations of the page with that PTE are stale
until they are flushed (`Running.ensures_invalidateTlb`).
-/

namespace PTEditor

open ByteMem

section Pages

variable {sys : System} {lib : Lib} {w : World} {pages : List (Pid × Word)} {mem : ByteMem}
  {c : Cores} {mm : Mm} {stale : Set Translation} {page : Pid × Word}

/-- The place of an offset in an aligned page. -/
theorem toNat_add_offset {start : Word} {offset : Nat} (aligned : start.toNat % 4096 = 0)
    (inside : offset < 4096) : (start + BitVec.ofNat 64 offset).toNat = start.toNat + offset := by
  have small := start.isLt
  rw [BitVec.toNat_add, BitVec.toNat_ofNat]
  omega

theorem bitField_add_offset {start : Word} {offset : Nat} (aligned : start.toNat % 4096 = 0)
    (inside : offset < 4096) :
    bitField 0 12 (start + BitVec.ofNat 64 offset) = BitVec.ofNat 64 offset := by
  apply BitVec.eq_of_toNat_eq
  rw [PteditPagingDefinition.toNat_bitField, toNat_add_offset aligned inside, BitVec.toNat_ofNat]
  omega

/-- The PTE of a page at a moment of a run. -/
def System.pteIn (sys : System) (k : Kernel) (mem : ByteMem) (page : Pid × Word) : Word :=
  mem.read ((sys.tables k page).slot .pte)

namespace Running

/-- An offset does not leave the page. -/
theorem toNat_page (running : Running sys lib w pages mem) (member : page ∈ pages) {offset : Nat}
    (inside : offset < 4096) :
    (page.2 + BitVec.ofNat 64 offset).toNat / 4096 = page.2.toNat / 4096 := by
  obtain ⟨aligned, -⟩ := running.unshared.page page member
  rw [toNat_add_offset aligned inside]
  omega

/-- Fewer pages need less. -/
theorem of_subset (running : Running sys lib w pages mem) {fewer : List (Pid × Word)}
    (sub : ∀ page ∈ fewer, page ∈ pages) : Running sys lib w fewer mem where
  fourLevel := running.fourLevel
  loaded := running.loaded
  flushes := running.flushes
  mapped :=
    { paged := fun page member => running.mapped.paged page (sub page member)
      aligned := fun page member => running.mapped.aligned page (sub page member)
      apart := fun page member other among =>
        running.mapped.apart page (sub page member) other (sub other among) }
  unshared :=
    { root := running.unshared.root
      page := fun page member => running.unshared.page page (sub page member)
      own := fun page member => running.unshared.own page (sub page member) }
  prepared := running.prepared
  window := fun user page member => running.window user page (sub page member)
  keeps :=
    { slots := running.keeps.slots
      tables := fun page member => running.keeps.tables page (sub page member) }

theorem entry_pte (running : Running sys lib w pages mem) (member : page ∈ pages) :
    (sys.tables (w.withMem mem).kernel page).entry .pte = sys.pteIn w.kernel mem page := by
  rw [(running.paged member).leadsTo.entry_eq_read (by decide), running.slot member]
  rfl

/-- The PTE of a page is in the walk of its address. -/
theorem slot_mem_walkSlots (running : Running sys lib w pages mem) (member : page ∈ pages)
    (live : sys.host.getMm (sizeOfInt page.1) = some mm) :
    (sys.tables w.kernel page).slot .pte ∈ sys.walkSlots w.kernel mm page.2 := by
  have slots : sys.walkSlots (w.kernel.withMem w.kernel.mem) mm page.2 = _ :=
    walkSlots_of_paged running.fourLevel live (running.mapped.paged page member)
      (fun _ _ _ => rfl) rfl
  change _ ∈ sys.walkSlots (w.kernel.withMem w.kernel.mem) mm page.2
  rw [slots]
  simp

/-- Different pages of a process have different PTEs. -/
theorem pteIn_write (running : Running sys lib w pages mem) (member : page ∈ pages)
    {other : Pid × Word} (among : other ∈ pages)
    (live : sys.host.getMm (sizeOfInt page.1) = some mm) (ne : page.2 ≠ other.2) (value : Word) :
    sys.pteIn w.kernel (mem.write ((sys.tables w.kernel other).slot .pte) value) page =
      sys.pteIn w.kernel mem page := by
  obtain ⟨aligned, user⟩ := running.unshared.page page member
  obtain ⟨aligned', -⟩ := running.unshared.page other among
  refine read_write_of_apart _ value ?_
  refine apart_of_aligned (running.mapped.aligned_slot among .pte)
    (running.mapped.aligned_slot member .pte) fun same => ne ?_
  have visited := running.slot_mem_walkSlots member live
  rw [← same] at visited
  have shared := (running.unshared.own other among mm page.2 user visited).2
  exact BitVec.eq_of_toNat_eq (by omega)

/-- **Translation in a page.** -/
theorem translate_page (running : Running sys lib w pages mem) (member : page ∈ pages)
    (live : sys.host.getMm (sizeOfInt page.1) = some mm)
    (present : (sys.pteIn w.kernel mem page).getLsbD 0 = true) {offset : Nat}
    (inside : offset < 4096) :
    translate .x86_64 mem.read (sys.root w.kernel mm) (page.2 + BitVec.ofNat 64 offset) =
      some (mappedPage .x86_64 12 (sys.pteIn w.kernel mem page) + BitVec.ofNat 64 offset) := by
  obtain ⟨aligned, -⟩ := running.unshared.page page member
  have leaf : hardwareLeaf .x86_64 mem.read (sys.pagingRoot w.kernel page.1) page.2 = _ :=
    (running.paged member).hardwareLeaf_eq
  rw [running.entry_pte member, if_pos present, root_of_live running.fourLevel live] at leaf
  have place := bitField_add_offset aligned inside
  rw [translate, hardwareLeaf_eq_getLast,
    hardwareWalk_congr_page (running.toNat_page member inside), ← hardwareLeaf_eq_getLast, leaf]
  exact congrArg (fun low => some (mappedPage .x86_64 12 (sys.pteIn w.kernel mem page) + low)) place

theorem userSpace_page (running : Running sys lib w pages mem) (member : page ∈ pages)
    {offset : Nat} (inside : offset < 4096) : UserSpace (page.2 + BitVec.ofNat 64 offset) := by
  obtain ⟨aligned, user⟩ := running.unshared.page page member
  unfold UserSpace at user ⊢
  rw [toNat_add_offset aligned inside]
  omega

theorem withinPage_page (running : Running sys lib w pages mem) (member : page ∈ pages)
    {offset count : Nat} (some : 0 < count) (inside : offset + count ≤ 4096) :
    WithinPage (page.2 + BitVec.ofNat 64 offset) count := by
  obtain ⟨aligned, -⟩ := running.unshared.page page member
  unfold WithinPage
  rw [toNat_add_offset aligned (by omega)]
  omega

/-- **A load from a page** reads its frame. -/
theorem ensures_loadPage (running : Running sys lib w pages mem) (member : page ∈ pages)
    (own : sys.host.current.theMm = some mm)
    (live : sys.host.getMm (sizeOfInt page.1) = some mm)
    (present : (sys.pteIn w.kernel mem page).getLsbD 0 = true) (world : c.world = w.withMem mem)
    (coherent : sys.Coherent c.world.kernel stale c.tlb)
    (fresh : ∀ t ∈ stale, t ∉ sys.pageTranslations page) {offset count : Nat} (some : 0 < count)
    (inside : offset + count ≤ 4096) :
    (CoreProg.load (page.2 + BitVec.ofNat 64 offset) count).Ensures sys.cores c fun bytes c' =>
      bytes = mem.readBytes (mappedPage .x86_64 12 (sys.pteIn w.kernel mem page) +
        BitVec.ofNat 64 offset) count ∧ c'.world = w.withMem mem ∧
      sys.Coherent c'.world.kernel stale c'.tlb := by
  have small : offset < 4096 := by omega
  refine Running.ensures_load own world coherent (running.userSpace_page member small)
    (fun cpu old => fresh _ old ?_) (running.withinPage_page member some inside)
    (running.translate_page member live present small)
  exact ⟨live, running.toNat_page member small⟩

/-- **A store to a page** writes its frame. -/
theorem ensures_storePage (running : Running sys lib w pages mem) (member : page ∈ pages)
    (own : sys.host.current.theMm = some mm)
    (live : sys.host.getMm (sizeOfInt page.1) = some mm)
    (present : (sys.pteIn w.kernel mem page).getLsbD 0 = true) (world : c.world = w.withMem mem)
    (coherent : sys.Coherent c.world.kernel stale c.tlb)
    (fresh : ∀ t ∈ stale, t ∉ sys.pageTranslations page) {bytes : List (BitVec 8)}
    (some : 0 < bytes.length) (inside : bytes.length ≤ 4096)
    (spares : sys.ApartFromWalks w.kernel (mappedPage .x86_64 12 (sys.pteIn w.kernel mem page))
      bytes.length) :
    (CoreProg.store page.2 bytes).Ensures sys.cores c fun _ c' =>
      c'.world = w.withMem (mem.writeBytes (mappedPage .x86_64 12 (sys.pteIn w.kernel mem page))
        bytes) ∧ sys.Coherent c'.world.kernel stale c'.tlb := by
  have place := running.translate_page member live present (show 0 < 4096 by decide)
  rw [BitVec.add_zero, BitVec.add_zero] at place
  have user := running.userSpace_page member (show 0 < 4096 by decide)
  have within := running.withinPage_page member some (show 0 + bytes.length ≤ 4096 by omega)
  rw [BitVec.add_zero] at user within
  exact running.ensures_store own world coherent user (fun cpu old => fresh _ old ⟨live, rfl⟩)
    within place spares

/-- **A store to a PTE** leaves the translations of its page stale. -/
theorem ensures_storePte (running : Running sys lib w pages mem) (member : page ∈ pages)
    (own : sys.host.current.theMm = some mm) (world : c.world = w.withMem mem)
    (coherent : sys.Coherent c.world.kernel stale c.tlb) {address : Word}
    (user : UserSpace address) (fresh : ∀ cpu, (⟨cpu, mm, address⟩ : Translation) ∉ stale)
    (within : WithinPage address 8)
    (place : translate .x86_64 mem.read (sys.root w.kernel mm) address =
      some ((sys.tables w.kernel page).slot .pte)) (value : Word) :
    (CoreProg.storeWord address value).Ensures sys.cores c fun _ c' =>
      c'.world = w.withMem (mem.write ((sys.tables w.kernel page).slot .pte) value) ∧
      sys.Coherent c'.world.kernel (stale ∪ sys.pageTranslations page) c'.tlb := by
  obtain ⟨leaf, current, same⟩ := exists_leaf_of_translate place
  have here : hardwareLeaf .x86_64 c.world.kernel.mem.read (sys.root c.world.kernel mm) address =
      some leaf := by
    rw [world]
    exact current
  have inside : WithinPage address (bytesOfWord value).length := within
  refine (PTEditor.ensures_store own user coherent fresh here inside).mono ?_
  rintro - c' ⟨world', kept⟩
  rw [same, world] at world'
  rw [world] at kept
  rw [world']
  exact ⟨rfl, running.keeps.coherent_write running.mapped running.unshared member value kept⟩

/-- The same store through a mapping of `/proc/umem`. -/
theorem ensures_mappedStorePte (running : Running sys lib w pages mem) (member : page ∈ pages)
    (world : c.world = w.withMem mem) (coherent : sys.Coherent c.world.kernel stale c.tlb)
    {mapping : Mapping} {place : Word} (covers : mapping.Covers place)
    (physical : mapping.physical place = (sys.tables w.kernel page).slot .pte) (value : Word) :
    (CoreProg.library (Sys.store mapping place value)).Ensures sys.cores c fun _ c' =>
      c'.world = w.withMem (mem.write ((sys.tables w.kernel page).slot .pte) value) ∧
      sys.Coherent c'.world.kernel (stale ∪ sys.pageTranslations page) c'.tlb := by
  have answer : sysHandler sys (.store mapping place value) c.world =
      some ((), w.withMem (mem.write ((sys.tables w.kernel page).slot .pte) value)) := by
    rw [sysHandler, if_pos covers, physical, world]
    rfl
  refine (ensures_op coherent answer).mono ?_
  rintro - c' ⟨-, world', kept, -⟩
  rw [world] at kept
  rw [world']
  exact ⟨rfl, running.keeps.coherent_write running.mapped running.unshared member value kept⟩

/-- **A flush for the caller.**  It drops the translations of a page of the calling process, if
its number names the same process where the module looks it up. -/
theorem ensures_invalidateTlb (running : Running sys lib w pages mem) (member : page ∈ pages)
    (number : sys.host.getMm (sizeOfInt sys.host.current.nr) =
      sys.host.getMm (sizeOfInt page.1))
    (world : c.world = w.withMem mem) (coherent : sys.Coherent c.world.kernel stale c.tlb) :
    (CoreProg.library (pteditInvalidateTlb lib page.2)).Ensures sys.cores c fun _ c' =>
      c'.world = w.withMem mem ∧
      sys.Coherent c'.world.kernel (stale \ sys.pageTranslations page) c'.tlb := by
  have attached : Attached sys lib c.world := world ▸ running.drives.attached
  have flushes : FlushesWith .kernel 4096 c.world :=
    world ▸ ⟨running.flushes.method, running.flushes.size⟩
  obtain ⟨aligned, user⟩ := running.unshared.page page member
  have dropped : sys.pageTranslations page ⊆
      flushedBy sys.host 4096 .kernel sys.host.current.nr page.2 := by
    have named : sys.pageTranslations (sys.host.current.nr, page.2) ⊆ _ :=
      pageTranslations_subset_flushedBy running.fourLevel.arch aligned user
    rintro t ⟨live, same⟩
    exact named ⟨number.trans live, same⟩
  refine (ensures_pteditInvalidateTlb attached flushes page.2 coherent).mono ?_
  rintro - c' ⟨world', kept⟩
  rw [world'.trans world]
  rw [world] at kept
  exact ⟨rfl, kept.mono fun t old => ⟨old.1, fun its => old.2 (dropped its)⟩⟩

end Running

end Pages

end PTEditor
