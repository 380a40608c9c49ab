import PTEditor.EntryTypes
import PTEditor.OwnPages

/-!
# Remapping a page through its page table

`demos/map_pt_manual.c` and `demos/map_pt.c`.  Both programs get at the page table of `target`
from user space, the first through the PTE of another page and the second through
`ptedit_pmap`, store the frame of `secret` into the PTE of `target` there, and flush.
`remapTarget` is what they share.  `printf` of a pointer is left out.
-/

namespace PTEditor

open ByteMem

/-- What the programs print. -/
inductive MapPtLine where
  | targetEntry (pte : Word)
  | entry (entry : Word)
  | somethingWentWrong
  | worked
  | target (bytes : List (BitVec 8))
  | success
  | fail
  | done
  deriving DecidableEq, Repr

/-- Both programs from `size_t entry` to the reset of the entry, over how `mapped_entry` is
read and written. -/
def remapTarget (lib : Lib) (target secretPte targetPte : Word) (get : Word → CoreProg Word)
    (set : Word → Word → CoreProg Unit) : CoreProg (List MapPtLine) := do
  let entry := (target >>> 12) &&& 0x1ff#64
  let found ← get entry
  let value ← get entry
  set entry (pteditSetPfn lib.arch value (pteditGetPfn lib.arch secretPte))
  CoreProg.library (pteditInvalidateTlb lib target)
  let printed ← CoreProg.load target 1
  let tested ← CoreProg.load target 1
  set entry targetPte
  pure [.entry entry, if found ≠ targetPte then .somethingWentWrong else .worked,
    .target printed, if tested = [0x53] then .success else .fail]

/-- `demos/map_pt_manual.c`, after `ptedit_init`. -/
def mapPtManual (lib : Lib) (pt target secret : Word) : CoreProg (List MapPtLine) := do
  CoreProg.store pt (List.replicate 4096 0x41)
  CoreProg.store target (List.replicate 4096 0x42)
  CoreProg.store secret (List.replicate 4096 0x53)
  let secretEntry ← CoreProg.library (pteditResolve lib secret 0)
  let targetEntry ← CoreProg.library (pteditResolve lib target 0)
  let ptEntry ← CoreProg.library (pteditResolve lib pt 0)
  let oldPte := ptEntry.pte
  let ptEntry := { ptEntry with
    pte := pteditSetPfn lib.arch ptEntry.pte (pteditGetPfn lib.arch targetEntry.pmd)
    valid := Level.pte.validMask }
  CoreProg.library (pteditUpdate lib pt 0 ptEntry)
  let lines ← remapTarget lib target secretEntry.pte targetEntry.pte
    (fun entry => CoreProg.loadWord (pt + entry * 8#64))
    (fun entry value => CoreProg.storeWord (pt + entry * 8#64) value)
  CoreProg.library (pteditUpdate lib pt 0 { ptEntry with
    pte := oldPte
    valid := Level.pte.validMask })
  pure (.targetEntry targetEntry.pte :: lines ++ [.done])

/-- `demos/map_pt.c`, after `ptedit_init`. -/
def mapPt (lib : Lib) (target secret : Word) : CoreProg (List MapPtLine) := do
  CoreProg.store target (List.replicate 4096 0x42)
  CoreProg.store secret (List.replicate 4096 0x53)
  let secretEntry ← CoreProg.library (pteditResolve lib secret 0)
  let targetEntry ← CoreProg.library (pteditResolve lib target 0)
  let ptPfn := pteditCast targetEntry.pmd (pteditPgdT lib.arch) .pfn
  let factor ← CoreProg.library (pteditGetPagesize lib)
  let length ← CoreProg.library (pteditGetPagesize lib)
  let (pt, start) ← CoreProg.library
    (pteditPmap lib (ptPfn * BitVec.ofInt 64 factor) (BitVec.ofInt 64 length))
  let lines ← remapTarget lib target secretEntry.pte targetEntry.pte
    (fun entry => CoreProg.library (Sys.load pt (start + entry * 8#64)))
    (fun entry value => CoreProg.library (Sys.store pt (start + entry * 8#64) value))
  pure (.targetEntry targetEntry.pte :: lines ++ [.done])

/-- The pages are present pages of the calling process, whose frames hold no tables. -/
structure OwnFrames (sys : System) (k : Kernel) (mm : Mm) (pages : List (Pid × Word)) : Prop where
  own : sys.host.current.theMm = some mm
  number : sys.host.getMm (sizeOfInt sys.host.current.nr) = some mm
  self : ∀ page ∈ pages, sys.host.getMm (sizeOfInt page.1) = some mm
  present : ∀ page ∈ pages, (sys.pteIn k k.mem page).getLsbD 0 = true
  spares : ∀ page ∈ pages,
    sys.ApartFromWalks k (mappedPage .x86_64 12 (sys.pteIn k k.mem page)) 4096

theorem OwnFrames.of_subset {sys : System} {k : Kernel} {mm : Mm} {pages fewer : List (Pid × Word)}
    (frames : OwnFrames sys k mm pages) (sub : ∀ page ∈ fewer, page ∈ pages) :
    OwnFrames sys k mm fewer where
  own := frames.own
  number := frames.number
  self := fun page member => frames.self page (sub page member)
  present := fun page member => frames.present page (sub page member)
  spares := fun page member => frames.spares page (sub page member)

/-- Memory after `memset` of a page. -/
def System.filled (sys : System) (k : Kernel) (mem : ByteMem) (page : Pid × Word)
    (byte : BitVec 8) : ByteMem :=
  mem.writeBytes (mappedPage .x86_64 12 (sys.pteIn k k.mem page)) (List.replicate 4096 byte)

section Programs

variable {sys : System} {lib : Lib} {w : World} {pages : List (Pid × Word)} {mem : ByteMem}
  {c : Cores} {mm : Mm} {stale : Set Translation} {page : Pid × Word}

/-- A change of a frame without tables leaves the PTEs. -/
theorem Running.pteIn_writeBytes (running : Running sys lib w pages mem) (member : page ∈ pages)
    (live : sys.host.getMm (sizeOfInt page.1) = some mm) {phys : Word} {bytes : List (BitVec 8)}
    (spares : sys.ApartFromWalks w.kernel phys bytes.length) :
    sys.pteIn w.kernel (mem.writeBytes phys bytes) page = sys.pteIn w.kernel mem page := by
  have visited := running.slot_mem_walkSlots member live
  have user := (running.unshared.page page member).2
  exact read_congr fun b inSlot => writeBytes_of_le _ (spares mm page.2 user _ visited b inSlot)

/-- **`memset` of a page.** -/
theorem Running.ensures_memset (running : Running sys lib w pages mem)
    (frames : OwnFrames sys w.kernel mm pages) (member : page ∈ pages)
    (same : ∀ page ∈ pages, sys.pteIn w.kernel mem page = sys.pteIn w.kernel w.kernel.mem page)
    (world : c.world = w.withMem mem) (coherent : sys.Coherent c.world.kernel ∅ c.tlb)
    (byte : BitVec 8) :
    (CoreProg.store page.2 (List.replicate 4096 byte)).Ensures sys.cores c fun _ c' =>
      Running sys lib w pages (sys.filled w.kernel mem page byte) ∧
      (∀ page' ∈ pages, sys.pteIn w.kernel (sys.filled w.kernel mem page byte) page' =
        sys.pteIn w.kernel w.kernel.mem page') ∧
      c'.world = w.withMem (sys.filled w.kernel mem page byte) ∧
      sys.Coherent c'.world.kernel ∅ c'.tlb := by
  have length : (List.replicate 4096 byte).length = 4096 := List.length_replicate
  have spares : sys.ApartFromWalks w.kernel (mappedPage .x86_64 12 (sys.pteIn w.kernel mem page))
      (List.replicate 4096 byte).length := by
    rw [length, same page member]
    exact frames.spares page member
  have present : (sys.pteIn w.kernel mem page).getLsbD 0 = true := by
    rw [same page member]
    exact frames.present page member
  refine (running.ensures_storePage member frames.own (frames.self page member) present world
    coherent (fun t old => absurd old (Set.notMem_empty t)) (by rw [length]; decide) length.le
    spares).mono ?_
  rintro - c' ⟨world', kept⟩
  have keeps : Keeps sys w.kernel pages (mem.writeBytes _ (List.replicate 4096 byte)) :=
    running.keeps.outside running.fourLevel running.mapped running.unshared
      fun mm addr user slot visited b inSlot =>
        writeBytes_of_le _ (spares mm addr user slot visited b inSlot)
  have ptes : ∀ page' ∈ pages, _ := fun page' other =>
    (running.pteIn_writeBytes other (frames.self page' other) spares).trans (same page' other)
  rw [same page member] at keeps ptes world'
  exact ⟨running.withKeeps keeps, ptes, world', kept⟩

/-- The index of the PTE of an address in its page table. -/
theorem entry_eq_indexField (address : Word) : (address >>> 12) &&& 0x1ff#64 =
    PteditPagingDefinition.x86_64.indexField .pte address := by
  apply BitVec.eq_of_toNat_eq
  rw [PteditPagingDefinition.indexField, PteditPagingDefinition.toNat_bitField, BitVec.toNat_and,
    BitVec.toNat_ushiftRight, Nat.shiftRight_eq_div_pow, show (0x1ff#64).toNat = 2 ^ 9 - 1 from rfl,
    Nat.and_two_pow_sub_one_eq_mod]
  change _ = address.toNat / 2 ^ 12 % 2 ^ 9 % 2 ^ 64
  omega

/-- An entry that gets the frame of another maps the page of the other. -/
theorem mappedPage_pteditSetPfn (entry other : Word) :
    mappedPage .x86_64 12 (pteditSetPfn .x86_64 entry (pteditGetPfn .x86_64 other)) =
      mappedPage .x86_64 12 other := by
  have small : (pteditGetPfn .x86_64 other).toNat < 2 ^ pfnBits .x86_64 := by
    rw [pteditGetPfn_x86]
    exact Nat.lt_of_le_of_lt (PteditPagingDefinition.toNat_bitField 12 40 other).le
      (Nat.lt_of_le_of_lt (Nat.mod_le _ _) (Nat.mod_lt _ (by decide)))
  rw [← pfn_mul_4k, pteditGetPfn_pteditSetPfn entry small, pfn_mul_4k]

/-- The slot of a PTE in the frame of its page table. -/
theorem Running.slot_eq (running : Running sys lib w pages mem) (member : page ∈ pages) :
    (sys.tables w.kernel page).slot .pte =
      mappedPage .x86_64 12 ((sys.tables w.kernel page).entry .pmd) +
        ((page.2 >>> 12) &&& 0x1ff#64) * 8#64 := by
  have paged := running.mapped.paged page member
  rw [paged.leadsTo.slot_below (show Level.pmd ∈ Level.pte.upper by decide) rfl, hardwareSlot,
    ← pteditGetPfn_x86, pfn_mul_4k, entry_eq_indexField]
  rfl

/-- **Remapping.**  Whatever reads and writes the PTE of `target`: the target reads the first
byte of the secret, and the PTE is as before.  The reset is not flushed. -/
theorem ensures_remapTarget (running : Running sys lib w pages mem) {target : Word}
    (member : (0, target) ∈ pages) (own : sys.host.current.theMm = some mm)
    (number : sys.host.getMm (sizeOfInt sys.host.current.nr) = some mm)
    (present : (sys.pteIn w.kernel mem (0, target)).getLsbD 0 = true) {secretPte targetPte : Word}
    (known : targetPte = sys.pteIn w.kernel mem (0, target)) {byte : List (BitVec 8)}
    (secret : ∀ value, ByteMem.readBytes
      (mem.write ((sys.tables w.kernel (0, target)).slot .pte) value)
      (mappedPage .x86_64 12 secretPte) 1 = byte)
    {get : Word → CoreProg Word} {set : Word → Word → CoreProg Unit}
    (gets : ∀ c : Cores, c.world = w.withMem mem → sys.Coherent c.world.kernel ∅ c.tlb →
      (get ((target >>> 12) &&& 0x1ff#64)).Ensures sys.cores c fun value c' =>
        value = sys.pteIn w.kernel mem (0, target) ∧ c'.world = w.withMem mem ∧
        sys.Coherent c'.world.kernel ∅ c'.tlb)
    (sets : ∀ (c : Cores) (before value : Word),
      c.world = w.withMem (mem.write ((sys.tables w.kernel (0, target)).slot .pte) before) →
      sys.Coherent c.world.kernel ∅ c.tlb →
      (set ((target >>> 12) &&& 0x1ff#64) value).Ensures sys.cores c fun _ c' =>
        c'.world = w.withMem (mem.write ((sys.tables w.kernel (0, target)).slot .pte) value) ∧
        sys.Coherent c'.world.kernel (sys.pageTranslations (0, target)) c'.tlb)
    (world : c.world = w.withMem mem) (coherent : sys.Coherent c.world.kernel ∅ c.tlb) :
    (remapTarget lib target secretPte targetPte get set).Ensures sys.cores c fun lines c' =>
        lines = [.entry ((target >>> 12) &&& 0x1ff#64), .worked, .target byte,
          if byte = [0x53] then .success else .fail] ∧
        c'.world = w.withMem mem ∧
        sys.Coherent c'.world.kernel (sys.pageTranslations (0, target)) c'.tlb := by
  have arch := running.drives.attached.arch.trans running.fourLevel.arch
  have self : sys.host.getMm (sizeOfInt 0) = some mm := own
  subst known
  unfold remapTarget
  refine (gets c world coherent).bind ?_
  rintro found c₁ ⟨rfl, world₁, coherent₁⟩
  refine (gets c₁ world₁ coherent₁).bind ?_
  rintro value c₂ ⟨rfl, world₂, coherent₂⟩
  have start : w.withMem mem = w.withMem (mem.write ((sys.tables w.kernel (0, target)).slot .pte)
      (sys.pteIn w.kernel mem (0, target))) :=
    congrArg w.withMem (write_read_self mem _).symm
  refine (sets c₂ _ _ (world₂.trans start) coherent₂).bind ?_
  rintro - c₃ ⟨world₃, coherent₃⟩
  -- the target now has the frame of the secret
  let pte := pteditSetPfn lib.arch (sys.pteIn w.kernel mem (0, target))
    (pteditGetPfn lib.arch secretPte)
  have keeps := running.keeps.write running.fourLevel running.mapped running.unshared member pte
  have remapped := running.withKeeps keeps
  have entry : sys.pteIn w.kernel (mem.write ((sys.tables w.kernel (0, target)).slot .pte) pte)
      (0, target) = pte := read_write_self mem _ pte
  have page : mappedPage .x86_64 12 pte = mappedPage .x86_64 12 secretPte := by
    have same := mappedPage_pteditSetPfn (sys.pteIn w.kernel mem (0, target)) secretPte
    rw [← arch] at same ⊢
    exact same
  have here : pte.getLsbD 0 = true :=
    (getLsbD_pteditSetPfn_low lib.arch _ _ 0 (by decide)).trans present
  refine (remapped.ensures_invalidateTlb member (number.trans self.symm) world₃ coherent₃).bind ?_
  rintro - c₄ ⟨world₄, coherent₄⟩
  rw [Set.sdiff_self] at coherent₄
  have load : ∀ c : Cores, c.world = w.withMem
      (mem.write ((sys.tables w.kernel (0, target)).slot .pte) pte) →
      sys.Coherent c.world.kernel ∅ c.tlb →
      (CoreProg.load target 1).Ensures sys.cores c fun bytes c' => bytes = byte ∧
        c'.world = w.withMem (mem.write ((sys.tables w.kernel (0, target)).slot .pte) pte) ∧
        sys.Coherent c'.world.kernel ∅ c'.tlb := by
    intro c world coherent
    have read := remapped.ensures_loadPage member own self (by rw [entry]; exact here) world coherent
      (fun t old => absurd old (Set.notMem_empty t)) (show 0 < 1 by decide)
      (show 0 + 1 ≤ 4096 by decide)
    rw [entry, page, BitVec.add_zero, BitVec.add_zero, secret] at read
    exact read
  refine (load c₄ world₄ coherent₄).bind ?_
  rintro printed c₅ ⟨rfl, world₅, coherent₅⟩
  refine (load c₅ world₅ coherent₅).bind ?_
  rintro tested c₆ ⟨rfl, world₆, coherent₆⟩
  refine (sets c₆ _ _ world₆ coherent₆).bind ?_
  rintro - c₇ ⟨world₇, coherent₇⟩
  refine ⟨?_, world₇.trans start.symm, coherent₇⟩
  rw [if_neg (not_not.mpr rfl)]

/-- What the programs use of a resolved page. -/
theorem Running.ensures_resolvePage (running : Running sys lib w pages mem) (member : page ∈ pages)
    (world : c.world = w.withMem mem) (coherent : sys.Coherent c.world.kernel stale c.tlb) :
    (CoreProg.library (pteditResolve lib page.2 page.1)).Ensures sys.cores c fun r c' =>
      r.pte = sys.pteIn w.kernel mem page ∧ r.pmd = (sys.tables w.kernel page).entry .pmd ∧
      c'.world = w.withMem mem ∧ sys.Coherent c'.world.kernel stale c'.tlb := by
  refine (running.ensures_resolve member world coherent).mono ?_
  rintro r c' ⟨⟨fields, -⟩, world', kept⟩
  rw [world']
  refine ⟨(fields .pte).trans (running.entry_pte member), (fields .pmd).trans ?_, rfl, kept⟩
  exact Walk.entry_withRead (running.keeps.tables page member) (by decide)

/-- A page whose PTE has the frame of the page table of another page shows the PTE of that
page. -/
structure ShowsPte (sys : System) (w : World) (mem : ByteMem) (page other : Pid × Word) : Prop where
  present : (sys.pteIn w.kernel mem page).getLsbD 0 = true
  table : mappedPage .x86_64 12 (sys.pteIn w.kernel mem page) =
    mappedPage .x86_64 12 ((sys.tables w.kernel other).entry .pmd)

theorem index_lt (address : Word) : ((address >>> 12) &&& 0x1ff#64).toNat * 8 + 8 ≤ 4096 := by
  rw [entry_eq_indexField]
  have small := indexField_lt .pte address
  omega

/-- The place of a PTE in a page. -/
theorem mul_eight_eq (index : Word) :
    index * 8#64 = BitVec.ofNat 64 (index.toNat * 8) := by
  apply BitVec.eq_of_toNat_eq
  rw [BitVec.toNat_mul, BitVec.toNat_ofNat]
  rfl

/-- Reading the PTE of a page through another page. -/
theorem ShowsPte.ensures_loadWord {other : Pid × Word} (shows : ShowsPte sys w mem page other)
    (running : Running sys lib w pages mem) (member : page ∈ pages) (among : other ∈ pages)
    (own : sys.host.current.theMm = some mm)
    (live : sys.host.getMm (sizeOfInt page.1) = some mm) (world : c.world = w.withMem mem)
    (coherent : sys.Coherent c.world.kernel ∅ c.tlb) :
    (CoreProg.loadWord (page.2 + ((other.2 >>> 12) &&& 0x1ff#64) * 8#64)).Ensures sys.cores c
      fun value c' => value = sys.pteIn w.kernel mem other ∧ c'.world = w.withMem mem ∧
        sys.Coherent c'.world.kernel ∅ c'.tlb := by
  have read := running.ensures_loadPage member own live shows.present world coherent
    (fun t old => absurd old (Set.notMem_empty t)) (show 0 < 8 by decide) (index_lt other.2)
  rw [shows.table, ← mul_eight_eq, ← running.slot_eq among] at read
  refine read.bind ?_
  rintro bytes c' ⟨rfl, world', kept⟩
  exact ⟨rfl, world', kept⟩

/-- Writing the PTE of a page through another page. -/
theorem ShowsPte.ensures_storeWord {other : Pid × Word} (shows : ShowsPte sys w mem page other)
    (running : Running sys lib w pages mem) (member : page ∈ pages) (among : other ∈ pages)
    (own : sys.host.current.theMm = some mm)
    (live : sys.host.getMm (sizeOfInt page.1) = some mm) (world : c.world = w.withMem mem)
    (coherent : sys.Coherent c.world.kernel ∅ c.tlb) (value : Word) :
    (CoreProg.storeWord (page.2 + ((other.2 >>> 12) &&& 0x1ff#64) * 8#64) value).Ensures sys.cores
      c fun _ c' =>
        c'.world = w.withMem (mem.write ((sys.tables w.kernel other).slot .pte) value) ∧
        sys.Coherent c'.world.kernel (sys.pageTranslations other) c'.tlb := by
  have inside := index_lt other.2
  have small : ((other.2 >>> 12) &&& 0x1ff#64).toNat * 8 < 4096 := by omega
  have place := running.translate_page member live shows.present small
  have user := running.userSpace_page member small
  have within := running.withinPage_page member (show 0 < 8 by decide) inside
  rw [← mul_eight_eq] at place user within
  rw [shows.table, ← running.slot_eq among] at place
  have stored := running.ensures_storePte among own world coherent user
    (fun cpu => Set.notMem_empty _) within place value
  rw [Set.empty_union] at stored
  exact stored

/-- The frame of a page of a run is what it was at first, and a PTE that is written in between
leaves it alone. -/
theorem OwnFrames.readBytes_write (frames : OwnFrames sys w.kernel mm pages)
    (running : Running sys lib w pages mem) {other : Pid × Word} (member : page ∈ pages)
    (among : other ∈ pages) (value : Word) {count : Nat} (inside : count ≤ 4096) :
    ByteMem.readBytes (mem.write ((sys.tables w.kernel other).slot .pte) value)
        (mappedPage .x86_64 12 (sys.pteIn w.kernel w.kernel.mem page)) count =
      mem.readBytes (mappedPage .x86_64 12 (sys.pteIn w.kernel w.kernel.mem page)) count := by
  have visited := running.slot_mem_walkSlots among (frames.self other among)
  have user := (running.unshared.page other among).2
  refine List.map_congr_left fun i bound => write_of_not_inWord _ _ fun inSlot => ?_
  have far := frames.spares page member mm other.2 user _ visited _ inSlot
  rw [offset_sub_self _ (by have := List.mem_range.mp bound; omega)] at far
  have := List.mem_range.mp bound
  omega

theorem readBytes_filled (mem : ByteMem) (page : Pid × Word) (byte : BitVec 8) :
    ByteMem.readBytes (sys.filled w.kernel mem page byte)
      (mappedPage .x86_64 12 (sys.pteIn w.kernel w.kernel.mem page)) 1 = [byte] := by
  have whole := @readBytes_writeBytes mem
    (mappedPage .x86_64 12 (sys.pteIn w.kernel w.kernel.mem page)) (List.replicate 4096 byte)
    (by rw [List.length_replicate]; decide)
  rw [List.length_replicate] at whole
  have first := head_readBytes (sys.filled w.kernel mem page byte)
    (mappedPage .x86_64 12 (sys.pteIn w.kernel w.kernel.mem page)) (show 0 < 4096 by decide)
  have same := first.symm.trans (congrArg List.head? whole)
  rw [List.head?_replicate, if_neg (by decide), Option.some_inj] at same
  rw [readBytes_one]
  exact congrArg (fun b => [b]) same

end Programs

/-- **`map_pt_manual`.**  With any implementation, and whatever the CPUs cache, it prints
`Worked!` and `Success!` and leaves memory as the three `memset`s make it.  Only translations
of `target` can be stale at the end: the reset of its PTE is not flushed. -/
theorem ensures_mapPtManual {sys : System} {lib : Lib} {w : World} {mm : Mm} {c : Cores}
    {pt target secret : Word}
    (running : Running sys lib w [(0, pt), (0, target), (0, secret)] w.kernel.mem)
    (frames : OwnFrames sys w.kernel mm [(0, pt), (0, target), (0, secret)]) (ne : pt ≠ target)
    (world : c.world = w) (coherent : sys.Coherent c.world.kernel ∅ c.tlb) :
    (mapPtManual lib pt target secret).Ensures sys.cores c fun lines c' =>
      lines = [.targetEntry (sys.pteIn w.kernel w.kernel.mem (0, target)),
        .entry ((target >>> 12) &&& 0x1ff#64), .worked, .target [0x53], .success, .done] ∧
      c'.world = w.withMem (sys.filled w.kernel (sys.filled w.kernel (sys.filled w.kernel
        w.kernel.mem (0, pt) 0x41) (0, target) 0x42) (0, secret) 0x53) ∧
      sys.Coherent c'.world.kernel (sys.pageTranslations (0, target)) c'.tlb := by
  have ptIn : ((0, pt) : Pid × Word) ∈ [(0, pt), (0, target), (0, secret)] := by simp
  have targetIn : ((0, target) : Pid × Word) ∈ [(0, pt), (0, target), (0, secret)] := by simp
  have secretIn : ((0, secret) : Pid × Word) ∈ [(0, pt), (0, target), (0, secret)] := by simp
  have arch := running.drives.attached.arch.trans running.fourLevel.arch
  unfold mapPtManual
  refine (running.ensures_memset frames ptIn (fun _ _ => rfl) world coherent 0x41).bind ?_
  rintro - c₁ ⟨running₁, same₁, world₁, coherent₁⟩
  refine (running₁.ensures_memset frames targetIn same₁ world₁ coherent₁ 0x42).bind ?_
  rintro - c₂ ⟨running₂, same₂, world₂, coherent₂⟩
  refine (running₂.ensures_memset frames secretIn same₂ world₂ coherent₂ 0x53).bind ?_
  rintro - c₃ ⟨running₃, same₃, world₃, coherent₃⟩
  have ptSame := same₃ _ ptIn
  have targetSame := same₃ _ targetIn
  have secretSame := same₃ _ secretIn
  have first := @readBytes_filled sys w (sys.filled w.kernel (sys.filled w.kernel w.kernel.mem
    (0, pt) 0x41) (0, target) 0x42) (0, secret) 0x53
  generalize sys.filled w.kernel (sys.filled w.kernel (sys.filled w.kernel w.kernel.mem (0, pt)
    0x41) (0, target) 0x42) (0, secret) 0x53 = mem at *
  refine (running₃.ensures_resolvePage secretIn world₃ coherent₃).bind ?_
  rintro secretEntry c₄ ⟨secretPte, -, world₄, coherent₄⟩
  refine (running₃.ensures_resolvePage targetIn world₄ coherent₄).bind ?_
  rintro targetEntry c₅ ⟨targetPte, targetPmd, world₅, coherent₅⟩
  refine (running₃.ensures_resolvePage ptIn world₅ coherent₅).bind ?_
  rintro ptEntry c₆ ⟨ptPte, -, world₆, coherent₆⟩
  refine (running₃.ensures_update ptIn world₆ (PteditEntry.pteOnly_of_valid rfl) coherent₆).bind ?_
  rintro - c₇ ⟨world₇, coherent₇⟩
  -- now the page table of the target is mapped at `pt`
  let slot := (sys.tables w.kernel (0, pt)).slot .pte
  let pte := pteditSetPfn lib.arch ptEntry.pte (pteditGetPfn lib.arch targetEntry.pmd)
  have keeps := running₃.keeps.write running.fourLevel running.mapped running.unshared ptIn pte
  have running₇ := running₃.withKeeps keeps
  have targetSame₇ : sys.pteIn w.kernel (mem.write slot pte) (0, target) =
      sys.pteIn w.kernel mem (0, target) :=
    running₃.pteIn_write targetIn ptIn frames.own ne.symm pte
  have table : mappedPage .x86_64 12 pte =
      mappedPage .x86_64 12 ((sys.tables w.kernel (0, target)).entry .pmd) := by
    have same := mappedPage_pteditSetPfn ptEntry.pte targetEntry.pmd
    rw [← arch] at same ⊢
    rw [← targetPmd]
    exact same
  have shows : ∀ value, ShowsPte sys w ((mem.write slot pte).write
      ((sys.tables w.kernel (0, target)).slot .pte) value) (0, pt) (0, target) := by
    intro value
    have entry := running₇.pteIn_write ptIn targetIn frames.own ne value
    have stored : sys.pteIn w.kernel (mem.write slot pte) (0, pt) = pte := read_write_self mem _ pte
    refine ⟨?_, by rw [entry, stored, table]⟩
    rw [entry, stored]
    refine (getLsbD_pteditSetPfn_low lib.arch _ _ 0 (by decide)).trans ?_
    rw [ptPte, ptSame]
    exact frames.present _ ptIn
  have shown : ShowsPte sys w (mem.write slot pte) (0, pt) (0, target) := by
    have same := shows (sys.pteIn w.kernel (mem.write slot pte) (0, target))
    rw [System.pteIn, write_read_self] at same
    exact same
  have secretByte : ∀ value, ByteMem.readBytes ((mem.write slot pte).write
      ((sys.tables w.kernel (0, target)).slot .pte) value)
      (mappedPage .x86_64 12 secretEntry.pte) 1 = [0x53] := by
    intro value
    rw [secretPte, secretSame, frames.readBytes_write running₇ secretIn targetIn value (by decide),
      frames.readBytes_write running₃ secretIn ptIn pte (by decide)]
    exact first
  refine (ensures_remapTarget running₇ targetIn frames.own frames.number ?_
    (targetPte.trans targetSame₇.symm) secretByte ?_ ?_ world₇
    (coherent₇.mono fun t old => old.1)).bind ?_
  · rw [targetSame₇, targetSame]
    exact frames.present _ targetIn
  · exact fun c world coherent => shown.ensures_loadWord running₇ ptIn targetIn frames.own frames.own
      world coherent
  · intro c before value world coherent
    have running' := running₇.withKeeps (running₇.keeps.write running.fourLevel running.mapped
      running.unshared targetIn before)
    refine ((shows before).ensures_storeWord running' ptIn targetIn frames.own frames.own world
      coherent value).mono ?_
    rintro - c' ⟨world', kept⟩
    rw [write_write_self] at world'
    exact ⟨world', kept⟩
  rintro lines c₈ ⟨rfl, world₈, coherent₈⟩
  refine (running₇.ensures_update ptIn world₈ (PteditEntry.pteOnly_of_valid rfl) coherent₈).bind ?_
  rintro - c₉ ⟨world₉, coherent₉⟩
  refine ⟨?_, ?_, coherent₉.mono fun t old => old.1⟩
  · rw [targetPte, targetSame, if_pos rfl]
    rfl
  · rw [world₉, write_write_self]
    refine congrArg w.withMem ?_
    change mem.write slot ptEntry.pte = mem
    rw [ptPte]
    exact write_read_self mem slot

theorem threePage_frames : OwnFrames sampleSystem threePageWorld.kernel 0 threePages where
  own := rfl
  number := by decide +kernel
  self := by
    have same : threePages.all (fun page =>
        decide (sampleSystem.host.getMm (sizeOfInt page.1) = some 0)) = true := by decide +kernel
    simp only [List.all_eq_true, decide_eq_true_eq] at same
    exact same
  present := by
    have set : threePages.all (fun page => decide ((sampleSystem.pteIn threePageWorld.kernel
        threePageWorld.kernel.mem page).getLsbD 0 = true)) = true := by decide +kernel
    simp only [List.all_eq_true, decide_eq_true_eq] at set
    exact set
  spares := by
    have frame : threePages.all (fun page => decide (0x5000 ≤ (mappedPage .x86_64 12
        (sampleSystem.pteIn threePageWorld.kernel threePageWorld.kernel.mem page)).toNat ∧
        (mappedPage .x86_64 12 (sampleSystem.pteIn threePageWorld.kernel
          threePageWorld.kernel.mem page)).toNat + 4096 ≤ 0x9000)) = true := by decide +kernel
    simp only [List.all_eq_true, decide_eq_true_eq] at frame
    intro page member mm addr user slot visited b inSlot
    have range := threePage_slot_range visited
    obtain ⟨low, high⟩ := frame page member
    unfold InWord at inSlot
    rw [BitVec.toNat_sub] at inSlot ⊢
    omega

/-- The program in the sample world, with the kernel implementation. -/
theorem ensures_mapPtManual_sample :
    (mapPtManual sampleKernelLib 0 0x1000 0x2000).Ensures sampleSystem.cores ⟨threePageWorld, ∅⟩
      fun lines _ => lines =
        [.targetEntry 0x6067, .entry 1, .worked, .target [0x53], .success, .done] := by
  have pte : sampleSystem.pteIn threePageWorld.kernel threePageWorld.kernel.mem (0, 0x1000) =
      0x6067 := by decide +kernel
  refine (ensures_mapPtManual threePage_running threePage_frames (by decide) rfl ?_).mono ?_
  · exact fun cached member => absurd member (Set.notMem_empty _)
  · rintro lines c ⟨rfl, -⟩
    rw [pte]
    rfl

section Pmap

variable {sys : System} {lib : Lib} {w : World} {pages : List (Pid × Word)} {mem : ByteMem}
  {c : Cores} {stale : Set Translation} {page : Pid × Word}

theorem Running.ensures_getPagesize (running : Running sys lib w pages mem)
    (world : c.world = w.withMem mem) (coherent : sys.Coherent c.world.kernel stale c.tlb) :
    (CoreProg.library (pteditGetPagesize lib)).Ensures sys.cores c fun size c' =>
      size = 4096 ∧ c'.world = w.withMem mem ∧ sys.Coherent c'.world.kernel stale c'.tlb := by
  have attached : Attached sys lib c.world := world ▸ running.drives.attached
  have size : c.world.kernel.realPageSize = 4096 := world ▸ running.flushes.size
  have answer : sysHandler sys (.ioctl lib.fd .getPagesize 0 fun _ => 0) c.world =
      some ((c.world.kernel.realPageSize.toInt, fun _ => 0), c.world) := by
    rw [sysHandler, attached.device]
    rfl
  refine (ensures_op coherent answer).bind ?_
  rintro r c' ⟨rfl, world', kept, -⟩
  rw [← world'] at kept
  refine ⟨?_, world'.trans world, kept⟩
  rw [size]
  rfl

/-- `ptedit_pmap` of a page. -/
theorem Running.ensures_pmap (running : Running sys lib w pages mem) (size : lib.pagesize = 4096)
    (world : c.world = w.withMem mem) (coherent : sys.Coherent c.world.kernel stale c.tlb)
    (entry : Word) :
    (CoreProg.library (pteditPmap lib (mappedPage .x86_64 12 entry) 4096)).Ensures sys.cores c
      fun pt c' => pt = (.umem (mappedPage .x86_64 12 entry) 4096, 0) ∧
        c'.world = w.withMem mem ∧ sys.Coherent c'.world.kernel stale c'.tlb := by
  have whole := toNat_mappedPage .x86_64 entry 12
  have rest : mappedPage .x86_64 12 entry % 4096#64 = 0 := by
    apply BitVec.eq_of_toNat_eq
    rw [BitVec.toNat_umod, whole]
    exact Nat.mul_mod_left _ _
  have start : mappedPage .x86_64 12 entry / 4096#64 * 4096#64 = mappedPage .x86_64 12 entry := by
    have small := (mappedPage .x86_64 12 entry).isLt
    apply BitVec.eq_of_toNat_eq
    rw [BitVec.toNat_mul, BitVec.toNat_udiv, whole, show (4096#64).toNat = 2 ^ 12 from rfl,
      Nat.mul_div_cancel _ (Nat.two_pow_pos 12)]
    omega
  have umem : sys.file lib.umem = .umem := running.prepared.umem
  have answer : sysHandler sys (.mmap lib.umem 4096 (mappedPage .x86_64 12 entry)) c.world =
      some (Mapping.umem (mappedPage .x86_64 12 entry) 4096, c.world) := by
    rw [sysHandler, umem]
    rfl
  unfold pteditPmap
  rw [size, show sizeOfInt 4096 = 4096#64 from rfl, rest, start]
  refine (ensures_op coherent answer).bind ?_
  rintro m c' ⟨rfl, world', kept, -⟩
  rw [← world'] at kept
  exact ⟨rfl, world'.trans world, kept⟩

/-- The frame that the program computes from the PMD entry. -/
theorem Running.ptPfn_eq (running : Running sys lib w pages mem) (member : page ∈ pages) :
    pteditCast ((sys.tables w.kernel page).entry .pmd) (pteditPgdT .x86_64) .pfn * 4096#64 =
      mappedPage .x86_64 12 ((sys.tables w.kernel page).entry .pmd) := by
  have paged := running.mapped.paged page member
  have field := pfn_eq_pteditCast .x86_64 .pmd ((sys.tables w.kernel page).entry .pmd)
  rw [pfn_eq_hardwareFrame (paged.frame .pmd (by decide)), ← pteditGetPfn_x86] at field
  rw [← pfn_mul_4k, field]
  rfl

end Pmap

/-- **`map_pt`.**  The same through `ptedit_pmap`, which maps the page table with no PTE of the
process changed. -/
theorem ensures_mapPt {sys : System} {lib : Lib} {w : World} {mm : Mm} {c : Cores}
    {target secret : Word} (running : Running sys lib w [(0, target), (0, secret)] w.kernel.mem)
    (frames : OwnFrames sys w.kernel mm [(0, target), (0, secret)]) (size : lib.pagesize = 4096)
    (world : c.world = w) (coherent : sys.Coherent c.world.kernel ∅ c.tlb) :
    (mapPt lib target secret).Ensures sys.cores c fun lines c' =>
      lines = [.targetEntry (sys.pteIn w.kernel w.kernel.mem (0, target)),
        .entry ((target >>> 12) &&& 0x1ff#64), .worked, .target [0x53], .success, .done] ∧
      c'.world = w.withMem (sys.filled w.kernel (sys.filled w.kernel w.kernel.mem (0, target) 0x42)
        (0, secret) 0x53) ∧
      sys.Coherent c'.world.kernel (sys.pageTranslations (0, target)) c'.tlb := by
  have targetIn : ((0, target) : Pid × Word) ∈ [(0, target), (0, secret)] := by simp
  have secretIn : ((0, secret) : Pid × Word) ∈ [(0, target), (0, secret)] := by simp
  have arch := running.drives.attached.arch.trans running.fourLevel.arch
  unfold mapPt
  refine (running.ensures_memset frames targetIn (fun _ _ => rfl) world coherent 0x42).bind ?_
  rintro - c₁ ⟨running₁, same₁, world₁, coherent₁⟩
  refine (running₁.ensures_memset frames secretIn same₁ world₁ coherent₁ 0x53).bind ?_
  rintro - c₂ ⟨running₂, same₂, world₂, coherent₂⟩
  have targetSame := same₂ _ targetIn
  have secretSame := same₂ _ secretIn
  have first := @readBytes_filled sys w (sys.filled w.kernel w.kernel.mem (0, target) 0x42)
    (0, secret) 0x53
  generalize sys.filled w.kernel (sys.filled w.kernel w.kernel.mem (0, target) 0x42) (0, secret)
    0x53 = mem at *
  refine (running₂.ensures_resolvePage secretIn world₂ coherent₂).bind ?_
  rintro secretEntry c₃ ⟨secretPte, -, world₃, coherent₃⟩
  refine (running₂.ensures_resolvePage targetIn world₃ coherent₃).bind ?_
  rintro targetEntry c₄ ⟨targetPte, targetPmd, world₄, coherent₄⟩
  refine (running₂.ensures_getPagesize world₄ coherent₄).bind ?_
  rintro factor c₅ ⟨rfl, world₅, coherent₅⟩
  refine (running₂.ensures_getPagesize world₅ coherent₅).bind ?_
  rintro length c₆ ⟨rfl, world₆, coherent₆⟩
  dsimp only
  rw [targetPmd, arch, show BitVec.ofInt 64 4096 = 4096#64 from rfl, running₂.ptPfn_eq targetIn]
  refine (running₂.ensures_pmap size world₆ coherent₆ _).bind ?_
  rintro pt c₇ ⟨rfl, world₇, coherent₇⟩
  have index := index_lt target
  let place := 0#64 + ((target >>> 12) &&& 0x1ff#64) * 8#64
  let table := mappedPage .x86_64 12 ((sys.tables w.kernel (0, target)).entry .pmd)
  have covers : (Mapping.umem table 4096).Covers place := by
    change (0#64 + ((target >>> 12) &&& 0x1ff#64) * 8#64).toNat + 8 ≤ 4096
    rw [BitVec.zero_add, mul_eight_eq, BitVec.toNat_ofNat]
    omega
  have physical : (Mapping.umem table 4096).physical place =
      (sys.tables w.kernel (0, target)).slot .pte := by
    rw [running₂.slot_eq targetIn]
    exact congrArg (table + ·) (BitVec.zero_add _)
  have secretByte : ∀ value, ByteMem.readBytes (mem.write
      ((sys.tables w.kernel (0, target)).slot .pte) value)
      (mappedPage .x86_64 12 secretEntry.pte) 1 = [0x53] := by
    intro value
    rw [secretPte, secretSame, frames.readBytes_write running₂ secretIn targetIn value (by decide)]
    exact first
  refine (ensures_remapTarget running₂ targetIn frames.own frames.number ?_ targetPte secretByte ?_
    ?_ world₇ coherent₇).bind ?_
  · rw [targetSame]
    exact frames.present _ targetIn
  · intro c world coherent
    have answer : sysHandler sys (.load (.umem table 4096) place) c.world =
        some (sys.pteIn w.kernel mem (0, target), c.world) := by
      rw [sysHandler, if_pos covers, physical, world]
      rfl
    refine (ensures_op coherent answer).mono ?_
    rintro value c' ⟨rfl, world', kept, -⟩
    rw [← world'] at kept
    exact ⟨rfl, world'.trans world, kept⟩
  · intro c before value world coherent
    have running' := running₂.withKeeps (running₂.keeps.write running.fourLevel running.mapped
      running.unshared targetIn before)
    have stored := running'.ensures_mappedStorePte targetIn world coherent covers physical value
    rw [Set.empty_union, write_write_self] at stored
    exact stored
  rintro lines c₈ ⟨rfl, world₈, coherent₈⟩
  refine ⟨?_, world₈, coherent₈⟩
  rw [targetPte, targetSame, if_pos rfl]
  rfl

/-- The program in the sample world. -/
theorem ensures_mapPt_sample :
    (mapPt sampleKernelLib 0x1000 0x2000).Ensures sampleSystem.cores ⟨threePageWorld, ∅⟩
      fun lines _ => lines =
        [.targetEntry 0x6067, .entry 1, .worked, .target [0x53], .success, .done] := by
  have pte : sampleSystem.pteIn threePageWorld.kernel threePageWorld.kernel.mem (0, 0x1000) =
      0x6067 := by decide +kernel
  have sub : ∀ page ∈ [((0 : Pid), (0x1000 : Word)), (0, 0x2000)], page ∈ threePages :=
    fun page member => List.mem_cons_of_mem _ member
  refine (ensures_mapPt (threePage_running.of_subset sub) (threePage_frames.of_subset sub) rfl rfl
    ?_).mono ?_
  · exact fun cached member => absurd member (Set.notMem_empty _)
  · rintro lines c ⟨rfl, -⟩
    rw [pte]
    rfl

end PTEditor
