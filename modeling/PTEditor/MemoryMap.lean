import PTEditor.Demos.MemmapSpec

/-!
# The memory map is the mapped memory

`demos/memmap.c` prints the pages of a process in the order of their addresses.
`memmap_listsMapped_iff` says that these are the pages that the processor finds in the
user-space half of the tables exactly when none of them is a page of 1 GiB, and
`memmap_memUsage` that the program then reports the number of mapped addresses.
-/

namespace PTEditor

open ByteMem

/-- The user-space half of the page tables as the processor descends them. -/
def userTree : RadixTree Level Word Word Word :=
  { hardwareTree .x86_64 with fanout := memmapTree.fanout }

/-- An entry that maps a page of 1 GiB, which the program takes for a table. -/
def MapsHugePage (level : Level) (entry : Word) : Prop := level = .pud ∧ MapsPage .pud entry

/-- A listing names the page of an address, by its level and its first address, exactly when
the processor finds the address mapped by a page of that level. -/
def ListsMapped (read : Word → Word) (root : Word) (pages : List (Level × Word)) : Prop :=
  ∀ addr : Word, addr.toNat < 2 ^ 47 → ∀ level,
    (∃ entry, hardwareLeaf .x86_64 read root addr = some (level, entry)) ↔
      ∃ page ∈ pages, page.1 = level ∧ page.2.toNat ≤ addr.toNat ∧
        addr.toNat < page.2.toNat + 2 ^ PteditPagingDefinition.x86_64.shift level

section Trees

variable {read : Word → Word} {root : Word}

theorem tiles_memmapTree : memmapTree.Tiles [.pgd, .pud, .pmd, .pte] (2 ^ 47) :=
  ⟨by decide, by decide, by decide, by decide, by decide, by decide, by decide, by decide, trivial⟩

theorem tiles_userTree : userTree.Tiles [.pgd, .pud, .pmd, .pte] (2 ^ 47) :=
  ⟨by decide, by decide, by decide, by decide, by decide, by decide, by decide, by decide, trivial⟩

/-- The lower half of the addresses has the leaves of the user-space half of the tables. -/
theorem hardwareLeaf_eq_find {addr : Word} (low : addr.toNat < 2 ^ 47) :
    hardwareLeaf .x86_64 read root addr =
      userTree.find read [.pgd, .pud, .pmd, .pte] root addr.toNat := by
  change (hardwareTree .x86_64).find read [.pgd, .pud, .pmd, .pte] root addr.toNat = _
  apply RadixTree.find_congr
  case slot | next | leaf => rfl
  intro level member
  unfold RadixTree.index
  have levels : level = .pgd ∨ level = .pud ∨ level = .pmd ∨ level = .pte := by simpa using member
  rcases levels with rfl | rfl | rfl | rfl
  · change addr.toNat / 2 ^ 39 % 2 ^ 9 = addr.toNat / 2 ^ 39 % 256
    have small : addr.toNat / 2 ^ 39 < 256 := by omega
    omega
  · rfl
  · rfl
  · rfl

theorem hardwareLeaf_eq_some_iff {addr : Word} (low : addr.toNat < 2 ^ 47) {level : Level}
    {entry : Word} :
    hardwareLeaf .x86_64 read root addr = some (level, entry) ↔
      ∃ leaf ∈ userTree.leaves read [.pgd, .pud, .pmd, .pte] root 0,
        leaf.level = level ∧ leaf.entry = entry ∧ userTree.Covers leaf addr.toNat := by
  rw [hardwareLeaf_eq_find low]
  exact RadixTree.mem_leaves_iff tiles_userTree rfl (Nat.zero_le _) (by omega)

/-- A page of the program's tree is one of the PTE or of the PMD. -/
theorem level_ne_pud_of_mem {levels : List Level} {table : Word} {base : Nat}
    {leaf : RadixTree.Leaf Level Word} (member : leaf ∈ memmapTree.leaves read levels table base) :
    leaf.level ≠ .pud := by
  have page := of_decide_eq_true (RadixTree.leaf_of_mem_leaves member)
  rintro pud
  rcases page.2 with pte | ⟨pmd, -⟩
  · rw [pud] at pte
    cases pte
  · rw [pud] at pmd
    cases pmd

/-- Where no page of 1 GiB is listed the two trees have the same leaves. -/
theorem memmapTree_leaves {levels : List Level} {table : Word} {base : Nat}
    (noHuge : ∀ leaf ∈ userTree.leaves read levels table base,
      ¬ MapsHugePage leaf.level leaf.entry) :
    memmapTree.leaves read levels table base = userTree.leaves read levels table base := by
  apply RadixTree.leaves_congr
  case fanout | span | slot => rfl
  case noneListed => exact noHuge
  · intro level entry same
    have present : level = .pud → entry.getLsbD 0 = true → ¬ entry.getLsbD 7 = true :=
      fun pud here large => same ⟨pud, here, .inr ⟨.inl rfl, large⟩⟩
    constructor
    · refine if_congr ?_ rfl rfl
      unfold NamesTable MapsLarge
      refine and_congr_right fun _ => and_congr_right fun here => not_congr ?_
      constructor
      · exact fun ⟨pmd, large⟩ => ⟨.inr pmd, large⟩
      · rintro ⟨pud | pmd, large⟩
        · exact absurd large (present pud here)
        · exact ⟨pmd, large⟩
    · refine decide_eq_decide.mpr (and_congr_right fun here => or_congr_right ?_)
      constructor
      · exact fun ⟨pmd, large⟩ => ⟨.inr pmd, large⟩
      · rintro ⟨pud | pmd, large⟩
        · exact absurd large (present pud here)
        · exact ⟨pmd, large⟩
  · rintro level entry ⟨rfl, page⟩
    exact ⟨if_neg (not_namesTable_of_mapsPage page), decide_eq_true page⟩

/-- The processor finds a page of 1 GiB where the user-space half of the tables lists one. -/
theorem noHuge_of_noPud
    (noPud : ∀ addr : Word, addr.toNat < 2 ^ 47 → ∀ entry,
      hardwareLeaf .x86_64 read root addr ≠ some (.pud, entry)) :
    ∀ leaf ∈ userTree.leaves read [.pgd, .pud, .pmd, .pte] root 0,
      ¬ MapsHugePage leaf.level leaf.entry := by
  rintro leaf member ⟨pud, -⟩
  have within := RadixTree.within_leaves tiles_userTree member
  have positive : 0 < userTree.span leaf.level := Nat.two_pow_pos _
  have small : (BitVec.ofNat 64 leaf.base).toNat = leaf.base := by
    rw [BitVec.toNat_ofNat]
    exact Nat.mod_eq_of_lt (by omega)
  refine noPud (BitVec.ofNat 64 leaf.base) (by omega) leaf.entry ?_
  rw [hardwareLeaf_eq_some_iff (by omega), small]
  exact ⟨leaf, member, pud, rfl, Nat.le_refl _, Nat.lt_add_of_pos_right positive⟩

/-- The first address of a listed page. -/
theorem toNat_leafPage {T : RadixTree Level Word Word Word}
    (tiles : T.Tiles [.pgd, .pud, .pmd, .pte] (2 ^ 47)) {leaf : RadixTree.Leaf Level Word}
    (member : leaf ∈ T.leaves read [.pgd, .pud, .pmd, .pte] root 0) :
    (leafPage leaf).2.toNat = leaf.base := by
  have within := RadixTree.within_leaves tiles member
  unfold leafPage
  rw [BitVec.toNat_ofNat]
  exact Nat.mod_eq_of_lt (by omega)

/-- The leaves of the user-space half name the mapped pages. -/
theorem listsMapped_userTree : ListsMapped read root
    ((userTree.leaves read [.pgd, .pud, .pmd, .pte] root 0).map leafPage) := by
  intro addr low level
  simp only [hardwareLeaf_eq_some_iff low]
  constructor
  · rintro ⟨entry, leaf, member, rfl, rfl, lower, upper⟩
    have place := toNat_leafPage tiles_userTree member
    refine ⟨leafPage leaf, List.mem_map_of_mem member, rfl, ?_, ?_⟩
    · rwa [place]
    · rw [place]
      exact upper
  · rintro ⟨page, named, rfl, lower, upper⟩
    obtain ⟨leaf, member, rfl⟩ := List.mem_map.mp named
    have place := toNat_leafPage tiles_userTree member
    rw [place] at lower upper
    exact ⟨leaf.entry, leaf, member, rfl, rfl, lower, upper⟩

/-- The sizes of the mapped pages add up to the number of mapped addresses. -/
theorem mappedBytes_eq :
    ((userTree.leaves read [.pgd, .pud, .pmd, .pte] root 0).map
        fun leaf => userTree.span leaf.level).sum =
      Nat.count (fun addr => (translate .x86_64 read root (BitVec.ofNat 64 addr)).isSome = true)
        (2 ^ 47) := by
  rw [RadixTree.sum_span_leaves tiles_userTree root rfl]
  refine List.countP_congr fun addr inRange => ?_
  have low := List.mem_range.mp inRange
  have small : (BitVec.ofNat 64 addr).toNat = addr := by
    rw [BitVec.toNat_ofNat]
    exact Nat.mod_eq_of_lt (by omega)
  have leaf : hardwareLeaf .x86_64 read root (BitVec.ofNat 64 addr) =
      userTree.find read [.pgd, .pud, .pmd, .pte] root (BitVec.ofNat 64 addr).toNat :=
    hardwareLeaf_eq_find (by omega)
  rw [small] at leaf
  have same : (userTree.find read [.pgd, .pud, .pmd, .pte] root (0 + addr)).isSome =
      (translate .x86_64 read root (BitVec.ofNat 64 addr)).isSome := by
    rw [Nat.zero_add, ← leaf]
    exact Option.isSome_map.symm
  simp only [same]

end Trees

/-- **The memory map.**  The program prints pages that do not overlap, in the order of their
addresses.  They are exactly the pages that the processor finds in the user-space half of the
tables if and only if it finds no page of 1 GiB there. -/
theorem memmap_listsMapped_iff {sys : System} {lib : Lib} {arrays : MemmapArrays} {w : World}
    {pid : Word} (ready : MemmapReady sys lib arrays w) (garbage : PteditPage)
    (aligned : (sys.pagingRoot w.kernel (intOfSize pid)).toNat % 4096 = 0) :
    ∃ map w', Prog.run (sysHandler sys) (memmap lib garbage arrays pid) w = some (map, w') ∧
      w'.kernel = w.kernel ∧
      (pagesOf map.lines).Pairwise (fun first second =>
        first.2.toNat + 2 ^ PteditPagingDefinition.x86_64.shift first.1 ≤ second.2.toNat) ∧
      (ListsMapped w.kernel.mem.read (sys.pagingRoot w.kernel (intOfSize pid))
          (pagesOf map.lines) ↔
        ∀ addr : Word, addr.toNat < 2 ^ 47 → ∀ entry, hardwareLeaf .x86_64 w.kernel.mem.read
          (sys.pagingRoot w.kernel (intOfSize pid)) addr ≠ some (.pud, entry)) := by
  obtain ⟨map, w', done, kernel, pages, -, -⟩ := run_memmap ready garbage aligned
  refine ⟨map, w', done, kernel, ?_, ?_, ?_⟩
  · rw [pages, List.pairwise_map]
    refine (RadixTree.pairwise_leaves tiles_memmapTree _ 0).imp_of_mem
      fun {first second} inFirst inSecond after => ?_
    rw [toNat_leafPage tiles_memmapTree inFirst, toNat_leafPage tiles_memmapTree inSecond]
    exact after
  · -- a page of 1 GiB is never printed
    intro lists addr low entry huge
    obtain ⟨page, named, pud, -⟩ := (lists addr low .pud).mp ⟨entry, huge⟩
    rw [pages] at named
    obtain ⟨leaf, member, rfl⟩ := List.mem_map.mp named
    exact level_ne_pud_of_mem member pud
  · intro noPud
    rw [pages, memmapTree_leaves (noHuge_of_noPud noPud)]
    exact listsMapped_userTree

/-- Arrays that start at least a page apart share no byte. -/
theorem arraysApart_of_le {first second : Word} (after : first.toNat + 4096 ≤ second.toNat)
    (fits : second.toNat + 4096 ≤ 2 ^ 64) : ArraysApart first second := by
  intro b inFirst inSecond
  have b64 := b.isLt
  unfold InPage at inFirst inSecond
  rw [BitVec.toNat_sub] at inFirst inSecond
  omega

/-- Four arrays one after the other. -/
def sampleArrays : MemmapArrays where
  pml4 := 0x10000
  pdpt := 0x11000
  pd := 0x12000
  pt := 0x13000

theorem sample_memmapReady : MemmapReady sampleSystem sampleLib sampleArrays sampleWorld where
  channels := ⟨sample_attached, fun _ => rfl, rfl, physicalOf_directMap⟩
  arch := rfl
  pages4k := rfl
  apart := by
    have places : List.Pairwise
        (fun first second : Word =>
          first.toNat + 4096 ≤ second.toNat ∧ second.toNat + 4096 ≤ 2 ^ 64)
        [sampleArrays.pml4, sampleArrays.pdpt, sampleArrays.pd, sampleArrays.pt] := by
      decide
    exact places.imp fun between => arraysApart_of_le between.1 between.2

theorem sample_root :
    sampleSystem.pagingRoot sampleWorld.kernel (intOfSize 0) = 0x1000 :=
  pagingRoot_sample sampleMem

/-- No aligned word of the sample memory has bit 7 set. -/
theorem sample_small {slot : Word} (aligned : Aligned slot) :
    (sampleMem.read slot).getLsbD 7 = false := by
  have stores : ∀ store ∈ ([(0x1000, 0x2003), (0x2000, 0x3003), (0x3000, 0x4003),
      (0x4000, 0x5003)] : List (Word × Word)), Aligned store.1 := by
    simp [Aligned]
  rw [sampleMem, read_writeAll_zeros stores aligned]
  cases last : @lastStore (BitVec 64) [(0x1000, 0x2003), (0x2000, 0x3003), (0x3000, 0x4003),
      (0x4000, 0x5003)] slot with
  | none => rfl
  | some value =>
      have among := lastStore_mem last
      simp only [List.mem_cons, Prod.mk.injEq, List.not_mem_nil, or_false] at among
      rcases among with ⟨-, rfl⟩ | ⟨-, rfl⟩ | ⟨-, rfl⟩ | ⟨-, rfl⟩ <;> rfl

/-- The sample tables map no page of 1 GiB. -/
theorem sample_noPud {root addr entry : Word} (aligned : root.toNat % 4096 = 0) :
    hardwareLeaf .x86_64 sampleMem.read root addr ≠ some (.pud, entry) := by
  intro huge
  rw [hardwareLeaf_eq_getLast] at huge
  obtain ⟨visit, last, found⟩ := Option.bind_eq_some_iff.mp huge
  have member := List.mem_of_getLast? last
  have small : visit.entry.getLsbD 7 = false := by
    rw [Radix.entry_of_mem_walk member]
    exact sample_small (aligned_hardwareWalk aligned visit member)
  obtain ⟨maps, same⟩ := Option.ite_none_right_eq_some.mp found
  obtain ⟨level, -⟩ := Prod.mk.inj (Option.some.inj same)
  rcases maps.2 with pte | ⟨-, large⟩
  · rw [level] at pte
    cases pte
  · rw [small] at large
    cases large

theorem memmap_listsMapped_iff_sample :
    ∃ map w', Prog.run (sysHandler sampleSystem)
        (memmap sampleLib ⟨0, 0, 0, 0⟩ sampleArrays 0) sampleWorld = some (map, w') ∧
      ListsMapped sampleMem.read 0x1000 (pagesOf map.lines) := by
  have aligned : (sampleSystem.pagingRoot sampleWorld.kernel (intOfSize 0)).toNat % 4096 = 0 := by
    rw [sample_root]
    rfl
  obtain ⟨map, w', done, -, -, lists⟩ :=
    memmap_listsMapped_iff sample_memmapReady ⟨0, 0, 0, 0⟩ aligned
  rw [sample_root] at lists
  exact ⟨map, w', done, lists.mpr fun addr low entry => sample_noPud (by decide)⟩

/-- **The reported memory.**  Without pages of 1 GiB `mem_usage` is the number of user-space
addresses that the processor translates. -/
theorem memmap_memUsage {sys : System} {lib : Lib} {arrays : MemmapArrays} {w : World}
    {pid : Word} (ready : MemmapReady sys lib arrays w) (garbage : PteditPage)
    (aligned : (sys.pagingRoot w.kernel (intOfSize pid)).toNat % 4096 = 0)
    (noPud : ∀ addr : Word, addr.toNat < 2 ^ 47 → ∀ entry, hardwareLeaf .x86_64
      w.kernel.mem.read (sys.pagingRoot w.kernel (intOfSize pid)) addr ≠ some (.pud, entry)) :
    ∃ map w' kilobytes,
      Prog.run (sysHandler sys) (memmap lib garbage arrays pid) w = some (map, w') ∧
      map.memUsage.toNat = Nat.count (fun addr => (translate .x86_64 w.kernel.mem.read
        (sys.pagingRoot w.kernel (intOfSize pid)) (BitVec.ofNat 64 addr)).isSome = true)
          (2 ^ 47) ∧
      map.lines.getLast? = some (.usedMemory kilobytes) ∧
      kilobytes.toNat = map.memUsage.toNat / 1024 := by
  obtain ⟨map, w', done, -, -, memUsage, last⟩ := run_memmap ready garbage aligned
  refine ⟨map, w', _, done, ?_, last, rfl⟩
  have total := @mappedBytes_eq w.kernel.mem.read (sys.pagingRoot w.kernel (intOfSize pid))
  have bound : Nat.count (fun addr => (translate .x86_64 w.kernel.mem.read
      (sys.pagingRoot w.kernel (intOfSize pid)) (BitVec.ofNat 64 addr)).isSome = true) (2 ^ 47) ≤
        2 ^ 47 := Nat.count_le _
  rw [memUsage, memmapTree_leaves (noHuge_of_noPud noPud),
    show memmapTree.span = userTree.span from rfl, total, BitVec.toNat_ofNat]
  exact Nat.mod_eq_of_lt (by omega)

theorem memmap_memUsage_sample :
    ∃ map w', Prog.run (sysHandler sampleSystem)
        (memmap sampleLib ⟨0, 0, 0, 0⟩ sampleArrays 0) sampleWorld = some (map, w') ∧
      map.memUsage.toNat = Nat.count (fun addr => (translate .x86_64 sampleMem.read 0x1000
        (BitVec.ofNat 64 addr)).isSome = true) (2 ^ 47) := by
  have aligned : (sampleSystem.pagingRoot sampleWorld.kernel (intOfSize 0)).toNat % 4096 = 0 := by
    rw [sample_root]
    rfl
  obtain ⟨map, w', kilobytes, done, counted, -⟩ :=
    memmap_memUsage sample_memmapReady ⟨0, 0, 0, 0⟩ aligned
      fun addr low entry => sample_noPud aligned
  rw [sample_root] at counted
  exact ⟨map, w', done, counted⟩

end PTEditor
