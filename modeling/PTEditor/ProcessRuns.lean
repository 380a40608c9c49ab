import PTEditor.TlbCoherence

/-!
# Runs of a process

A process edits PTEs of its own and of other processes through the library, switches the
implementation, and loads and stores in between.  `ensures_processRun` says that the TLBs
cannot be noticed in such a run: whatever the CPUs cache and drop, it loads what it would on
a machine that translates every access anew (`DirectRun`) and leaves the same memory.
-/

namespace PTEditor

open ByteMem

/-- A string of bytes shares none with the slots that walks read. -/
def System.ApartFromWalks (sys : System) (k : Kernel) (phys : Word) (length : Nat) : Prop :=
  ∀ mm addr, UserSpace addr → ∀ slot ∈ sys.walkSlots k mm addr, ∀ b, InWord slot b →
    length ≤ (b - phys).toNat

section Runs

variable {sys : System} {lib : Lib} {w : World} {pages : List (Pid × Word)} {mem : ByteMem}
  {c : Cores} {mm : Mm} {stale : Set Translation}

theorem exists_leaf_of_translate {read : Word → Word} {root addr phys : Word}
    (place : translate .x86_64 read root addr = some phys) :
    ∃ leaf, hardwareLeaf .x86_64 read root addr = some leaf ∧
      leafAddress .x86_64 addr leaf = phys := Option.map_eq_some_iff.mp place

/-- A load on the CPUs reads what the tables say. -/
theorem Running.ensures_load (own : sys.host.current.theMm = some mm)
    (world : c.world = w.withMem mem) (coherent : sys.Coherent c.world.kernel stale c.tlb)
    {address phys : Word} {count : Nat} (user : UserSpace address)
    (fresh : ∀ cpu, (⟨cpu, mm, address⟩ : Translation) ∉ stale)
    (within : WithinPage address count)
    (place : translate .x86_64 mem.read (sys.root w.kernel mm) address = some phys) :
    (CoreProg.load address count).Ensures sys.cores c fun bytes c' =>
      bytes = mem.readBytes phys count ∧ c'.world = w.withMem mem ∧
        sys.Coherent c'.world.kernel stale c'.tlb := by
  obtain ⟨leaf, current, rfl⟩ := exists_leaf_of_translate place
  have here : hardwareLeaf .x86_64 c.world.kernel.mem.read (sys.root c.world.kernel mm) address =
      some leaf := by
    rw [world]
    exact current
  refine (PTEditor.ensures_load own user coherent fresh here within).mono ?_
  rintro bytes c' ⟨read, same, kept⟩
  rw [world] at read same kept
  rw [same]
  exact ⟨read, rfl, kept⟩

/-- A store on the CPUs writes where the tables say. -/
theorem Running.ensures_store (running : Running sys lib w pages mem)
    (own : sys.host.current.theMm = some mm)
    (world : c.world = w.withMem mem) (coherent : sys.Coherent c.world.kernel stale c.tlb)
    {address phys : Word} {bytes : List (BitVec 8)} (user : UserSpace address)
    (fresh : ∀ cpu, (⟨cpu, mm, address⟩ : Translation) ∉ stale)
    (within : WithinPage address bytes.length)
    (place : translate .x86_64 mem.read (sys.root w.kernel mm) address = some phys)
    (spares : sys.ApartFromWalks w.kernel phys bytes.length) :
    (CoreProg.store address bytes).Ensures sys.cores c fun _ c' =>
      c'.world = w.withMem (mem.writeBytes phys bytes) ∧
        sys.Coherent c'.world.kernel stale c'.tlb := by
  obtain ⟨leaf, current, rfl⟩ := exists_leaf_of_translate place
  have here : hardwareLeaf .x86_64 c.world.kernel.mem.read (sys.root c.world.kernel mm) address =
      some leaf := by
    rw [world]
    exact current
  refine (PTEditor.ensures_store own user coherent fresh here within).mono ?_
  rintro - c' ⟨same, kept⟩
  rw [world] at same kept
  rw [same]
  refine ⟨rfl, running.keeps.coherent_outside (fun mm addr user slot visited b inSlot => ?_) kept⟩
  exact writeBytes_of_le _ (spares mm addr user slot visited b inSlot)

/-- The library stays ready in a memory with the tables. -/
theorem Running.withKeeps (running : Running sys lib w pages mem) {mem' : ByteMem}
    (keeps : Keeps sys w.kernel pages mem') : Running sys lib w pages mem' where
  fourLevel := running.fourLevel
  loaded := running.loaded
  flushes := running.flushes
  mapped := running.mapped
  unshared := running.unshared
  prepared := running.prepared
  window := running.window
  keeps := keeps

/-- A switch leaves the library ready. -/
theorem Running.use (running : Running sys lib w pages mem) {implementation : Int}
    (window : implementation = pteditImplUser → ∀ page ∈ pages, sys.InWindow w.kernel page) :
    Running sys (sys.useImplementation lib w.kernel implementation) w pages mem where
  fourLevel := running.fourLevel
  loaded := running.loaded
  flushes := running.flushes
  mapped := running.mapped
  unshared := running.unshared
  prepared := running.prepared.use implementation
  window := fun selected => (use_user selected).elim running.window window
  keeps := running.keeps

end Runs

/-- What the memory below holds: page tables for addresses 0, `0x1000` and `0x2000`, whose pages
the process may write and has written, and an `S` in the last of the pages. -/
def threePageStores : List (Word × Word) :=
  [(0x1000, 0x2067), (0x2000, 0x3067), (0x3000, 0x4067), (0x4000, 0x5067), (0x4008, 0x6067),
    (0x4010, 0x7067), (0x7000, 0x53)]

/-- The tables are those of mm 0; every other mm has an empty root. -/
def threePageWorld : World where
  kernel := { sampleKernel with
    mem := ByteMem.writeAll (fun _ => 0) threePageStores
    pgd := fun mm => if mm = 0 then directMap 0x1000 else directMap 0x9000 }
  user := fun _ => 0

def threePages : List (Pid × Word) := [(0, 0), (0, 0x1000), (0, 0x2000)]

theorem threePage_read {slot : Word} (aligned : Aligned slot) :
    threePageWorld.kernel.mem.read slot = (lastStore threePageStores slot).getD 0 :=
  read_writeAll_zeros (by simp [threePageStores, Aligned]) aligned

/-- The only entries that name tables are the first ones of the upper tables. -/
theorem threePage_next {level : Level} {addr table index next : Word}
    (among : table ∈ [0x1000#64, 0x2000#64, 0x3000#64, 0x9000#64]) (small : index.toNat < 512)
    (named : (hardwareRadix .x86_64 addr).next level
      (threePageWorld.kernel.mem.read (table + index * 8#64)) = some next) :
    index = 0 ∧ (table, next) ∈ [(0x1000#64, 0x2000#64), (0x2000#64, 0x3000#64),
      (0x3000#64, 0x4000#64)] := by
  have tables : table.toNat = 0x1000 ∨ table.toNat = 0x2000 ∨ table.toNat = 0x3000 ∨
      table.toNat = 0x9000 := by
    simp only [List.mem_cons, List.not_mem_nil, or_false] at among
    rcases among with rfl | rfl | rfl | rfl <;> decide
  have place : (table + index * 8#64).toNat = table.toNat + index.toNat * 8 := by
    rw [BitVec.toNat_add, BitVec.toNat_mul, show (8#64).toNat = 8 from rfl]
    omega
  have root : Aligned table := by
    unfold Aligned
    omega
  obtain ⟨names, target⟩ := Option.ite_none_right_eq_some.mp named
  obtain rfl := Option.some.inj target
  rw [threePage_read (root.add (Aligned.mul_eight _))] at names ⊢
  cases last : lastStore threePageStores (table + index * 8#64) with
  | none =>
      rw [last] at names
      exact absurd names.2.1 (by decide)
  | some value =>
      have stored := lastStore_mem last
      simp only [threePageStores, List.mem_cons, Prod.mk.injEq, List.not_mem_nil, or_false]
        at stored
      -- an entry of a PT or a byte of a page stands in none of these tables
      have other : ∀ slot : Nat, (table + index * 8#64).toNat = slot →
          slot = 0x1000 ∨ slot = 0x2000 ∨ slot = 0x3000 ∨
            ¬ (0x4000 ≤ slot ∧ slot < 0x8000) := by
        intro slot same
        omega
      have first : ∀ first : Word, first.toNat % 4096 = 0 → table + index * 8#64 = first →
          index = 0 ∧ table = first := by
        intro first start same
        have toNat := congrArg BitVec.toNat same
        rw [place] at toNat
        exact ⟨BitVec.eq_of_toNat_eq (by change _ = 0; omega), BitVec.eq_of_toNat_eq (by omega)⟩
      rcases stored with ⟨slot, rfl⟩ | ⟨slot, rfl⟩ | ⟨slot, rfl⟩ | ⟨slot, rfl⟩ | ⟨slot, rfl⟩ |
        ⟨slot, rfl⟩ | ⟨slot, rfl⟩
      · obtain ⟨zero, rfl⟩ := first _ (by decide) slot
        exact ⟨zero, by decide⟩
      · obtain ⟨zero, rfl⟩ := first _ (by decide) slot
        exact ⟨zero, by decide⟩
      · obtain ⟨zero, rfl⟩ := first _ (by decide) slot
        exact ⟨zero, by decide⟩
      all_goals
        have outside := other _ (congrArg BitVec.toNat slot)
        exact absurd outside (by decide)

theorem indexField_lt (level : Level) (addr : Word) :
    (PteditPagingDefinition.x86_64.indexField level addr).toNat < 512 := by
  rw [PteditPagingDefinition.indexField, PteditPagingDefinition.toNat_bitField]
  have width : 2 ^ PteditPagingDefinition.x86_64.width level ≤ 512 := by cases level <;> decide
  have below := Nat.mod_lt (addr.toNat / 2 ^ PteditPagingDefinition.x86_64.shift level)
    (Nat.two_pow_pos (PteditPagingDefinition.x86_64.width level))
  omega

/-- A slot lies in its table. -/
theorem toNat_slot {table : Word} (level : Level) (addr : Word)
    (low : table.toNat + 4096 ≤ 2 ^ 64) :
    (table + PteditPagingDefinition.x86_64.indexField level addr * 8#64).toNat =
      table.toNat + (PteditPagingDefinition.x86_64.indexField level addr).toNat * 8 := by
  have small := indexField_lt level addr
  rw [BitVec.toNat_add, BitVec.toNat_mul, show (8#64).toNat = 8 from rfl]
  omega

/-- One level of a walk in that memory: the slot, or the slots below the first entry. -/
theorem threePage_walk_cons {addr table : Word} {level : Level} {rest : List Level}
    (among : table ∈ [0x1000#64, 0x2000#64, 0x3000#64, 0x9000#64]) {slot : Word}
    (member : slot ∈ ((hardwareRadix .x86_64 addr).walk threePageWorld.kernel.mem.read
      (level :: rest) table).map (·.slot)) :
    slot = table + PteditPagingDefinition.x86_64.indexField level addr * 8#64 ∨
      PteditPagingDefinition.x86_64.indexField level addr = 0 ∧ ∃ next,
        (table, next) ∈ [(0x1000#64, 0x2000#64), (0x2000#64, 0x3000#64), (0x3000#64, 0x4000#64)] ∧
        slot ∈ ((hardwareRadix .x86_64 addr).walk threePageWorld.kernel.mem.read rest next).map
          (·.slot) := by
  obtain ⟨visit, visited, rfl⟩ := List.mem_map.mp member
  rw [Radix.walk_cons] at visited
  rcases List.mem_cons.mp visited with rfl | later
  · exact .inl rfl
  · obtain ⟨next, named, later⟩ := Radix.mem_elim_walk.mp later
    obtain ⟨zero, follows⟩ := threePage_next among (indexField_lt level addr) named
    exact .inr ⟨zero, next, follows, List.mem_map_of_mem later⟩

/-- The slots that walks read lie in the tables above the PT, or in the PT for the addresses
below 2 MiB of mm 0. -/
theorem threePage_visited {mm : Mm} {addr slot : Word}
    (visited : slot ∈ sampleSystem.walkSlots threePageWorld.kernel mm addr) :
    ∃ table level, slot = table + PteditPagingDefinition.x86_64.indexField level addr * 8#64 ∧
      (table ∈ [0x1000#64, 0x2000#64, 0x3000#64, 0x9000#64] ∨ table = 0x4000 ∧ level = .pte ∧
        mm = 0 ∧ PteditPagingDefinition.x86_64.indexField .pgd addr = 0 ∧
        PteditPagingDefinition.x86_64.indexField .pud addr = 0 ∧
        PteditPagingDefinition.x86_64.indexField .pmd addr = 0) := by
  have root : sampleSystem.root threePageWorld.kernel mm = if mm = 0 then 0x1000 else 0x9000 := by
    change physicalOf (if mm = 0 then directMap 0x1000 else directMap 0x9000) = _
    split <;> exact physicalOf_directMap _
  unfold System.walkSlots hardwareWalk at visited
  rw [root, show hardwareLevels .x86_64 = [.pgd, .pud, .pmd, .pte] from rfl] at visited
  obtain here | ⟨pgd, next, follows, visited⟩ :=
    threePage_walk_cons (by split <;> decide) visited
  · exact ⟨_, _, here, .inl (by split <;> decide)⟩
  have own : mm = 0 := by
    by_contra other
    rw [if_neg other] at follows
    revert follows
    simp
  rw [if_pos own] at follows
  obtain rfl : next = 0x2000 := by simpa using follows
  obtain here | ⟨pud, next, follows, visited⟩ := threePage_walk_cons (by decide) visited
  · exact ⟨_, _, here, .inl (by decide)⟩
  obtain rfl : next = 0x3000 := by simpa using follows
  obtain here | ⟨pmd, next, follows, visited⟩ := threePage_walk_cons (by decide) visited
  · exact ⟨_, _, here, .inl (by decide)⟩
  obtain rfl : next = 0x4000 := by simpa using follows
  obtain ⟨visit, member, rfl⟩ := List.mem_map.mp visited
  have leaf : ∀ entry, (hardwareRadix .x86_64 addr).next .pte entry = none := by
    intro entry
    dsimp only [hardwareRadix]
    exact if_neg fun names => names.1 rfl
  rw [Radix.walk_cons, leaf] at member
  obtain rfl := List.mem_singleton.mp member
  exact ⟨_, _, rfl, .inr ⟨rfl, rfl, own, pgd, pud, pmd⟩⟩

/-- No walk reads a slot in a page. -/
theorem threePage_slot_range {mm : Mm} {addr slot : Word}
    (visited : slot ∈ sampleSystem.walkSlots threePageWorld.kernel mm addr) :
    slot.toNat + 8 ≤ 0x5000 ∨ 0x9000 ≤ slot.toNat ∧ slot.toNat + 8 ≤ 0xa000 := by
  obtain ⟨table, level, rfl, place⟩ := threePage_visited visited
  have small := indexField_lt level addr
  have range : table.toNat + 4096 ≤ 0x5000 ∨ table.toNat = 0x9000 := by
    obtain above | ⟨rfl, -⟩ := place
    · simp only [List.mem_cons, List.not_mem_nil, or_false] at above
      rcases above with rfl | rfl | rfl | rfl <;> decide
    · decide
  have inTable := @toNat_slot table level addr (by omega)
  omega

/-- The walks that read a slot of the PT are those of the addresses below 2 MiB in mm 0. -/
theorem threePage_pteSlot {mm : Mm} {addr slot : Word} (user : UserSpace addr)
    (inTable : 0x4000 ≤ slot.toNat ∧ slot.toNat < 0x5000)
    (visited : slot ∈ sampleSystem.walkSlots threePageWorld.kernel mm addr) :
    mm = 0 ∧ addr.toNat / 4096 = (slot.toNat - 0x4000) / 8 := by
  obtain ⟨table, level, rfl, above | ⟨rfl, rfl, own, pgd, pud, pmd⟩⟩ := threePage_visited visited
  · simp only [List.mem_cons, List.not_mem_nil, or_false] at above
    have range : table.toNat + 4096 ≤ 0x4000 ∨ table.toNat = 0x9000 := by
      rcases above with rfl | rfl | rfl | rfl <;> decide
    have small := indexField_lt level addr
    have place := @toNat_slot table level addr (by omega)
    omega
  have place := @toNat_slot 0x4000 .pte addr (by decide)
  have value : ∀ level, (PteditPagingDefinition.x86_64.indexField level addr).toNat =
      addr.toNat / 2 ^ PteditPagingDefinition.x86_64.shift level %
        2 ^ PteditPagingDefinition.x86_64.width level % 2 ^ 64 :=
    fun level => PteditPagingDefinition.toNat_bitField _ _ addr
  have upper : addr.toNat / 2 ^ 39 % 2 ^ 9 % 2 ^ 64 = 0 :=
    (value .pgd).symm.trans (congrArg BitVec.toNat pgd)
  have middle : addr.toNat / 2 ^ 30 % 2 ^ 9 % 2 ^ 64 = 0 :=
    (value .pud).symm.trans (congrArg BitVec.toNat pud)
  have lower : addr.toNat / 2 ^ 21 % 2 ^ 9 % 2 ^ 64 = 0 :=
    (value .pmd).symm.trans (congrArg BitVec.toNat pmd)
  have last : (PteditPagingDefinition.x86_64.indexField .pte addr).toNat =
      addr.toNat / 2 ^ 12 % 2 ^ 9 % 2 ^ 64 := value .pte
  refine ⟨own, ?_⟩
  unfold UserSpace at user
  rw [place, last, show (0x4000 : Word).toNat = 0x4000 from rfl]
  omega

theorem threePage_mapped : Mapped sampleSystem threePageWorld.kernel threePages :=
  have separate : Walk.Separate (sampleSystem.tables threePageWorld.kernel) threePages
      threePageWorld.kernel.mem :=
    Walk.separate_of_all (fun _ => rfl) (fun _ => rfl) (fun _ => rfl) (by decide +kernel)
      (by decide +kernel) (by decide +kernel)
  ⟨separate.paged, separate.aligned, separate.apart⟩

/-- No other address has the PTE of one of the pages. -/
theorem threePage_unshared : Unshared sampleSystem threePageWorld.kernel threePages where
  root := by
    intro mm
    change (physicalOf (if mm = 0 then directMap 0x1000 else directMap 0x9000)).toNat % 4096 = 0
    split <;> decide
  page := by
    have low : threePages.all (fun page =>
        decide (page.2.toNat % 4096 = 0 ∧ page.2.toNat < 2 ^ 47)) = true := by
      decide +kernel
    simp only [List.all_eq_true, decide_eq_true_eq] at low
    exact low
  own := by
    have slots : threePages.all (fun page => decide
        (((sampleSystem.tables threePageWorld.kernel page).slot .pte).toNat =
          0x4000 + page.2.toNat / 4096 * 8 ∧ page.2.toNat < 0x3000 ∧ page.1 = 0)) = true := by
      decide +kernel
    simp only [List.all_eq_true, decide_eq_true_eq] at slots
    intro page member mm addr user visited
    obtain ⟨place, low, self⟩ := slots page member
    obtain ⟨rfl, same⟩ := threePage_pteSlot user (by omega) visited
    refine ⟨?_, by omega⟩
    rw [self]
    rfl

theorem threePage_running : Running sampleSystem sampleKernelLib threePageWorld threePages
    threePageWorld.kernel.mem where
  fourLevel := sampleHost_fourLevel
  loaded := ⟨rfl, fun _ => rfl⟩
  flushes := ⟨rfl, rfl⟩
  mapped := threePage_mapped
  unshared := threePage_unshared
  prepared := ⟨rfl, rfl, rfl, rfl, .inl rfl, .inl rfl⟩
  window := fun user => absurd user (by decide)
  keeps := keeps_self _ _

end PTEditor
