import PTEditor.Demos.Memmap
import PTEditor.EntryTypes
import PTEditor.Foundation.Bits

/-!
# What the memory map lists

`memmapTree` is what `demos/memmap.c` takes for the page tables on x86_64.  Whatever memory
holds, the program prints the leaves of that tree in order, each by its level and its first
address, and adds their sizes up (`run_memmap`).
-/

namespace PTEditor

open ByteMem Sys

/-! ## Arrays that hold pages -/

/-- Two arrays of a page share no byte. -/
def ArraysApart (first second : Word) : Prop := ∀ b, InPage first 4096 b → ¬ InPage second 4096 b

/-- An array holds the page at a physical address. -/
def Holds (mem user : ByteMem) (array page : Word) : Prop :=
  ∀ i < 4096, user (array + BitVec.ofNat 64 i) = mem (page + BitVec.ofNat 64 i)

theorem holds_writeBytes (mem user : ByteMem) (array page : Word) :
    Holds mem (user.writeBytes array (mem.readBytes page 4096)) array page := by
  intro i inside
  have offset : (array + BitVec.ofNat 64 i - array).toNat = i := offset_sub_self array (by omega)
  rw [writeBytes, offset, readBytes, List.getElem?_map, List.getElem?_range inside]
  rfl

theorem Holds.writeBytes_of_apart {mem user : ByteMem} {array page other : Word}
    (holds : Holds mem user array page) (apart : ArraysApart array other)
    {bytes : List (BitVec 8)} (length : bytes.length = 4096) :
    Holds mem (user.writeBytes other bytes) array page := by
  intro i inside
  have here : InPage array 4096 (array + BitVec.ofNat 64 i) := by
    unfold InPage
    rw [offset_sub_self array (by omega)]
    exact inside
  have outside := apart _ here
  unfold InPage at outside
  rw [writeBytes_of_le user (by omega)]
  exact holds i inside

/-- The elements of the array are the entries of the table in the page. -/
theorem Holds.read {mem user : ByteMem} {array page : Word} (holds : Holds mem user array page)
    {i : Nat} (inside : i < 512) :
    user.read (array + BitVec.ofNat 64 i * 8#64) = mem.read (page + BitVec.ofNat 64 i * 8#64) := by
  have place : ∀ (base : Word) (j : Nat),
      base + BitVec.ofNat 64 i * 8#64 + BitVec.ofNat 64 j = base + BitVec.ofNat 64 (i * 8 + j) := by
    intro base j
    rw [BitVec.add_assoc, BitVec.ofNat_add, BitVec.ofNat_mul]
  unfold ByteMem.read readBytes
  refine congrArg wordOfBytes (List.map_congr_left fun j member => ?_)
  have small := List.mem_range.mp member
  rw [place, place]
  exact holds _ (by omega)

/-! ## The tree that the program walks -/

/-- The page tables as the program walks them: a user-space half, and no large pages but
those of the PMD. -/
def memmapTree : RadixTree Level Word Word Word where
  fanout := fun level => if level = .pgd then 256 else 512
  span := fun level => 2 ^ PteditPagingDefinition.x86_64.shift level
  slot := fun _ table i => table + BitVec.ofNat 64 i * 8#64
  next := fun level entry =>
    if level ≠ .pte ∧ entry.getLsbD 0 = true ∧ ¬ (level = .pmd ∧ entry.getLsbD 7 = true) then
      some (hardwareFrame entry * 4096#64)
    else
      none
  leaf := fun level entry =>
    entry.getLsbD 0 = true ∧ (level = .pte ∨ level = .pmd ∧ entry.getLsbD 7 = true)

/-- The pages that lines name, each with its level. -/
def pagesOf (lines : List MemmapLine) : List (Level × Word) :=
  lines.filterMap fun
    | .page address => some (.pte, address)
    | .largePage address => some (.pmd, address)
    | _ => none

/-- A leaf as the program prints it. -/
def leafPage (leaf : RadixTree.Leaf Level Word) : Level × Word :=
  (leaf.level, BitVec.ofNat 64 leaf.base)

/-- What the program has printed and added up for some leaves. -/
structure Memmap.Adds (map map' : Memmap) (leaves : List (RadixTree.Leaf Level Word)) : Prop where
  pages : pagesOf map'.lines = pagesOf map.lines ++ leaves.map leafPage
  memUsage : map'.memUsage = map.memUsage +
    BitVec.ofNat 64 (leaves.map fun leaf => memmapTree.span leaf.level).sum

theorem pagesOf_append (first second : List MemmapLine) :
    pagesOf (first ++ second) = pagesOf first ++ pagesOf second := List.filterMap_append

theorem pagesOf_dump (entry : Word) (type : String) : pagesOf (dump true entry type) = [] := rfl

namespace Memmap.Adds

variable {map map' map'' : Memmap} {leaves leaves' : List (RadixTree.Leaf Level Word)}

theorem refl (map : Memmap) : map.Adds map [] :=
  ⟨(List.append_nil _).symm, (BitVec.add_zero _).symm⟩

theorem trans (first : map.Adds map' leaves) (second : map'.Adds map'' leaves') :
    map.Adds map'' (leaves ++ leaves') := by
  constructor
  · rw [second.pages, first.pages, List.map_append, List.append_assoc]
  · rw [second.memUsage, first.memUsage, List.map_append, List.sum_append, BitVec.ofNat_add,
      BitVec.add_assoc]

/-- The lines of an entry name no page. -/
theorem dump (map : Memmap) (entry : Word) (type : String) :
    map.Adds (map.print (PTEditor.dump true entry type)) [] := by
  refine ⟨?_, (BitVec.add_zero _).symm⟩
  rw [Memmap.print, pagesOf_append, pagesOf_dump]
  rfl

theorem page (map : Memmap) {base : Nat} {address : Word} (entry : Word)
    (same : address = BitVec.ofNat 64 base) :
    map.Adds ((map.print [.page address]).use 4096) [⟨.pte, base, entry⟩] := by
  subst same
  exact ⟨pagesOf_append _ _, rfl⟩

theorem largePage (map : Memmap) {base : Nat} {address : Word} (entry : Word)
    (same : address = BitVec.ofNat 64 base) :
    map.Adds ((map.print [.largePage address]).use (2 * 1024 * 1024)) [⟨.pmd, base, entry⟩] := by
  subst same
  exact ⟨pagesOf_append _ _, rfl⟩

end Memmap.Adds

/-! ## Entries and addresses -/

theorem isPresent_x86 (entry : Word) : isPresent .x86_64 entry = entry.getLsbD 0 := by
  have test : entry &&& (1#64 <<< 0) ≠ 0 ↔ entry.getLsbD 0 = true :=
    Bits.and_one_shl_ne_zero_iff (by decide)
  rw [Bool.eq_iff_iff]
  exact decide_eq_true_iff.trans test

theorem isNormalPage_x86 (entry : Word) : isNormalPage .x86_64 entry = !entry.getLsbD 7 := by
  have test : entry &&& (1#64 <<< 7) ≠ 0 ↔ entry.getLsbD 7 = true :=
    Bits.and_one_shl_ne_zero_iff (by decide)
  rw [Bool.eq_iff_iff, Bool.not_eq_true', ← Bool.not_eq_true, ← test, not_not]
  exact decide_eq_true_iff

/-- Bits above a field add to it. -/
theorem or_indexBits {low : Word} {i shift value : Nat} (field : low = BitVec.ofNat 64 value)
    (small : value < 2 ^ shift) (fits : i * 2 ^ shift + value < 2 ^ 64) :
    low ||| indexBits i shift = BitVec.ofNat 64 (value + i * 2 ^ shift) := by
  subst field
  have below : i ≤ i * 2 ^ shift := Nat.le_mul_of_pos_right i (Nat.two_pow_pos shift)
  apply BitVec.eq_of_toNat_eq
  rw [BitVec.toNat_or, indexBits, BitVec.toNat_shiftLeft, BitVec.toNat_ofNat, BitVec.toNat_ofNat,
    BitVec.toNat_ofNat, Nat.mod_eq_of_lt (show value < 2 ^ 64 by omega),
    Nat.mod_eq_of_lt (show i < 2 ^ 64 by omega), Nat.shiftLeft_eq,
    Nat.mod_eq_of_lt (show i * 2 ^ shift < 2 ^ 64 by omega),
    Nat.mod_eq_of_lt (show value + i * 2 ^ shift < 2 ^ 64 by omega), Nat.or_comm,
    Nat.add_comm, ← Nat.shiftLeft_eq, Nat.shiftLeft_add_eq_or_of_lt small]

/-- The address that is printed for an entry of a PT. -/
theorem pageAddress_eq {pml4i pdpti pdi pti : Nat} (pml4 : pml4i < 256) (pdpt : pdpti < 512)
    (pd : pdi < 512) (pt : pti < 512) :
    pageAddress .x86_64 pml4i pdpti pdi pti =
      BitVec.ofNat 64 (pti * 2 ^ 12 + pdi * 2 ^ 21 + pdpti * 2 ^ 30 + pml4i * 2 ^ 39) := by
  have first : indexBits pti 12 = BitVec.ofNat 64 (pti * 2 ^ 12) := by
    rw [indexBits, BitVec.shiftLeft_eq_mul_twoPow, BitVec.ofNat_mul]
    rfl
  exact or_indexBits (or_indexBits (or_indexBits first (by omega) (by omega)) (by omega)
    (by omega)) (by omega) (by omega)

/-- The address that is printed for a large page. -/
theorem largePageAddress_eq {pml4i pdpti pdi : Nat} (pml4 : pml4i < 256) (pdpt : pdpti < 512)
    (pd : pdi < 512) :
    indexBits pdi 21 ||| indexBits pdpti 30 ||| indexBits pml4i 39 =
      BitVec.ofNat 64 (pdi * 2 ^ 21 + pdpti * 2 ^ 30 + pml4i * 2 ^ 39) := by
  have first : indexBits pdi 21 = BitVec.ofNat 64 (pdi * 2 ^ 21) := by
    rw [indexBits, BitVec.shiftLeft_eq_mul_twoPow, BitVec.ofNat_mul]
    rfl
  exact or_indexBits (or_indexBits first (by omega) (by omega)) (by omega) (by omega)

/-! ## What the entries stand for -/

section Below

variable {read : Word → Word} {entry : Word} {base : Nat} {rest : List Level}

theorem below_of_absent {level : Level} (absent : entry.getLsbD 0 = false) :
    memmapTree.below level entry base (memmapTree.leaves read rest) = [] := by
  have noNext : memmapTree.next level entry = none := by
    refine if_neg fun named => ?_
    rw [absent] at named
    exact Bool.false_ne_true named.2.1
  have noLeaf : ¬ memmapTree.leaf level entry = true := by
    intro leaf
    have present := (of_decide_eq_true leaf).1
    rw [absent] at present
    exact Bool.false_ne_true present
  unfold RadixTree.below
  rw [noNext]
  exact if_neg noLeaf

theorem below_of_table {level : Level} (ne : level ≠ .pte) (present : entry.getLsbD 0 = true)
    (table : level = .pmd → entry.getLsbD 7 = false) :
    memmapTree.below level entry base (memmapTree.leaves read rest) =
      memmapTree.leaves read rest (hardwareFrame entry * 4096#64) base := by
  have next : memmapTree.next level entry = some (hardwareFrame entry * 4096#64) := by
    refine if_pos ⟨ne, present, fun large => ?_⟩
    rw [table large.1] at large
    exact Bool.false_ne_true large.2
  unfold RadixTree.below
  rw [next]

theorem below_of_page {level : Level} (present : entry.getLsbD 0 = true)
    (page : level = .pte ∨ level = .pmd ∧ entry.getLsbD 7 = true) :
    memmapTree.below level entry base (memmapTree.leaves read rest) = [⟨level, base, entry⟩] := by
  have noNext : memmapTree.next level entry = none :=
    if_neg fun named => page.elim named.1 named.2.2
  have leaf : memmapTree.leaf level entry = true := decide_eq_true ⟨present, page⟩
  unfold RadixTree.below
  rw [noNext]
  exact if_pos leaf

end Below

/-! ## The runs -/

/-- What the program relies on: x86_64 with pages of 4 KiB, working page channels, and four
arrays that share no byte. -/
structure MemmapReady (sys : System) (lib : Lib) (arrays : MemmapArrays) (w : World) : Prop where
  channels : PageChannels sys lib w
  arch : lib.arch = .x86_64
  pages4k : lib.pagesize = 4096
  apart : List.Pairwise ArraysApart [arrays.pml4, arrays.pdpt, arrays.pd, arrays.pt]

/-- The arrays hold some pages of physical memory. -/
def HoldsAll (mem user : ByteMem) (held : List (Word × Word)) : Prop :=
  ∀ pair ∈ held, Holds mem user pair.1 pair.2

/-- Some leaves have been printed, and the arrays still hold the given pages. -/
def Listed (w : World) (held : List (Word × Word)) (map : Memmap)
    (leaves : List (RadixTree.Leaf Level Word)) (map' : Memmap) (w' : World) : Prop :=
  ∃ user, w' = { w with user } ∧ HoldsAll w.kernel.mem user held ∧ map.Adds map' leaves

/-- From every state in which the arrays hold the given pages, a part of the program prints
some leaves and leaves these pages in the arrays. -/
def Lists (sys : System) (w : World) (held : List (Word × Word)) (part : Memmap → Sys Memmap)
    (leaves : List (RadixTree.Leaf Level Word)) : Prop :=
  ∀ map user, HoldsAll w.kernel.mem user held →
    ∃ map' w', Prog.run (sysHandler sys) (part map) { w with user } = some (map', w') ∧
      Listed w held map leaves map' w'

namespace Lists

variable {sys : System} {lib : Lib} {arrays : MemmapArrays} {w : World}
  {held : List (Word × Word)} {part : Memmap → Sys Memmap}
  {leaves : List (RadixTree.Leaf Level Word)}

theorem skip : Lists sys w held pure [] :=
  fun map user holds => ⟨map, _, rfl, user, rfl, holds, Memmap.Adds.refl map⟩

/-- Printing an entry first adds no page. -/
theorem dump (lists : Lists sys w held part leaves) (entry : Word) (type : String) :
    Lists sys w held (fun map => part (map.print (PTEditor.dump true entry type))) leaves := by
  intro map user holds
  obtain ⟨map', w', done, user', same, kept, adds⟩ :=
    lists (map.print (PTEditor.dump true entry type)) user holds
  exact ⟨map', w', done, user', same, kept, (Memmap.Adds.dump map entry type).trans adds⟩

theorem run_element {user : ByteMem} {array page : Word} {i : Nat}
    (holds : Holds w.kernel.mem user array page) (inside : i < 512) :
    Prog.run (sysHandler sys) (element array i) { w with user } =
      some (w.kernel.mem.read (page + BitVec.ofNat 64 i * 8#64), { w with user }) := by
  rw [← holds.read inside]
  rfl

/-- An element of an array that holds a page is the entry in the page. -/
theorem element {f : Word → Memmap → Sys Memmap} {array page : Word} {i : Nat}
    (member : (array, page) ∈ held) (inside : i < 512)
    (lists : Lists sys w held (f (w.kernel.mem.read (page + BitVec.ofNat 64 i * 8#64))) leaves) :
    Lists sys w held
      (fun map => do
        let entry ← PTEditor.element array i
        f entry map) leaves := by
  intro map user holds
  obtain ⟨map', w', done, listed⟩ := lists map user holds
  refine ⟨map', w', ?_, listed⟩
  rw [Prog.run_bind_of_some (run_element (holds _ member) inside)]
  exact done

/-- Reading a page into an array that shares no byte with those in use. -/
theorem readPage (ready : MemmapReady sys lib arrays w) (garbage : PteditPage) {pfn array : Word}
    (apart : ∀ pair ∈ held, ArraysApart pair.1 array)
    (lists : Lists sys w ((array, pfn * 4096#64) :: held) part leaves) :
    Lists sys w held
      (fun map => do
        pteditReadPhysicalPage lib garbage pfn array
        part map) leaves := by
  intro map user holds
  have size : (sizeOfInt lib.pagesize).toNat = 4096 := by
    rw [ready.pages4k]
    rfl
  have offset : pageOffset lib pfn = pfn * 4096#64 := by
    rw [pageOffset, ready.pages4k]
    rfl
  have reads := run_pteditReadPhysicalPage (ready.channels.withUser user) garbage pfn array
  rw [size, offset] at reads
  obtain ⟨map', w', done, user', same, kept, adds⟩ := lists map
    (user.writeBytes array (w.kernel.mem.readBytes (pfn * 4096#64) 4096))
    (List.forall_mem_cons.mpr ⟨holds_writeBytes _ _ _ _, fun pair member =>
      (holds pair member).writeBytes_of_apart (apart pair member) (length_readBytes _ _ _)⟩)
  refine ⟨map', w', ?_, user', same, (List.forall_mem_cons.mp kept).2, adds⟩
  rw [Prog.run_bind_of_some reads]
  exact done

/-- The loop over the entries of a table lists the leaves below the table. -/
theorem loop {body : Nat → Memmap → Sys Memmap} {level : Level} {rest : List Level}
    {table : Word} {base n : Nat} (entries : memmapTree.fanout level = n)
    (each : ∀ i < n, Lists sys w held (body i)
      (memmapTree.below level (w.kernel.mem.read (table + BitVec.ofNat 64 i * 8#64))
        (base + i * memmapTree.span level) (memmapTree.leaves w.kernel.mem.read rest))) :
    Lists sys w held (Prog.loop n body)
      (memmapTree.leaves w.kernel.mem.read (level :: rest) table base) := by
  intro map user holds
  have step : ∀ i < n, ∀ map' w',
      Listed w held map ((List.range i).flatMap fun i =>
        memmapTree.below level (w.kernel.mem.read (table + BitVec.ofNat 64 i * 8#64))
          (base + i * memmapTree.span level) (memmapTree.leaves w.kernel.mem.read rest)) map' w' →
      ∃ map'' w'', Prog.run (sysHandler sys) (body i map') w' = some (map'', w'') ∧
        Listed w held map ((List.range (i + 1)).flatMap fun i =>
          memmapTree.below level (w.kernel.mem.read (table + BitVec.ofNat 64 i * 8#64))
            (base + i * memmapTree.span level) (memmapTree.leaves w.kernel.mem.read rest))
          map'' w'' := by
    intro i inside map' w' ⟨user', same, kept, adds⟩
    subst same
    obtain ⟨map'', w'', done, user'', same, kept', more⟩ := each i inside map' user' kept
    refine ⟨map'', w'', done, user'', same, kept', ?_⟩
    rw [List.range_succ, List.flatMap_append, List.flatMap_singleton]
    exact adds.trans more
  have started : Listed w held map ((List.range 0).flatMap fun i =>
      memmapTree.below level (w.kernel.mem.read (table + BitVec.ofNat 64 i * 8#64))
        (base + i * memmapTree.span level) (memmapTree.leaves w.kernel.mem.read rest)) map
      { w with user } := ⟨user, rfl, holds, Memmap.Adds.refl map⟩
  rw [RadixTree.leaves_cons, entries]
  exact Prog.run_loop step started

/-- An entry that names a table: it is printed, and the table is read and gone through. -/
theorem table (ready : MemmapReady sys lib arrays w) (garbage : PteditPage) {entry array : Word}
    {type : String} {body : Nat → Memmap → Sys Memmap} {level : Level} {rest : List Level}
    {base n : Nat} (apart : ∀ pair ∈ held, ArraysApart pair.1 array)
    (entries : memmapTree.fanout level = n)
    (each : ∀ i < n, Lists sys w ((array, hardwareFrame entry * 4096#64) :: held) (body i)
      (memmapTree.below level
        (w.kernel.mem.read (hardwareFrame entry * 4096#64 + BitVec.ofNat 64 i * 8#64))
        (base + i * memmapTree.span level) (memmapTree.leaves w.kernel.mem.read rest))) :
    Lists sys w held
      (fun map => do
        pteditReadPhysicalPage lib garbage (hardwareFrame entry) array
        Prog.loop n body (map.print (PTEditor.dump true entry type)))
      (memmapTree.leaves w.kernel.mem.read (level :: rest) (hardwareFrame entry * 4096#64) base) :=
  (readPage ready garbage apart (loop entries each)).dump entry type

end Lists

section Levels

variable {sys : System} {lib : Lib} {arrays : MemmapArrays} {w : World}
  {held : List (Word × Word)} {pml4i pdpti pdi pti : Nat}

theorem lists_memmapPt (ready : MemmapReady sys lib arrays w) {table : Word}
    (member : (arrays.pt, table) ∈ held) (pml4 : pml4i < 256) (pdpt : pdpti < 512)
    (pd : pdi < 512) (pt : pti < 512) :
    Lists sys w held (memmapPt lib arrays pml4i pdpti pdi pti)
      (memmapTree.below .pte (w.kernel.mem.read (table + BitVec.ofNat 64 pti * 8#64))
        (pml4i * 2 ^ 39 + pdpti * 2 ^ 30 + pdi * 2 ^ 21 + pti * 2 ^ 12)
        (memmapTree.leaves w.kernel.mem.read [])) := by
  unfold memmapPt
  rw [ready.arch]
  refine Lists.element member pt ?_
  simp only [isPresent_x86]
  cases present : (w.kernel.mem.read (table + BitVec.ofNat 64 pti * 8#64)).getLsbD 0 with
  | false =>
      rw [below_of_absent present]
      exact Lists.skip
  | true =>
      have address : pageAddress .x86_64 pml4i pdpti pdi pti =
          BitVec.ofNat 64 (pml4i * 2 ^ 39 + pdpti * 2 ^ 30 + pdi * 2 ^ 21 + pti * 2 ^ 12) := by
        rw [pageAddress_eq pml4 pdpt pd pt]
        exact congrArg (BitVec.ofNat 64) (by omega)
      rw [below_of_page present (.inl rfl)]
      have page : Lists sys w held
          (fun map => pure ((map.print [.page (pageAddress .x86_64 pml4i pdpti pdi pti)]).use 4096))
          [⟨.pte, _, w.kernel.mem.read (table + BitVec.ofNat 64 pti * 8#64)⟩] :=
        fun map user holds => ⟨_, _, rfl, user, rfl, holds, Memmap.Adds.page map _ address⟩
      exact page.dump _ _

/-- The entries of a PD. -/
theorem lists_memmapPd (ready : MemmapReady sys lib arrays w) (garbage : PteditPage) {table : Word}
    (member : (arrays.pd, table) ∈ held) (apart : ∀ pair ∈ held, ArraysApart pair.1 arrays.pt)
    (pml4 : pml4i < 256) (pdpt : pdpti < 512) (pd : pdi < 512) :
    Lists sys w held (memmapPd lib garbage arrays pml4i pdpti pdi)
      (memmapTree.below .pmd (w.kernel.mem.read (table + BitVec.ofNat 64 pdi * 8#64))
        (pml4i * 2 ^ 39 + pdpti * 2 ^ 30 + pdi * 2 ^ 21)
        (memmapTree.leaves w.kernel.mem.read [.pte])) := by
  unfold memmapPd
  rw [ready.arch]
  refine Lists.element member pd ?_
  simp only [isPresent_x86, isNormalPage_x86, pteditGetPfn_x86]
  cases present : (w.kernel.mem.read (table + BitVec.ofNat 64 pdi * 8#64)).getLsbD 0 with
  | false =>
      rw [below_of_absent present]
      exact Lists.skip
  | true =>
      cases size : (w.kernel.mem.read (table + BitVec.ofNat 64 pdi * 8#64)).getLsbD 7 with
      | false =>
          rw [below_of_table (by decide) present fun _ => size]
          exact Lists.table ready garbage apart rfl fun pti inside =>
            lists_memmapPt ready List.mem_cons_self pml4 pdpt pd inside
      | true =>
          have address : indexBits pdi 21 ||| indexBits pdpti 30 ||| indexBits pml4i 39 =
              BitVec.ofNat 64 (pml4i * 2 ^ 39 + pdpti * 2 ^ 30 + pdi * 2 ^ 21) := by
            rw [largePageAddress_eq pml4 pdpt pd]
            exact congrArg (BitVec.ofNat 64) (by omega)
          rw [below_of_page present (.inr ⟨rfl, size⟩)]
          have page : Lists sys w held
              (fun map => pure ((map.print [.largePage
                (indexBits pdi 21 ||| indexBits pdpti 30 ||| indexBits pml4i 39)]).use
                  (2 * 1024 * 1024)))
              [⟨.pmd, _, w.kernel.mem.read (table + BitVec.ofNat 64 pdi * 8#64)⟩] :=
            fun map user holds =>
              ⟨_, _, rfl, user, rfl, holds, Memmap.Adds.largePage map _ address⟩
          exact page.dump _ _

/-- A PD that an entry names. -/
theorem lists_memmapPdptEntry (ready : MemmapReady sys lib arrays w) (garbage : PteditPage)
    (pdApart : ∀ pair ∈ held, ArraysApart pair.1 arrays.pd)
    (ptApart : ∀ pair ∈ held, ArraysApart pair.1 arrays.pt)
    (pml4 : pml4i < 256) (pdpt : pdpti < 512) (pdptEntry : Word) :
    Lists sys w held (memmapPdptEntry lib garbage arrays pml4i pdpti pdptEntry)
      (memmapTree.leaves w.kernel.mem.read [.pmd, .pte] (hardwareFrame pdptEntry * 4096#64)
        (pml4i * 2 ^ 39 + pdpti * 2 ^ 30)) := by
  have apart := ready.apart
  simp only [List.pairwise_cons, List.mem_cons, List.not_mem_nil, or_false, forall_eq_or_imp,
    forall_eq] at apart
  unfold memmapPdptEntry
  rw [ready.arch, pteditGetPfn_x86]
  refine Lists.readPage ready garbage pdApart (Lists.loop rfl fun pdi inside => ?_)
  exact lists_memmapPd ready garbage List.mem_cons_self
    (List.forall_mem_cons.mpr ⟨apart.2.2.1, ptApart⟩) pml4 pdpt inside

/-- The entries of a PDPT. -/
theorem lists_memmapPdpt (ready : MemmapReady sys lib arrays w) (garbage : PteditPage)
    {table : Word} (member : (arrays.pdpt, table) ∈ held)
    (pdApart : ∀ pair ∈ held, ArraysApart pair.1 arrays.pd)
    (ptApart : ∀ pair ∈ held, ArraysApart pair.1 arrays.pt)
    (pml4 : pml4i < 256) (pdpt : pdpti < 512) :
    Lists sys w held (memmapPdpt lib garbage arrays pml4i pdpti)
      (memmapTree.below .pud (w.kernel.mem.read (table + BitVec.ofNat 64 pdpti * 8#64))
        (pml4i * 2 ^ 39 + pdpti * 2 ^ 30) (memmapTree.leaves w.kernel.mem.read [.pmd, .pte])) := by
  unfold memmapPdpt
  rw [ready.arch]
  refine Lists.element member pdpt ?_
  simp only [isPresent_x86]
  cases present : (w.kernel.mem.read (table + BitVec.ofNat 64 pdpti * 8#64)).getLsbD 0 with
  | false =>
      rw [below_of_absent present]
      exact Lists.skip
  | true =>
      rw [@below_of_table _ _ _ _ .pud (by decide) present nofun]
      exact (lists_memmapPdptEntry ready garbage pdApart ptApart pml4 pdpt _).dump _ _

/-- The entries of the PML4. -/
theorem lists_memmapPml4 (ready : MemmapReady sys lib arrays w) (garbage : PteditPage)
    {table : Word} (pml4 : pml4i < 256) :
    Lists sys w [(arrays.pml4, table)] (memmapPml4 lib garbage arrays pml4i)
      (memmapTree.below .pgd (w.kernel.mem.read (table + BitVec.ofNat 64 pml4i * 8#64))
        (pml4i * 2 ^ 39) (memmapTree.leaves w.kernel.mem.read [.pud, .pmd, .pte])) := by
  have apart := ready.apart
  simp only [List.pairwise_cons, List.mem_cons, List.not_mem_nil, or_false, forall_eq_or_imp,
    forall_eq] at apart
  unfold memmapPml4
  rw [ready.arch]
  refine Lists.element List.mem_cons_self (by omega) ?_
  simp only [isPresent_x86, pteditGetPfn_x86]
  cases present : (w.kernel.mem.read (table + BitVec.ofNat 64 pml4i * 8#64)).getLsbD 0 with
  | false =>
      rw [below_of_absent present]
      exact Lists.skip
  | true =>
      rw [@below_of_table _ _ _ _ .pgd (by decide) present nofun]
      exact Lists.table ready garbage (List.forall_mem_singleton.mpr apart.1.1) rfl
        fun pdpti inside => lists_memmapPdpt ready garbage List.mem_cons_self
          (List.forall_mem_cons.mpr ⟨apart.2.1.1, List.forall_mem_singleton.mpr apart.1.2.1⟩)
          (List.forall_mem_cons.mpr ⟨apart.2.1.2, List.forall_mem_singleton.mpr apart.1.2.2⟩)
          pml4 inside

end Levels

/-- **The program lists the leaves of its tree**, and adds up their sizes. -/
theorem run_memmap {sys : System} {lib : Lib} {arrays : MemmapArrays} {w : World} {pid : Word}
    (ready : MemmapReady sys lib arrays w) (garbage : PteditPage)
    (aligned : (sys.pagingRoot w.kernel (intOfSize pid)).toNat % 4096 = 0) :
    ∃ map w', Prog.run (sysHandler sys) (memmap lib garbage arrays pid) w = some (map, w') ∧
      w'.kernel = w.kernel ∧
      pagesOf map.lines = (memmapTree.leaves w.kernel.mem.read [.pgd, .pud, .pmd, .pte]
        (sys.pagingRoot w.kernel (intOfSize pid)) 0).map leafPage ∧
      map.memUsage = BitVec.ofNat 64 ((memmapTree.leaves w.kernel.mem.read
        [.pgd, .pud, .pmd, .pte] (sys.pagingRoot w.kernel (intOfSize pid)) 0).map
          fun leaf => memmapTree.span leaf.level).sum ∧
      map.lines.getLast? = some (.usedMemory (map.memUsage / 1024)) := by
  have root := run_pteditGetPagingRoot ready.channels.attached (intOfSize pid)
  have size := run_pteditGetPagesize (w := w) ready.channels.attached.device
  have frame : sys.pagingRoot w.kernel (intOfSize pid) / BitVec.ofInt 64 w.kernel.realPageSize.toInt
      * 4096#64 = sys.pagingRoot w.kernel (intOfSize pid) := by
    rw [← ready.channels.size, ready.pages4k]
    apply BitVec.eq_of_toNat_eq
    have whole := Nat.div_add_mod (sys.pagingRoot w.kernel (intOfSize pid)).toNat 4096
    have bound := (sys.pagingRoot w.kernel (intOfSize pid)).isLt
    rw [BitVec.toNat_mul, BitVec.toNat_udiv,
      show (BitVec.ofInt 64 (4096 : Pid).toInt).toNat = 4096 from rfl,
      show (4096#64).toNat = 4096 from rfl, Nat.mod_eq_of_lt (by omega)]
    omega
  have lists : Lists sys w [] (fun map => do
      pteditReadPhysicalPage lib garbage (sys.pagingRoot w.kernel (intOfSize pid) /
        BitVec.ofInt 64 w.kernel.realPageSize.toInt) arrays.pml4
      Prog.loop 256 (memmapPml4 lib garbage arrays) map)
      (memmapTree.leaves w.kernel.mem.read [.pgd, .pud, .pmd, .pte]
        (sys.pagingRoot w.kernel (intOfSize pid)) 0) := by
    refine Lists.readPage ready garbage (by simp) (Lists.loop rfl fun pml4i inside => ?_)
    rw [frame, Nat.zero_add]
    exact lists_memmapPml4 ready garbage inside
  obtain ⟨map, w', done, user, rfl, -, pages, memUsage⟩ :=
    lists ⟨[.dumpingPid pid], 0⟩ w.user nofun
  refine ⟨map.print [.usedMemory (map.memUsage / 1024)], World.mk w.kernel user, ?_, rfl, ?_, ?_,
    ?_⟩
  · have entries : firstLevelEntries lib.arch = 256 := by
      rw [ready.arch]
      rfl
    rw [memmap, Prog.run_bind_of_some root, Prog.run_bind_of_some size, entries]
    rw [← Prog.bind_bind, Prog.run_bind_of_some done]
    rfl
  · rw [Memmap.print, pagesOf_append, pages]
    simp [pagesOf]
  · rw [Memmap.print, memUsage]
    exact BitVec.zero_add _
  · rw [Memmap.print, List.getLast?_concat]

end PTEditor
