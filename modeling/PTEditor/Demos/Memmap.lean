import PTEditor.Foundation.Loop
import PTEditor.PhysicalPage
import PTEditor.Translation

/-!
# The memory map

`demos/memmap.c` from the successful `ptedit_init` on: it reads the page tables of a process
page by page into four arrays, prints every present entry and the address of every page, and
adds up the sizes of the pages.

On aarch64 with 4 KiB pages the tables have no PUD, and the program goes from the first
table to the PDs at once.
-/

namespace PTEditor

open ByteMem Sys

/-! ## The code -/

/-- `is_present`. -/
def isPresent (arch : Arch) (entry : Word) : Bool :=
  match arch with
  | .x86_64 => entry &&& (1#64 <<< 0) ≠ 0
  | .aarch64 => entry &&& 3 = 3

/-- `is_normal_page`. -/
def isNormalPage (arch : Arch) (entry : Word) : Bool :=
  match arch with
  | .x86_64 => entry &&& (1#64 <<< 7) = 0
  | .aarch64 => true

/-- `FIRST_LEVEL_ENTRIES`. -/
def firstLevelEntries : Arch → Nat
  | .x86_64 => 256
  | .aarch64 => 512

/-- What the program prints: one of the four lines that `ptedit_print_entry_line` makes of
an entry, after the name of its level, or the address of a page. -/
inductive MemmapLine where
  | dumpingPid (pid : Word)
  | entry (type : String) (entry : Word) (line : Nat)
  | page (address : Word)
  | largePage (address : Word)
  | usedMemory (kilobytes : Word)
  deriving DecidableEq, Repr

/-- What has been printed, and `mem_usage`. -/
structure Memmap where
  lines : List MemmapLine
  memUsage : Word
  deriving DecidableEq, Repr

/-- The arrays of `main`. -/
structure MemmapArrays where
  pml4 : Word
  pdpt : Word
  pd : Word
  pt : Word

/-- `dump`. -/
def dump (doDump : Bool) (entry : Word) (type : String) : List MemmapLine :=
  if doDump then (List.range 4).map (MemmapLine.entry type entry) else []

/-- Print some lines. -/
def Memmap.print (map : Memmap) (lines : List MemmapLine) : Memmap :=
  { map with lines := map.lines ++ lines }

/-- `mem_usage += size`. -/
def Memmap.use (map : Memmap) (size : Word) : Memmap :=
  { map with memUsage := map.memUsage + size }

/-- An element of an array of `size_t`. -/
def element (array : Word) (i : Nat) : Sys Word := do
  let bytes ← readUser (array + BitVec.ofNat 64 i * 8#64) 8
  pure (wordOfBytes bytes)

/-- `(size_t)i << shift`. -/
def indexBits (i shift : Nat) : Word := BitVec.ofNat 64 i <<< shift

/-- The address that is printed for an entry of a PT. -/
def pageAddress (arch : Arch) (pml4i pdpti pdi pti : Nat) : Word :=
  match arch with
  | .x86_64 => indexBits pti 12 ||| indexBits pdi 21 ||| indexBits pdpti 30 ||| indexBits pml4i 39
  | .aarch64 => indexBits pti 12 ||| indexBits pdi 21 ||| indexBits pml4i 30

variable (lib : Lib) (garbage : PteditPage) (arrays : MemmapArrays)

/-- The body of the loop over a PT. -/
def memmapPt (pml4i pdpti pdi pti : Nat) (map : Memmap) : Sys Memmap := do
  let ptEntry ← element arrays.pt pti
  if ¬ isPresent lib.arch ptEntry then
    pure map
  else
    let map := map.print (dump true ptEntry "        PT  ")
    pure ((map.print [.page (pageAddress lib.arch pml4i pdpti pdi pti)]).use 4096)

/-- The body of the loop over a PD. -/
def memmapPd (pml4i pdpti pdi : Nat) (map : Memmap) : Sys Memmap := do
  let pdEntry ← element arrays.pd pdi
  if ¬ isPresent lib.arch pdEntry then
    pure map
  else
    let map := map.print (dump true pdEntry "    PD  ")
    if isNormalPage lib.arch pdEntry then do
      pteditReadPhysicalPage lib garbage (pteditGetPfn lib.arch pdEntry) arrays.pt
      Prog.loop 512 (memmapPt lib arrays pml4i pdpti pdi) map
    else
      let address := indexBits pdi 21 ||| indexBits pdpti 30 ||| indexBits pml4i 39
      pure ((map.print [.largePage address]).use (2 * 1024 * 1024))

/-- Read a PD and go through it. -/
def memmapPdptEntry (pml4i pdpti : Nat) (pdptEntry : Word) (map : Memmap) : Sys Memmap := do
  pteditReadPhysicalPage lib garbage (pteditGetPfn lib.arch pdptEntry) arrays.pd
  Prog.loop 512 (memmapPd lib garbage arrays pml4i pdpti) map

/-- The body of the loop over a PDPT, which only x86_64 has. -/
def memmapPdpt (pml4i pdpti : Nat) (map : Memmap) : Sys Memmap := do
  let pdptEntry ← element arrays.pdpt pdpti
  if ¬ isPresent lib.arch pdptEntry then
    pure map
  else
    memmapPdptEntry lib garbage arrays pml4i pdpti pdptEntry (map.print (dump true pdptEntry "PDPT"))

/-- The body of the loop over the PML4. -/
def memmapPml4 (pml4i : Nat) (map : Memmap) : Sys Memmap := do
  let pml4Entry ← element arrays.pml4 pml4i
  if ¬ isPresent lib.arch pml4Entry then
    pure map
  else
    let map := map.print (dump true pml4Entry "")
    match lib.arch with
    | .x86_64 => do
        pteditReadPhysicalPage lib garbage (pteditGetPfn lib.arch pml4Entry) arrays.pdpt
        Prog.loop 512 (memmapPdpt lib garbage arrays pml4i) map
    -- the entry stands for that of a PDPT, whose index is never printed
    | .aarch64 => memmapPdptEntry lib garbage arrays pml4i 0 pml4Entry map

/-- `main`, between `ptedit_init` and `ptedit_cleanup`. -/
def memmap (pid : Word) : Sys Memmap := do
  let map := Memmap.mk [.dumpingPid pid] 0
  let root ← pteditGetPagingRoot lib (intOfSize pid)
  let pagesize ← pteditGetPagesize lib
  pteditReadPhysicalPage lib garbage (root / BitVec.ofInt 64 pagesize) arrays.pml4
  let map ← Prog.loop (firstLevelEntries lib.arch) (memmapPml4 lib garbage arrays) map
  pure (map.print [.usedMemory (map.memUsage / 1024)])

end PTEditor
