import Mathlib.Data.Set.Basic
import PTEditor.Foundation.Ensures
import PTEditor.Library.Tables
import PTEditor.TlbFlush

/-!
# CPUs and their TLBs

A process runs the library's code next to loads and stores of its own, which the processor
translates.  CPUs cache translations, of any process and any user-space address, and drop
them as they like; an access may use whatever is cached (`System.cores`).  The flushes of
the module drop what they are documented to drop.

`System.Coherent` says that what is cached is what the page tables say, but for some
translations that may be stale.  The rules below say what the calls of the library, a load
and a store ensure.  Accessed and dirty bits and access rights are left out.
-/

namespace PTEditor

open ByteMem Sys

/-! ## The CPUs -/

/-- A translation that a CPU has cached, with the leaf that it found. -/
abbrev CachedTranslation : Type := Translation × (Level × Word)

/-- The root of the page tables of an mm. -/
def System.root (sys : System) (k : Kernel) (mm : Mm) : Word := sys.host.virtToPhys (k.pgd mm)

/-- The address is one of user space. -/
def UserSpace (address : Word) : Prop := address.toNat < 2 ^ 47

/-- The page tables have the leaf that is cached. -/
def System.Current (sys : System) (k : Kernel) (cached : CachedTranslation) : Prop :=
  hardwareLeaf .x86_64 k.mem.read (sys.root k cached.1.mm) cached.1.address = some cached.2

/-- The world of the library, and the translations that the CPUs have cached. -/
structure Cores where
  world : World
  tlb : Set CachedTranslation

/-- What a process does: the calls of the library, and loads and stores of its own. -/
inductive CoreOp where
  | library (op : SysOp)
  | load (address : Word) (count : Nat)
  | store (address : Word) (bytes : List (BitVec 8))

/-- What each of them returns. -/
def CoreOp.Res : CoreOp → Type
  | .library op => op.Res
  | .load _ _ => List (BitVec 8)
  | .store _ _ => Unit

/-- The cached translations change: some are dropped, and current ones are added. -/
def System.Drifts (sys : System) (k : Kernel) (tlb tlb' : Set CachedTranslation) : Prop :=
  ∀ cached ∈ tlb', cached ∈ tlb ∨ UserSpace cached.1.address ∧ sys.Current k cached

/-- What the flushes of an operation do not drop. -/
def keptAfter (op : KernelOp) (_ : CallState) (kept : Set Translation) : Option (Set Translation) :=
  some (match op with
  | .flushTlbMmRange mm start stop _ => kept \ translationsIn mm start stop
  | .flushTlbPageOnEachCpu vma addr => kept \ translationsOf vma addr
  | .tlbiAllOnEachCpu => kept \ Set.univ
  | _ => kept)

/-- The translations that a call of the library does not flush. -/
def System.kept (sys : System) (op : SysOp) (w : World) : Set Translation :=
  match op with
  | .ioctl fd cmd param arg =>
      match sys.file fd with
      | .device =>
          (Prog.watch (kernelHandler sys.host sys.copy) keptAfter
            (PTEditor.deviceIoctl sys.host cmd param) ⟨w.kernel, arg, w.user⟩ Set.univ).getD ∅
      | _ => Set.univ
  | _ => Set.univ

/-- An access stays in one page. -/
def WithinPage (address : Word) (count : Nat) : Prop := address.toNat % 4096 + count ≤ 4096

/-- Some CPU has the leaf of an address of the process cached. -/
def System.Translates (sys : System) (tlb : Set CachedTranslation) (address : Word)
    (leaf : Level × Word) : Prop :=
  ∃ cpu mm, sys.host.current.theMm = some mm ∧ (⟨cpu, mm, address⟩, leaf) ∈ tlb

/-- What the CPUs may do.  Access rights are not checked, and no accessed or dirty bit is set: an
access goes where its leaf says, and changes no entry. -/
def System.cores (sys : System) : Prog.Choices CoreOp CoreOp.Res Cores
  | .library op, m, r, m' => ∃ tlb w', sys.Drifts m.world.kernel m.tlb tlb ∧
      sysHandler sys op m.world = some (r, w') ∧
      m' = ⟨w', {cached ∈ tlb | cached.1 ∈ sys.kept op m.world}⟩
  | .load address count, m, r, m' => ∃ tlb leaf, sys.Drifts m.world.kernel m.tlb tlb ∧
      sys.Translates tlb address leaf ∧ WithinPage address count ∧
      r = m.world.kernel.mem.readBytes (leafAddress .x86_64 address leaf) count ∧
      m' = ⟨m.world, tlb⟩
  | .store address bytes, m, _, m' => ∃ tlb leaf, sys.Drifts m.world.kernel m.tlb tlb ∧
      sys.Translates tlb address leaf ∧ WithinPage address bytes.length ∧
      m' = ⟨m.world.withMem (m.world.kernel.mem.writeBytes (leafAddress .x86_64 address leaf)
        bytes), tlb⟩

/-- A piece of code of the process. -/
abbrev CoreProg (α : Type) : Type := Prog CoreOp CoreOp.Res α

namespace CoreProg

/-- Code of the library. -/
def library {α : Type} (p : Sys α) : CoreProg α :=
  p.translate fun op => Prog.perform (CoreOp.library op)

theorem library_bind {α β : Type} (p : Sys α) (f : α → Sys β) :
    library (p >>= f) = library p >>= fun value => library (f value) :=
  Prog.translate_bind p f

def load (address : Word) (count : Nat) : CoreProg (List (BitVec 8)) :=
  Prog.perform (CoreOp.load address count)

def store (address : Word) (bytes : List (BitVec 8)) : CoreProg Unit :=
  Prog.perform (CoreOp.store address bytes)

/-- A load of eight bytes. -/
def loadWord (address : Word) : CoreProg Word := do
  let bytes ← load address 8
  pure (wordOfBytes bytes)

/-- A store of eight bytes. -/
def storeWord (address value : Word) : CoreProg Unit := store address (bytesOfWord value)

end CoreProg

/-! ## Coherence -/

/-- But for some translations that may be stale, what is cached is current. -/
def System.Coherent (sys : System) (k : Kernel) (stale : Set Translation)
    (tlb : Set CachedTranslation) : Prop :=
  ∀ cached ∈ tlb, UserSpace cached.1.address ∧ (cached.1 ∈ stale ∨ sys.Current k cached)

namespace System.Coherent

variable {sys : System} {k : Kernel} {stale stale' : Set Translation}
  {tlb tlb' : Set CachedTranslation}

theorem drift (coherent : sys.Coherent k stale tlb) (drifts : sys.Drifts k tlb tlb') :
    sys.Coherent k stale tlb' := by
  intro cached member
  rcases drifts cached member with before | ⟨user, current⟩
  · exact coherent cached before
  · exact ⟨user, .inr current⟩

/-- A change of the tables that alters no other leaf than those of stale translations. -/
theorem change (coherent : sys.Coherent k stale tlb) {k' : Kernel}
    (more : ∀ t ∈ stale, t ∈ stale')
    (same : ∀ cached : CachedTranslation, UserSpace cached.1.address → cached.1 ∉ stale' →
      sys.Current k cached → sys.Current k' cached) : sys.Coherent k' stale' tlb := by
  intro cached member
  obtain ⟨user, valid⟩ := coherent cached member
  refine ⟨user, ?_⟩
  by_cases old : cached.1 ∈ stale'
  · exact .inl old
  · exact .inr (same cached user old (valid.resolve_left fun before => old (more _ before)))

/-- What is flushed is not stale any more. -/
theorem flush (coherent : sys.Coherent k stale tlb) {dropped : Set Translation}
    (gone : ∀ cached ∈ tlb', cached ∈ tlb ∧ cached.1 ∉ dropped) :
    sys.Coherent k (stale \ dropped) tlb' := by
  intro cached member
  obtain ⟨before, notDropped⟩ := gone cached member
  obtain ⟨user, valid⟩ := coherent cached before
  exact ⟨user, valid.imp_left fun old => ⟨old, notDropped⟩⟩

theorem mono (coherent : sys.Coherent k stale tlb) (more : ∀ t ∈ stale, t ∈ stale') :
    sys.Coherent k stale' tlb := by
  intro cached member
  obtain ⟨user, valid⟩ := coherent cached member
  exact ⟨user, valid.imp_left (more _)⟩

/-- An address that is not stale is translated as the tables say. -/
theorem leaf_of_translates (coherent : sys.Coherent k stale tlb) {address : Word}
    {leaf : Level × Word} {mm : Mm} (own : sys.host.current.theMm = some mm)
    (fresh : ∀ cpu, (⟨cpu, mm, address⟩ : Translation) ∉ stale)
    (translates : sys.Translates tlb address leaf) :
    hardwareLeaf .x86_64 k.mem.read (sys.root k mm) address = some leaf := by
  obtain ⟨cpu, mm', its, member⟩ := translates
  obtain rfl := Option.some.inj (own.symm.trans its)
  exact (coherent _ member).2.resolve_left (fresh cpu)

end System.Coherent

theorem System.drifts_refl (sys : System) (k : Kernel) (tlb : Set CachedTranslation) :
    sys.Drifts k tlb tlb := fun _ member => .inl member

/-- A CPU can look a current translation up. -/
theorem System.exists_translates {sys : System} {k : Kernel} {mm : Mm} {address : Word}
    {leaf : Level × Word} (own : sys.host.current.theMm = some mm) (user : UserSpace address)
    (current : hardwareLeaf .x86_64 k.mem.read (sys.root k mm) address = some leaf)
    (tlb : Set CachedTranslation) :
    ∃ tlb', sys.Drifts k tlb tlb' ∧ sys.Translates tlb' address leaf := by
  refine ⟨insert (⟨0, mm, address⟩, leaf) tlb, ?_, 0, mm, own, Set.mem_insert _ _⟩
  intro cached member
  rcases Set.mem_insert_iff.mp member with rfl | before
  · exact .inr ⟨user, current⟩
  · exact .inl before

/-! ## What the flushes drop -/

/-- What is not flushed may be stale. -/
theorem kept_subset_stale {op : KernelOp} {s : CallState} {kept kept' stale stale' : Set Translation}
    (within : kept ⊆ stale) (kepts : keptAfter op s kept = some kept')
    (stales : staleAfter op s stale = some stale') : kept' ⊆ stale' := by
  obtain rfl := Option.some.inj kepts
  obtain rfl := Option.some.inj stales
  cases op with
  | setEntry | fromUserPage => exact fun _ _ => trivial
  | flushTlbMmRange | flushTlbPageOnEachCpu | tlbiAllOnEachCpu =>
      exact fun t member => ⟨within member.1, member.2⟩
  | _ => exact within

/-! ## What the library ensures -/

/-- The calls of the library that only read. -/
def ReadsOnly (lib : Lib) : SysOp → Prop
  | .ioctl fd cmd _ _ => fd = lib.fd ∧ (cmd = .vmResolve ∨ cmd = .getRoot)
  | .pwrite _ _ _ | .store _ _ _ | .writeUser _ _ => False
  | _ => True

theorem readsOnly_allowsReads (lib : Lib) : AllowsReads lib (ReadsOnly lib) :=
  ⟨fun _ _ => ⟨rfl, .inl rfl⟩, fun _ _ => ⟨rfl, .inr rfl⟩, fun _ _ => trivial, fun _ => trivial,
    trivial⟩

section Library

variable {sys : System} {lib : Lib} {w : World} {c : Cores} {stale : Set Translation}
  {method : TlbMethod} {size : Pid}

/-- Such a call leaves the world as it is. -/
theorem world_eq_of_readsOnly (attached : Attached sys lib w) {op : SysOp}
    (only : ReadsOnly lib op) {r : op.Res} {w' : World}
    (answer : sysHandler sys op w = some (r, w')) : w' = w := by
  cases op with
  | ioctl fd cmd param arg =>
      obtain ⟨rfl, rfl | rfl⟩ := only
      · rw [answer_ioctl attached, System.deviceIoctl, deviceIoctl, run_vmResolve] at answer
        exact (Prod.mk.inj (Option.some.inj answer)).2.symm
      · rw [answer_ioctl attached, System.deviceIoctl, deviceIoctl, run_getRoot] at answer
        dsimp only at answer
        split at answer <;> exact (Prod.mk.inj (Option.some.inj answer)).2.symm
  | pread fd count offset =>
      rw [sysHandler] at answer
      cases file : sys.file fd <;> rw [file] at answer <;>
        exact (Prod.mk.inj (Option.some.inj answer)).2.symm
  | mmap fd length offset =>
      rw [sysHandler] at answer
      cases file : sys.file fd <;> rw [file] at answer <;>
        exact (Prod.mk.inj (Option.some.inj answer)).2.symm
  | load mapping address =>
      obtain ⟨-, done⟩ := Option.ite_none_right_eq_some.mp answer
      exact (Prod.mk.inj (Option.some.inj done)).2.symm
  | readUser buffer count => exact (Prod.mk.inj (Option.some.inj answer)).2.symm
  | pwrite | store | writeUser => exact only.elim
  | crash => cases answer

/-- A call of the library that is answered. -/
theorem ensures_op {op : SysOp} {r : op.Res} {w' : World}
    (coherent : sys.Coherent c.world.kernel stale c.tlb)
    (answer : sysHandler sys op c.world = some (r, w')) :
    (Prog.perform (CoreOp.library op) : CoreProg op.Res).Ensures sys.cores c fun r' c' =>
      r' = r ∧ c'.world = w' ∧ sys.Coherent c.world.kernel stale c'.tlb ∧
        ∀ cached ∈ c'.tlb, cached.1 ∈ sys.kept op c.world := by
  refine ⟨⟨r, _, c.tlb, w', sys.drifts_refl _ _, answer, rfl⟩, ?_⟩
  rintro r' _ ⟨tlb, w'', drifts, answer', rfl⟩
  obtain ⟨rfl, rfl⟩ := Prod.mk.inj (Option.some.inj (answer.symm.trans answer'))
  have kept := coherent.drift drifts
  exact ⟨rfl, rfl, fun cached member => kept cached member.1, fun cached member => member.2⟩

/-- **Reading.**  Code that only reads returns what it returns without the TLB. -/
theorem ensures_reading {α : Type} {p : Sys α} {value : α} {w' : World}
    (attached : Attached sys lib c.world) (only : p.Performs (ReadsOnly lib))
    (done : Prog.run (sysHandler sys) p c.world = some (value, w'))
    (coherent : sys.Coherent c.world.kernel stale c.tlb) :
    (CoreProg.library p).Ensures sys.cores c fun value' c' =>
      value' = value ∧ c'.world = c.world ∧ sys.Coherent c.world.kernel stale c'.tlb := by
  let inv : World → Cores → Prop := fun t c' =>
    t = c.world ∧ c'.world = c.world ∧ sys.Coherent c.world.kernel stale c'.tlb
  have each : ∀ op, ReadsOnly lib op → ∀ t c' r t', inv t c' → sysHandler sys op t = some (r, t') →
      (Prog.perform (CoreOp.library op) : CoreProg op.Res).Ensures sys.cores c' fun r' c'' =>
        r' = r ∧ inv t' c'' := by
    rintro op reads t c' r t' ⟨rfl, same, coherent⟩ answer
    obtain rfl := world_eq_of_readsOnly attached reads answer
    rw [← same] at coherent answer
    refine (ensures_op coherent answer).mono ?_
    rintro r' c'' ⟨rfl, world, kept, -⟩
    rw [same] at world kept
    exact ⟨rfl, rfl, world, kept⟩
  refine (Prog.ensures_translate each only ⟨rfl, rfl, coherent⟩ done).mono ?_
  rintro value' c' ⟨rfl, -, kept⟩
  exact ⟨rfl, kept⟩

/-- A request that leaves few translations stale keeps few. -/
theorem kept_subset {op : SysOp} (stales : sys.staleAfter op w Set.univ = some stale)
    (request : ∃ fd cmd param arg, op = .ioctl fd cmd param arg) : sys.kept op w ⊆ stale := by
  obtain ⟨fd, cmd, param, arg, rfl⟩ := request
  intro t member
  rw [System.kept] at member
  rw [System.staleAfter] at stales
  cases file : sys.file fd with
  | device =>
      rw [file] at member stales
      dsimp only at member stales
      cases kepts : Prog.watch (kernelHandler sys.host sys.copy) keptAfter
          (PTEditor.deviceIoctl sys.host cmd param) ⟨w.kernel, arg, w.user⟩ Set.univ with
      | none =>
          rw [kepts] at member
          exact member.elim
      | some kept =>
          rw [kepts] at member
          have within : kept ⊆ stale := Prog.watch_related
            (fun op s g g' k k' => kept_subset_stale) (Set.Subset.refl _) kepts stales
          exact within member
  | _ =>
      rw [file] at stales
      obtain rfl := Option.some.inj stales
      trivial

/-- A request drops what it is known to leave fresh when everything may be stale. -/
theorem ensures_ioctl {α : Type} {cmd : Cmd} {param : Word} {arg : Block} {value : α} {w' : World}
    {dropped : Set Translation} (coherent : sys.Coherent c.world.kernel stale c.tlb)
    (done : Prog.run (sysHandler sys) (ioctl lib.fd cmd param arg >>= fun _ => pure value) c.world =
      some (value, w'))
    (leaves : Leaves sys (ioctl lib.fd cmd param arg >>= fun _ => pure value) c.world Set.univ
      (Set.univ \ dropped)) :
    (CoreProg.library (ioctl lib.fd cmd param arg >>= fun _ => pure value)).Ensures sys.cores c
      fun _ c' => c'.world = w' ∧ sys.Coherent c.world.kernel stale c'.tlb ∧
        ∀ cached ∈ c'.tlb, cached.1 ∉ dropped := by
  obtain ⟨⟨r, w₁⟩, answer, rest⟩ := Option.bind_eq_some_iff.mp done
  obtain ⟨-, rfl⟩ := Prod.mk.inj (Option.some.inj rest)
  obtain ⟨stale', stales, last⟩ :=
    Option.bind_eq_some_iff.mp (leaves.watch_eq (Option.isSome_of_mem done))
  rw [answer] at last
  obtain rfl := Option.some.inj last
  have flushes := kept_subset stales ⟨_, _, _, _, rfl⟩
  refine (ensures_op coherent answer).bind ?_
  rintro r' c' ⟨-, world, kept, only⟩
  exact ⟨world, kept, fun cached member => (flushes (only cached member)).2⟩

/-- A flush for a process and an address. -/
theorem ensures_pteditInvalidateTlbPid (attached : Attached sys lib c.world)
    (setup : FlushesWith method size c.world) (pid : Pid) (address : Word)
    (coherent : sys.Coherent c.world.kernel stale c.tlb) :
    (CoreProg.library (pteditInvalidateTlbPid lib pid address)).Ensures sys.cores c fun _ c' =>
      c'.world = c.world ∧ sys.Coherent c.world.kernel
        (stale \ flushedBy sys.host size method pid address) c'.tlb := by
  refine (ensures_ioctl coherent (run_pteditInvalidateTlbPid attached pid address)
    (leaves_pteditInvalidateTlbPid attached setup pid address Set.univ)).mono ?_
  rintro - c' ⟨world, kept, gone⟩
  exact ⟨world, kept.flush fun cached member => ⟨member, gone cached member⟩⟩

/-- A flush for the calling process, which the module names by its number in the initial pid
namespace. -/
theorem ensures_pteditInvalidateTlb (attached : Attached sys lib c.world)
    (setup : FlushesWith method size c.world) (address : Word)
    (coherent : sys.Coherent c.world.kernel stale c.tlb) :
    (CoreProg.library (pteditInvalidateTlb lib address)).Ensures sys.cores c fun _ c' =>
      c'.world = c.world ∧ sys.Coherent c.world.kernel
        (stale \ flushedBy sys.host size method sys.host.current.nr address) c'.tlb := by
  refine (ensures_ioctl coherent (run_pteditInvalidateTlb attached address)
    (leaves_pteditInvalidateTlb attached setup address Set.univ)).mono ?_
  rintro - c' ⟨world, kept, gone⟩
  exact ⟨world, kept.flush fun cached member => ⟨member, gone cached member⟩⟩

/-- An update by the module. -/
theorem ensures_pteditUpdateKernel (attached : Attached sys lib c.world)
    (setup : FlushesWith method size c.world) {pid : Pid} {mm : Mm}
    (live : sys.host.getMm (sizeOfInt pid) = some mm) (address : Word) (vm : PteditEntry)
    (coherent : sys.Coherent c.world.kernel stale c.tlb) :
    (CoreProg.library (pteditUpdateKernel lib address pid vm)).Ensures sys.cores c fun _ c' =>
      c'.world = c.world.withMem (c.world.kernel.mem.writeAll (kernelStores sys.host c.world.kernel
        { vm with vaddr := address, pid := sizeOfInt pid })) ∧
      sys.Coherent c.world.kernel stale c'.tlb ∧
      ∀ cached ∈ c'.tlb, cached.1 ∉ flushedBy sys.host size method pid address :=
  ensures_ioctl coherent (run_pteditUpdateKernel attached address pid vm)
    (leaves_pteditUpdateKernel attached setup live address vm)

end Library

/-! ## Loads and stores -/

section Accesses

variable {sys : System} {c : Cores} {stale : Set Translation} {mm : Mm} {address : Word}
  {leaf : Level × Word}

/-- A load of fresh addresses reads the page that the tables name. -/
theorem ensures_load (own : sys.host.current.theMm = some mm) (user : UserSpace address)
    (coherent : sys.Coherent c.world.kernel stale c.tlb)
    (fresh : ∀ cpu, (⟨cpu, mm, address⟩ : Translation) ∉ stale)
    (current : hardwareLeaf .x86_64 c.world.kernel.mem.read (sys.root c.world.kernel mm) address =
      some leaf) {count : Nat} (within : WithinPage address count) :
    (CoreProg.load address count).Ensures sys.cores c fun bytes c' =>
      bytes = c.world.kernel.mem.readBytes (leafAddress .x86_64 address leaf) count ∧
        c'.world = c.world ∧ sys.Coherent c.world.kernel stale c'.tlb := by
  obtain ⟨tlb, drifts, translates⟩ := System.exists_translates own user current c.tlb
  refine ⟨⟨_, _, tlb, leaf, drifts, translates, within, rfl, rfl⟩, ?_⟩
  rintro bytes c' ⟨tlb, leaf', drifts, translates, -, rfl, rfl⟩
  have kept := coherent.drift drifts
  have found := kept.leaf_of_translates own fresh translates
  obtain rfl := Option.some.inj (current.symm.trans found)
  exact ⟨rfl, rfl, kept⟩

/-- A store to a fresh address writes the page that the tables name. -/
theorem ensures_store (own : sys.host.current.theMm = some mm) (user : UserSpace address)
    (coherent : sys.Coherent c.world.kernel stale c.tlb)
    (fresh : ∀ cpu, (⟨cpu, mm, address⟩ : Translation) ∉ stale)
    (current : hardwareLeaf .x86_64 c.world.kernel.mem.read (sys.root c.world.kernel mm) address =
      some leaf) {bytes : List (BitVec 8)} (within : WithinPage address bytes.length) :
    (CoreProg.store address bytes).Ensures sys.cores c fun _ c' =>
      c'.world = c.world.withMem (c.world.kernel.mem.writeBytes (leafAddress .x86_64 address leaf)
        bytes) ∧ sys.Coherent c.world.kernel stale c'.tlb := by
  obtain ⟨tlb, drifts, translates⟩ := System.exists_translates own user current c.tlb
  refine ⟨⟨(), _, tlb, leaf, drifts, translates, within, rfl⟩, ?_⟩
  rintro - c' ⟨tlb, leaf', drifts, translates, -, rfl⟩
  have kept := coherent.drift drifts
  have found := kept.leaf_of_translates own fresh translates
  obtain rfl := Option.some.inj (current.symm.trans found)
  exact ⟨rfl, kept⟩

end Accesses

end PTEditor
