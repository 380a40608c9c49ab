import PTEditor.Library.Slots

/-!
# The window that `PTEDIT_IMPL_USER` maps

`ptedit_use_implementation(PTEDIT_IMPL_USER)` maps the first 32 GiB of physical
memory and from then on indexes the mapping with whatever address a page-table
entry names.  `mappedWalker_agrees_iff` says for which page tables that is the
same as going through `pread` and `pwrite`: those whose walk stays below 32 GiB.
-/

namespace PTEditor

namespace Walk

/-- Every table that the walk comes to has the address's entry below a limit. -/
structure TablesBelow (walk : Walk) (limit : Nat) : Prop where
  root : walk.root ≠ 0 →
    (walk.root + walk.definition.index .pgd walk.addr * pteditEntrySize).toNat + 8 ≤ limit
  table : ∀ level up, level.above = some up → walk.Exists level → walk.Reached level →
    (PteditPgd.pfn walk.arch (walk.entry up)).toNat * 4096 +
      (walk.definition.index level walk.addr).toNat * 8 + 8 ≤ limit

theorem toNat_pfn_lt (arch : Arch) (entry : Word) : (PteditPgd.pfn arch entry).toNat < 2 ^ 36 := by
  cases arch <;> simp only [PteditPgd.pfn, PteditPagingDefinition.toNat_bitField] <;> omega

/-- A frame number and an index that fit their fields add up without a carry. -/
theorem toNat_tableSlot {arch : Arch} {above index : Word} (small : index.toNat < 2 ^ 31) :
    (tableSlot arch above index).toNat =
      (PteditPgd.pfn arch above).toNat * 4096 + index.toNat * 8 := by
  have frame := toNat_pfn_lt arch above
  unfold tableSlot pteditPfnMultiply pteditEntrySize
  rw [BitVec.toNat_add, BitVec.toNat_mul, BitVec.toNat_mul,
    show (4096 : Word).toNat = 4096 from rfl,
    show (8 : Word).toNat = 8 from rfl]
  omega

/-- The slots of a walk lie below a limit exactly when its tables do. -/
theorem slots_below_iff {walk : Walk} (fits : walk.definition.Fits) (limit : Nat) :
    (∀ a ∈ walk.slots, a.toNat + 8 ≤ limit) ↔ walk.TablesBelow limit := by
  have slotOf : ∀ {level up}, level.above = some up → (walk.slot level).toNat =
      (PteditPgd.pfn walk.arch (walk.entry up)).toNat * 4096 +
        (walk.definition.index level walk.addr).toNat * 8 := by
    intro level up above
    unfold slot
    rw [above, PteditPagingDefinition.intIndex_eq fits]
    exact toNat_tableSlot (PteditPagingDefinition.index_lt fits level walk.addr)
  have slotPgd : walk.slot .pgd =
      walk.root + walk.definition.index .pgd walk.addr * pteditEntrySize := by
    rw [← PteditPagingDefinition.intIndex_eq fits]
    rfl
  constructor
  · intro below
    refine ⟨fun noRoot => ?_, fun level up above here reached => ?_⟩
    · rw [← slotPgd]
      exact below _ (walk.mem_slots.mpr
        ⟨.pgd, .inl rfl, ⟨noRoot, by simp [Level.upper], nofun⟩, rfl⟩)
    · rw [← slotOf above]
      exact below _ (walk.mem_slots.mpr ⟨level, here, reached, rfl⟩)
  · rintro tables a member
    obtain ⟨level, here, reached, rfl⟩ := walk.mem_slots.mp member
    cases above : level.above with
    | none =>
        obtain rfl : level = .pgd := by cases level <;> cases above; rfl
        rw [slotPgd]
        exact tables.root reached.1
    | some up =>
        rw [slotOf above]
        exact tables.table level up above here reached

/-- Under the x86_64 definition and a page-aligned root the condition speaks about
whole tables: their frames lie below the limit's. -/
theorem tablesBelow_x86_64 {walk : Walk} (definition : walk.definition = .x86_64)
    (aligned : walk.root.toNat % 4096 = 0) (frames : Nat) :
    walk.TablesBelow (frames * 4096) ↔
      (walk.root ≠ 0 → walk.root.toNat / 4096 < frames) ∧
        ∀ level up, level.above = some up → walk.Exists level → walk.Reached level →
          (PteditPgd.pfn walk.arch (walk.entry up)).toNat < frames := by
  have index : ∀ level, (walk.definition.index level walk.addr).toNat < 512 := by
    intro level
    have fits : walk.definition.Fits := by
      rw [definition]
      exact PteditPagingDefinition.x86_64_fits
    have narrow : walk.definition.width level ≤ 9 := by
      rw [definition]
      cases level <;> decide
    have power : 2 ^ walk.definition.width level ≤ 2 ^ 9 := Nat.pow_le_pow_right (by omega) narrow
    have below := Nat.mod_lt (walk.addr.toNat / 2 ^ walk.definition.shift level)
      (Nat.two_pow_pos (walk.definition.width level))
    rw [PteditPagingDefinition.index_eq_indexField fits, PteditPagingDefinition.indexField,
      PteditPagingDefinition.toNat_bitField]
    exact Nat.lt_of_le_of_lt (Nat.mod_le _ _) (by omega)
  have pgd : (walk.root + walk.definition.index .pgd walk.addr * pteditEntrySize).toNat =
      walk.root.toNat + (walk.definition.index .pgd walk.addr).toNat * 8 := by
    have small := index .pgd
    have root := walk.root.isLt
    unfold pteditEntrySize
    rw [BitVec.toNat_add, BitVec.toNat_mul, show (8 : Word).toNat = 8 from rfl]
    omega
  constructor
  · rintro ⟨root, table⟩
    refine ⟨fun noRoot => ?_, fun level up above here reached => ?_⟩
    · have inside := root noRoot
      rw [pgd] at inside
      omega
    · have inside := table level up above here reached
      omega
  · rintro ⟨root, table⟩
    refine ⟨fun noRoot => ?_, fun level up above here reached => ?_⟩
    · have inside := root noRoot
      have small := index .pgd
      rw [pgd]
      omega
    · have inside := table level up above here reached
      have small := index level
      omega

end Walk

/-- The mapped walker and updater work like the plain ones for an address and a pid:
what they touch lies inside the window, and the results are the same. -/
structure WindowSuffices (sys : System) (mapped plain : Lib) (w : World) (address : Word)
    (pid : Pid) : Prop where
  read : ∀ a ∈ (pteditWalk mapped.arch mapped.pagingDefinition address
      (sys.userRoot mapped w.kernel pid) pid).queries w.kernel.mem.read,
    mapped.vmem.Covers a
  written : ∀ vm, ∀ store ∈ userStores (sys.userWalk mapped w.kernel address pid) vm
      ((sys.userWalk mapped w.kernel address pid).resolved (sizeOfInt pid)),
    mapped.vmem.Covers store.1
  resolve : Prog.run (sysHandler sys) (pteditResolveUserMap mapped address pid) w =
    Prog.run (sysHandler sys) (pteditResolveUser plain address pid) w
  update : ∀ vm, Prog.run (sysHandler sys) (pteditUpdateUserMap mapped address pid vm) w =
    Prog.run (sysHandler sys) (pteditUpdateUser plain address pid vm) w

/-- A word outside the window ends the mapped walker. -/
theorem run_pteditResolveUserMap_of_outside {sys : System} {lib : Lib} {w : World}
    {address : Word} {pid : Pid} {length : Nat} (attached : Attached sys lib w)
    (window : lib.vmem = .umem 0 length)
    (outside : ∃ a ∈ (sys.userWalk lib w.kernel address pid).slots, ¬ a.toNat + 8 ≤ length) :
    Prog.run (sysHandler sys) (pteditResolveUserMap lib address pid) w = none := by
  let part : Word → Option Word := fun a =>
    if a.toNat + 8 ≤ length then some (w.kernel.mem.read a) else none
  have reads : ∀ a, Prog.run (sysHandler sys) (pteditPhysReadMap lib a) w =
      (part a).map fun r => (r, w) := by
    intro a
    rw [run_pteditPhysReadMap window]
    split
    next inside => simp [part, inside]
    next outside => simp [part, outside]
  have restricts : ∀ a r, part a = some r → r = w.kernel.mem.read a := by
    intro a r found
    exact (Option.some.inj (Option.ite_none_right_eq_some.mp found).2).symm
  have asked := (sys.userWalk lib w.kernel address pid).queries_pteditWalk pid
  obtain ⟨a, member, beyond⟩ := outside
  rw [pteditResolveUserMap, pteditResolveUserExt,
    Prog.run_bind_of_some (run_pteditUserRoot attached pid), Prog.run_translate reads]
  cases walked : (pteditWalk lib.arch lib.pagingDefinition address
      (sys.userRoot lib w.kernel pid) pid).evalPartial part with
  | none => rfl
  | some value =>
      have answered := ((Prog.evalPartial_eq_some_iff restricts).mp walked).1 a (asked ▸ member)
      simp [part, beyond] at answered

/-- **The mapped implementation agrees with the plain one exactly on walks below
32 GiB**, and on all others makes an access outside its window, which has no result. -/
theorem mappedWalker_agrees_iff {sys : System} {lib : Lib} {w : World} {address : Word} {pid : Pid}
    (attached : Attached sys lib w) (umem : sys.file lib.umem = .umem)
    (fits : lib.pagingDefinition.Fits)
    (window : lib.vmem = .null ∨ lib.vmem = .umem 0 vmemLength) :
    ∃ mapped plain,
      Prog.run (sysHandler sys) (pteditUseImplementation lib pteditImplUser) w =
        some (mapped, w) ∧
      Prog.run (sysHandler sys) (pteditUseImplementation lib pteditImplUserPread) w =
        some (plain, w) ∧
      (WindowSuffices sys mapped plain w address pid ↔
        (sys.userWalk plain w.kernel address pid).TablesBelow vmemLength) ∧
      (¬ (sys.userWalk plain w.kernel address pid).TablesBelow vmemLength →
        Prog.run (sysHandler sys) (pteditResolveUserMap mapped address pid) w = none) := by
  refine ⟨_, _, run_pteditUseImplementation attached pteditImplUser,
    run_pteditUseImplementation attached pteditImplUserPread, ?_⟩
  have useMap : sys.useImplementation lib w.kernel pteditImplUser =
      { lib with
        implementation := .user, pagingRoot := sys.pagingRoot w.kernel 0,
        vmem := .umem 0 vmemLength } := by
    have mapping : (if lib.vmem = .null then sys.umemWindow lib else lib.vmem) =
        .umem 0 vmemLength := by
      rcases window with unmapped | before
      · rw [if_pos unmapped, System.umemWindow, umem]
      · rw [if_neg (by rw [before]; exact Mapping.noConfusion), before]
    rw [← mapping]
    rfl
  have usePread : sys.useImplementation lib w.kernel pteditImplUserPread =
      { lib with implementation := .userPread, pagingRoot := sys.pagingRoot w.kernel 0 } := rfl
  rw [useMap, usePread]
  -- both selections leave the walk of an address the same
  let walk := sys.userWalk { lib with
    implementation := .userPread, pagingRoot := sys.pagingRoot w.kernel 0 } w.kernel address pid
  have plain : Attached sys { lib with
      implementation := .userPread, pagingRoot := sys.pagingRoot w.kernel 0 } w :=
    ⟨attached.device, attached.arch, attached.loaded⟩
  have mapped : Attached sys { lib with
      implementation := .user, pagingRoot := sys.pagingRoot w.kernel 0,
      vmem := .umem 0 vmemLength } w :=
    ⟨attached.device, attached.arch, attached.loaded⟩
  have tables := walk.slots_below_iff fits vmemLength
  have asked : ∀ r : Word → Word, r = w.kernel.mem.read → (pteditWalk lib.arch lib.pagingDefinition
      address walk.root pid).queries r = walk.slots := by
    rintro _ rfl
    exact walk.queries_pteditWalk pid
  refine ⟨⟨fun enough => tables.mp ?_, fun below => ?_⟩, fun beyond => ?_⟩
  · intro a member
    exact enough.read a ((asked _ rfl).symm ▸ member)
  · have inside := tables.mpr below
    have stored : ∀ vm, ∀ store ∈ userStores walk vm (walk.resolved (sizeOfInt pid)),
        store.1.toNat + 8 ≤ vmemLength := by
      intro vm store member
      rw [Walk.userStores_eq fits] at member
      exact inside _ (Walk.slot_mem_of_stores member)
    refine ⟨fun a member => inside a ((asked _ rfl) ▸ member), stored, ?_, fun vm => ?_⟩
    · exact (run_pteditResolve mapped (.mapped rfl vmemLength rfl inside)).trans
        (run_pteditResolve plain (.pread rfl umem)).symm
    · exact (run_pteditUpdate_stores mapped fits (.mapped rfl vmemLength rfl inside) vm).trans
        (run_pteditUpdate_stores plain fits (.pread rfl umem) vm).symm
  · refine run_pteditResolveUserMap_of_outside mapped rfl ?_
    by_contra inside
    push Not at inside
    exact beyond (tables.mp inside)

/-- The sample library after `ptedit_use_implementation(PTEDIT_IMPL_USER)`. -/
def sampleMapped : Lib :=
  { sampleLib with implementation := .user, vmem := .umem 0 vmemLength }

theorem run_useImplementation_sample (mem : ByteMem) :
    Prog.run (sysHandler sampleSystem) (pteditUseImplementation sampleLib pteditImplUser)
        (sampleWorld.withMem mem) = some (sampleMapped, sampleWorld.withMem mem) ∧
      Prog.run (sysHandler sampleSystem) (pteditUseImplementation sampleLib pteditImplUserPread)
        (sampleWorld.withMem mem) = some (sampleLib, sampleWorld.withMem mem) := by
  have attached : Attached sampleSystem sampleLib (sampleWorld.withMem mem) :=
    sample_attached.withMem mem
  rw [run_pteditUseImplementation attached, run_pteditUseImplementation attached]
  unfold System.useImplementation
  rw [pagingRoot_sample]
  exact ⟨rfl, rfl⟩

/-- A machine with more than 32 GiB whose PUD table lies at 32 GiB. -/
def highTableMem : ByteMem :=
  ByteMem.writeAll (fun _ => 0) [(0x1000, 0x800000003), (0x800000000, 0x3003)]

def highTableWorld : World := sampleWorld.withMem highTableMem

theorem mem_slots_highTable :
    0x800000000 ∈ (sampleSystem.userWalk sampleMapped highTableWorld.kernel 0 0).slots := by
  decide +kernel

/-- There the plain walker reads the PUD entry, and the mapped one leaves its window. -/
theorem mappedWalker_leaves_window :
    Prog.run (sysHandler sampleSystem) (pteditUseImplementation sampleLib pteditImplUser)
      highTableWorld = some (sampleMapped, highTableWorld) ∧
    Prog.run (sysHandler sampleSystem) (pteditUseImplementation sampleLib pteditImplUserPread)
      highTableWorld = some (sampleLib, highTableWorld) ∧
    (∃ r, Prog.run (sysHandler sampleSystem) (pteditResolveUser sampleLib 0 0) highTableWorld =
      some (r, highTableWorld) ∧ r.pud = 0x3003) ∧
    Prog.run (sysHandler sampleSystem) (pteditResolveUserMap sampleMapped 0 0) highTableWorld =
      none ∧
    ¬ WindowSuffices sampleSystem sampleMapped sampleLib highTableWorld 0 0 := by
  have attached : Attached sampleSystem sampleLib highTableWorld := sample_attached.withMem _
  have mapped : Attached sampleSystem sampleMapped highTableWorld :=
    ⟨rfl, rfl, sampleKernel_loaded.withMem _⟩
  have resolves : Prog.run (sysHandler sampleSystem) (pteditResolveUser sampleLib 0 0)
      highTableWorld = some ((sampleSystem.userWalk sampleLib highTableWorld.kernel 0 0).resolved
        (sizeOfInt 0), highTableWorld) :=
    run_pteditResolve attached (sample_access _)
  have outside : Prog.run (sysHandler sampleSystem) (pteditResolveUserMap sampleMapped 0 0)
      highTableWorld = none :=
    run_pteditResolveUserMap_of_outside mapped rfl ⟨_, mem_slots_highTable, by decide⟩
  refine ⟨(run_useImplementation_sample _).1, (run_useImplementation_sample _).2,
    ⟨_, resolves, by decide +kernel⟩, outside, fun enough => ?_⟩
  have same := enough.resolve
  rw [outside, resolves] at same
  cases same

theorem mappedWalker_agrees_iff_sample :
    WindowSuffices sampleSystem sampleMapped sampleLib sampleWorld 0 0 := by
  have below : (sampleSystem.userWalk sampleLib sampleWorld.kernel 0 0).TablesBelow vmemLength := by
    refine (Walk.slots_below_iff PteditPagingDefinition.x86_64_fits _).mp ?_
    have slots : (sampleSystem.userWalk sampleLib sampleWorld.kernel 0 0).slots =
        [0x1000, 0x2000, 0x3000, 0x4000] := by
      decide +kernel
    rw [slots]
    simp [vmemLength]
  obtain ⟨mapped, plain, useMapped, usePlain, agrees, -⟩ :=
    @mappedWalker_agrees_iff sampleSystem sampleLib sampleWorld 0 0 sample_attached rfl
      PteditPagingDefinition.x86_64_fits (.inl rfl)
  have selected := run_useImplementation_sample sampleMem
  have isMapped : mapped = sampleMapped :=
    congrArg Prod.fst (Option.some.inj (useMapped.symm.trans selected.1))
  have isPlain : plain = sampleLib :=
    congrArg Prod.fst (Option.some.inj (usePlain.symm.trans selected.2))
  rw [isMapped, isPlain] at agrees
  exact agrees.mpr below

end PTEditor
