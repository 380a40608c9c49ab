import PTEditor.Library.UserSpec

/-!
# Editing one level through the kernel

On a 4-level kernel the P4D is folded: `p4d_offset` returns the PGD's slot, so
`update_vm` stores to that slot twice, first the PGD and then the P4D field of the
structure it gets.  A caller that resolves an address, replaces the field of one
level and hands the structure back edits that level and nothing else
(`readModifyWrite_iff`), except that a new PGD is undone by the old P4D.
-/

namespace PTEditor

open ByteMem

/-- Memory changed in the word at `slot` only, which now holds `value`. -/
structure EditsSlot (before after : ByteMem) (slot value : Word) : Prop where
  edited : after.read slot = value
  others : ∀ a, Apart slot a → after.read a = before.read a

theorem editsSlot_write (m : ByteMem) (slot value : Word) :
    EditsSlot m (m.write slot value) slot value :=
  ⟨read_write_self m slot value, fun _ apart => read_write_of_apart m value apart⟩

/-- Without a store the word is edited only to what it holds. -/
theorem editsSlot_self_iff (m : ByteMem) (slot value : Word) :
    EditsSlot m m slot value ↔ value = m.read slot :=
  ⟨fun edits => edits.edited.symm, fun same => ⟨same.symm, fun _ _ => rfl⟩⟩

/-- The level whose table holds the entries of a level on a 4-level kernel. -/
def Level.physical : Level → Level
  | .p4d => .pgd
  | level => level

namespace KernelWalk

/-- The physical address of a level's entry. -/
def slot (w : KernelWalk) (level : Level) : Word :=
  match w.pointer level with
  | none => 0
  | some pointer => w.host.virtToPhys pointer

/-- The slots of different physical levels do not overlap. -/
def DistinctSlots (w : KernelWalk) : Prop :=
  ∀ level other, w.Valid level → w.Valid other → level.physical ≠ other.physical →
    Apart (w.slot level) (w.slot other)

/-- What `update_vm` stores for a level when every valid level is selected. -/
def storeOf (w : KernelWalk) (new : PteditEntry) (level : Level) : List (Word × Word) :=
  if w.Valid level then [(w.slot level, new.field level)] else []

theorem slot_p4d {w : KernelWalk} (folded : ∀ p e addr, w.host.p4dOffset p e addr = p) :
    w.slot .p4d = w.slot .pgd :=
  congrArg w.host.virtToPhys (folded _ _ _)

end KernelWalk

theorem PteditEntry.field_withField (entry : PteditEntry) (value : Word) (level other : Level) :
    (entry.withField value level).field other =
      if other = level then value else entry.field other := by
  cases level <;> cases other <;> rfl

theorem PteditEntry.valid_withField (entry : PteditEntry) (value : Word) (level : Level) :
    (entry.withField value level).valid = entry.valid := by
  cases level <;> rfl

section Stores

variable {host : Host} {k : Kernel} {addr : Word} {mm : Mm}

theorem entry_walk {level : Level} (valid : (k.walk host addr mm).Valid level) :
    (k.walk host addr mm).entry level = k.mem.read ((k.walk host addr mm).slot level) := by
  obtain ⟨pointer, here⟩ := Option.isSome_iff_exists.mp valid.isSome
  unfold KernelWalk.entry KernelWalk.slot
  rw [here]
  rfl

/-- With the valid mask that `resolve_vm` returns every valid level is stored. -/
theorem kernelStores_eq_storeOf {new : PteditEntry} (address : new.vaddr = addr)
    (found : host.getMm new.pid = some mm)
    (selects : ∀ level, new.Valid level ↔ (k.walk host addr mm).Valid level) :
    kernelStores host k new = Level.all.flatMap ((k.walk host addr mm).storeOf new) := by
  unfold kernelStores kernelResolve
  rw [found, address]
  congr 1
  funext level
  unfold levelStore KernelWalk.storeOf
  by_cases valid : (k.walk host addr mm).Valid level
  · obtain ⟨pointer, here⟩ := Option.isSome_iff_exists.mp valid.isSome
    rw [if_pos ⟨(KernelWalk.valid_vm _ _ _).mpr valid, (selects level).mpr valid⟩, if_pos valid,
      KernelWalk.pointer_vm, if_pos valid, KernelWalk.slot, here]
    rfl
  · rw [if_neg fun selected => valid ((selects level).mp selected.2), if_neg valid]
    rfl

/-- Storing entries that are there already changes nothing. -/
theorem writeAll_storeOf {w : KernelWalk} {new : PteditEntry} {levels : List Level} {m : ByteMem}
    (stale : ∀ level ∈ levels, w.Valid level → m.read (w.slot level) = new.field level) :
    m.writeAll (levels.flatMap (w.storeOf new)) = m := by
  induction levels with
  | nil => rfl
  | cons level rest ih =>
      rw [List.forall_mem_cons] at stale
      rw [List.flatMap_cons, writeAll_append]
      have here : m.writeAll (w.storeOf new level) = m := by
        unfold KernelWalk.storeOf
        split
        next valid => rw [writeAll_cons, ← stale.1 valid, write_read_self, writeAll_nil]
        next => rfl
      rw [here, ih stale.2]

end Stores

/-! ## One level replaced -/

section Replaced

variable {w : KernelWalk} {m : ByteMem} {new : PteditEntry} {level : Level}

/-- The structure holds the entries in memory, except that of one level. -/
def Replaces (w : KernelWalk) (m : ByteMem) (new : PteditEntry) (level : Level) : Prop :=
  ∀ other, other ≠ level → w.Valid other → new.field other = m.read (w.slot other)

/-- The stores for levels in other tables leave the edited memory alone. -/
theorem writeAll_others (distinct : w.DistinctSlots) (valid : w.Valid level)
    (replaces : Replaces w m new level) {levels : List Level}
    (elsewhere : ∀ other ∈ levels, other.physical ≠ level.physical) (value : Word) :
    (m.write (w.slot level) value).writeAll (levels.flatMap (w.storeOf new)) =
      m.write (w.slot level) value := by
  refine writeAll_storeOf fun other member reached => ?_
  have ne : other ≠ level := fun same => elsewhere other member (congrArg Level.physical same)
  have apart := distinct level other valid reached (elsewhere other member).symm
  rw [read_write_of_apart m value apart, replaces other ne reached]

/-- A level below the PGD is edited: what comes before is stored unchanged, and what
comes after lies in other tables. -/
theorem writeAll_replaced (distinct : w.DistinctSlots) (valid : w.Valid level)
    (replaces : Replaces w m new level) (below : level ≠ .pgd) :
    m.writeAll (Level.all.flatMap (w.storeOf new)) =
      m.write (w.slot level) (new.field level) := by
  have split : ∃ upper lower, Level.all = upper ++ level :: lower ∧
      (∀ other ∈ upper, other ≠ level) ∧ ∀ other ∈ lower, other.physical ≠ level.physical := by
    cases level with
    | pgd => exact absurd rfl below
    | p4d => exact ⟨[.pgd], [.pud, .pmd, .pte], rfl, by decide, by decide⟩
    | pud => exact ⟨[.pgd, .p4d], [.pmd, .pte], rfl, by decide, by decide⟩
    | pmd => exact ⟨[.pgd, .p4d, .pud], [.pte], rfl, by decide, by decide⟩
    | pte => exact ⟨[.pgd, .p4d, .pud, .pmd], [], rfl, by decide, by decide⟩
  obtain ⟨upper, lower, whole, before, after⟩ := split
  have first : m.writeAll (upper.flatMap (w.storeOf new)) = m :=
    writeAll_storeOf fun other member reached => (replaces other (before other member) reached).symm
  rw [whole, List.flatMap_append, List.flatMap_cons, writeAll_append, first, writeAll_append,
    KernelWalk.storeOf, if_pos valid, writeAll_cons, writeAll_nil]
  exact writeAll_others distinct valid replaces after _

/-- A new PGD stays only when no P4D is stored over it. -/
theorem writeAll_replaced_pgd (folded : ∀ p e addr, w.host.p4dOffset p e addr = p)
    (distinct : w.DistinctSlots) (valid : w.Valid .pgd) (replaces : Replaces w m new .pgd) :
    m.writeAll (Level.all.flatMap (w.storeOf new)) =
      if w.Valid .p4d then m else m.write (w.slot .pgd) (new.field .pgd) := by
  have elsewhere : ∀ other ∈ [Level.pud, .pmd, .pte], other.physical ≠ Level.pgd.physical := by
    decide
  have first : m.writeAll (w.storeOf new .pgd) = m.write (w.slot .pgd) (new.field .pgd) := by
    rw [KernelWalk.storeOf, if_pos valid]
    rfl
  change m.writeAll (w.storeOf new .pgd ++ (w.storeOf new .p4d ++
    [Level.pud, .pmd, .pte].flatMap (w.storeOf new))) = _
  rw [writeAll_append, first, writeAll_append]
  split
  next p4d =>
    -- the old P4D goes to the slot of the new PGD
    have undone : (m.write (w.slot .pgd) (new.field .pgd)).writeAll (w.storeOf new .p4d) = m := by
      rw [KernelWalk.storeOf, if_pos p4d, writeAll_cons, writeAll_nil,
        replaces .p4d (by decide) p4d, KernelWalk.slot_p4d folded, write_write_self,
        write_read_self]
    rw [undone]
    refine writeAll_storeOf fun other member reached => (replaces other ?_ reached).symm
    exact fun same => elsewhere other member (congrArg Level.physical same)
  next p4d =>
    have skipped : w.storeOf new .p4d = [] := if_neg p4d
    rw [skipped, writeAll_nil]
    exact writeAll_others distinct valid replaces elsewhere _

end Replaced

/-- **Read, modify, write.**  On a kernel with a folded P4D the structure that
`ptedit_resolve_kernel` returned, with a new value for one valid level, edits that
level's slot and no other, unless the level is the PGD, the P4D is valid as well, and
the value is new. -/
theorem readModifyWrite_iff {sys : System} {lib : Lib} {w : World} (attached : Attached sys lib w)
    (folded : ∀ pointer e addr, sys.host.p4dOffset pointer e addr = pointer) {address : Word}
    {pid : Pid} {mm : Mm} (live : sys.host.getMm (sizeOfInt pid) = some mm)
    (distinct : (w.kernel.walk sys.host address mm).DistinctSlots) :
    ∃ r, Prog.run (sysHandler sys) (pteditResolveKernel lib address pid) w = some (r, w) ∧
      ∀ level, r.Valid level → ∀ value, ∃ mem,
        Prog.run (sysHandler sys)
          (pteditUpdateKernel lib address pid (r.withField value level)) w =
            some ((), w.withMem mem) ∧
        (EditsSlot w.kernel.mem mem ((w.kernel.walk sys.host address mm).slot level) value ↔
          level ≠ .pgd ∨ ¬ r.Valid .p4d ∨ value = r.pgd) := by
  have reported : ∀ level, (sys.kernelEntry w.kernel address pid).Valid level ↔
      (w.kernel.walk sys.host address mm).Valid level := valid_kernelEntry live
  have entries : ∀ level, (w.kernel.walk sys.host address mm).Valid level →
      (sys.kernelEntry w.kernel address pid).field level =
        w.kernel.mem.read ((w.kernel.walk sys.host address mm).slot level) := by
    intro level valid
    rw [← entry_walk valid]
    exact (field_kernelEntry live level).trans (if_pos valid)
  refine ⟨_, run_pteditResolveKernel attached address pid, fun level valid value => ?_⟩
  generalize sys.kernelEntry w.kernel address pid = r at *
  have reached := (reported level).mp valid
  have selects : ∀ other,
      PteditEntry.Valid { r.withField value level with vaddr := address, pid := sizeOfInt pid }
        other ↔ (w.kernel.walk sys.host address mm).Valid other := by
    intro other
    rw [← reported other]
    unfold PteditEntry.Valid
    rw [PteditEntry.valid_withField]
  have replaces : Replaces (w.kernel.walk sys.host address mm) w.kernel.mem
      { r.withField value level with vaddr := address, pid := sizeOfInt pid } level := by
    intro other ne here
    have field := PteditEntry.field_withField r value level other
    rw [if_neg ne, entries other here] at field
    rw [← field]
    cases other <;> rfl
  have new : PteditEntry.field
      { r.withField value level with vaddr := address, pid := sizeOfInt pid } level = value := by
    cases level <;> rfl
  refine ⟨_, run_pteditUpdateKernel attached address pid _, ?_⟩
  rw [kernelStores_eq_storeOf rfl live selects]
  by_cases root : level = .pgd
  · subst root
    rw [writeAll_replaced_pgd folded distinct reached replaces, new, reported .p4d]
    by_cases p4d : (w.kernel.walk sys.host address mm).Valid .p4d
    · rw [if_pos p4d, editsSlot_self_iff, ← entries .pgd reached]
      simp [p4d, PteditEntry.field]
    · rw [if_neg p4d]
      exact iff_of_true (editsSlot_write _ _ _) (.inr (.inl p4d))
  · rw [writeAll_replaced distinct reached replaces root, new]
    exact iff_of_true (editsSlot_write _ _ _) (.inl root)

/-! ## The sample machine -/

theorem sample_slots (level : Level) :
    (sampleWorld.kernel.walk sampleHost 0 0).slot level =
      match level with
      | .pgd | .p4d => 0x1000
      | .pud => 0x2000
      | .pmd => 0x3000
      | .pte => 0x4000 := by
  cases level <;> decide +kernel

theorem sample_distinctSlots : (sampleWorld.kernel.walk sampleHost 0 0).DistinctSlots := by
  intro level other _ _ ne
  rw [sample_slots, sample_slots]
  refine apart_of_aligned ?_ ?_ ?_
  · cases level <;> decide
  · cases other <;> decide
  · cases level <;> cases other <;> first | exact absurd rfl ne | decide

/-- What `ptedit_resolve_kernel` reports for address 0 of process 1. -/
def sampleEntry : PteditEntry := sampleSystem.kernelEntry sampleWorld.kernel 0 1

/-- A new PGD for address 0 is lost: all levels are valid, and the slot keeps its old entry. -/
theorem newPgd_undone :
    FourLevel sampleSystem.host ∧ sampleSystem.host.getMm (sizeOfInt 1) = some 0 ∧
    (sampleWorld.kernel.walk sampleSystem.host 0 0).DistinctSlots ∧
    Prog.run (sysHandler sampleSystem) (pteditResolveKernel sampleLib 0 1) sampleWorld =
      some (sampleEntry, sampleWorld) ∧
    sampleEntry.Valid .pgd ∧
    ∃ mem, Prog.run (sysHandler sampleSystem)
        (pteditUpdateKernel sampleLib 0 1 (sampleEntry.withField 0x2007 .pgd)) sampleWorld =
          some ((), sampleWorld.withMem mem) ∧
      ¬ EditsSlot sampleWorld.kernel.mem mem
        ((sampleWorld.kernel.walk sampleSystem.host 0 0).slot .pgd) 0x2007 ∧
      mem.read 0x1000 = 0x2003 := by
  have unchanged : (sampleWorld.kernel.mem.writeAll (kernelStores sampleHost sampleWorld.kernel
      { sampleEntry.withField 0x2007 .pgd with vaddr := 0, pid := sizeOfInt 1 })).read 0x1000 =
        0x2003 := by
    decide +kernel
  refine ⟨sampleHost_fourLevel, by decide, sample_distinctSlots,
    run_pteditResolveKernel sample_attached 0 1, by decide +kernel, _,
    run_pteditUpdateKernel sample_attached 0 1 _, fun edits => ?_, unchanged⟩
  have edited := edits.edited
  rw [show sampleSystem.host = sampleHost from rfl, sample_slots] at edited
  exact absurd (unchanged.symm.trans edited) (by decide)

/-- A new PTE for address 0 edits its slot. -/
theorem readModifyWrite_iff_sample :
    Prog.run (sysHandler sampleSystem) (pteditResolveKernel sampleLib 0 1) sampleWorld =
        some (sampleEntry, sampleWorld) ∧
      ∃ mem, Prog.run (sysHandler sampleSystem)
          (pteditUpdateKernel sampleLib 0 1 (sampleEntry.withField 0x6003 .pte)) sampleWorld =
            some ((), sampleWorld.withMem mem) ∧
        EditsSlot sampleWorld.kernel.mem mem
          ((sampleWorld.kernel.walk sampleHost 0 0).slot .pte) 0x6003 := by
  have found := run_pteditResolveKernel sample_attached 0 1
  have valid : sampleEntry.Valid .pte := by decide +kernel
  obtain ⟨r, resolved, edits⟩ :=
    @readModifyWrite_iff sampleSystem sampleLib sampleWorld sample_attached (fun _ _ _ => rfl) 0 1 0
      (by decide) sample_distinctSlots
  obtain rfl : sampleEntry = r := congrArg Prod.fst (Option.some.inj (found.symm.trans resolved))
  obtain ⟨mem, updated, edited⟩ := edits .pte valid 0x6003
  exact ⟨found, mem, updated, edited.mpr (.inl (by decide))⟩

end PTEditor
