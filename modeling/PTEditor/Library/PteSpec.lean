import PTEditor.Library.Slots

/-!
# Editing a PTE

The functions of the library that change one PTE, as the bits they set and clear
(`PteEdit`), and how they run under each implementation: they replace the word in the
PTE slot of the walk, or do nothing when there is none.
-/

namespace PTEditor

open ByteMem

/-- The calls `ptedit_pte_set_bit`, `ptedit_pte_clear_bit` and `ptedit_pte_set_pfn`. -/
inductive PteEdit where
  | setBit (bit : Fin 64)
  | clearBit (bit : Fin 64)
  | setPfn (pfn : Word)
  deriving DecidableEq, Repr

namespace PteEdit

/-- The call for an address and a pid. -/
def program (edit : PteEdit) (lib : Lib) (address : Word) (pid : Pid) : Sys Unit :=
  match edit with
  | setBit bit => pteditPteSetBit lib address pid bit
  | clearBit bit => pteditPteClearBit lib address pid bit
  | setPfn pfn => pteditPteSetPfn lib address pid pfn

/-- What the call does to the PTE. -/
def apply (edit : PteEdit) (arch : Arch) (pte : Word) : Word :=
  match edit with
  | setBit bit => pte ||| (1#64 <<< bit.val)
  | clearBit bit => pte &&& ~~~(1#64 <<< bit.val)
  | setPfn pfn => pteditSetPfn arch pte pfn

/-- The bits the call sets. -/
def stored (edit : PteEdit) : Word :=
  match edit with
  | setBit bit => 1#64 <<< bit.val
  | clearBit _ => 0
  | setPfn pfn => pfn <<< 12

/-- The bits the call acts on; a frame number that is too large for its field reaches
beyond it. -/
def touched (edit : PteEdit) (arch : Arch) : Word :=
  match edit with
  | setBit bit => 1#64 <<< bit.val
  | clearBit bit => 1#64 <<< bit.val
  | setPfn pfn => pfnMask arch ||| (pfn <<< 12)

theorem program_eq (edit : PteEdit) (lib : Lib) (address : Word) (pid : Pid) :
    edit.program lib address pid = pteditPteEdit lib address pid (edit.apply lib.arch) := by
  cases edit <;> rfl

theorem getLsbD_apply (edit : PteEdit) (arch : Arch) (pte : Word) (i : Nat) :
    (edit.apply arch pte).getLsbD i =
      if (edit.touched arch).getLsbD i then edit.stored.getLsbD i else pte.getLsbD i := by
  by_cases inside : i < 64
  · cases edit with
    | setBit bit =>
        simp only [apply, touched, stored, BitVec.getLsbD_or]
        by_cases here : (1#64 <<< bit.val).getLsbD i = true <;> simp [here]
    | clearBit bit =>
        simp only [apply, touched, stored, BitVec.getLsbD_and, BitVec.getLsbD_not, inside]
        by_cases here : (1#64 <<< bit.val).getLsbD i = true <;> simp [here]
    | setPfn pfn =>
        simp only [apply, touched, stored, pteditSetPfn, BitVec.getLsbD_or, BitVec.getLsbD_and,
          BitVec.getLsbD_not, inside]
        cases (pfnMask arch).getLsbD i <;> cases (pfn <<< 12).getLsbD i <;> simp
  · have high : ∀ value : Word, value.getLsbD i = false :=
      fun value => BitVec.getLsbD_of_ge value i (by omega)
    simp only [high]
    rfl

/-- Calls that act on different bits commute. -/
theorem apply_comm {first second : PteEdit} {arch : Arch}
    (disjoint : first.touched arch &&& second.touched arch = 0) (pte : Word) :
    first.apply arch (second.apply arch pte) = second.apply arch (first.apply arch pte) := by
  apply BitVec.eq_of_getLsbD_eq
  intro i _
  have notBoth : ¬ ((first.touched arch).getLsbD i = true ∧
      (second.touched arch).getLsbD i = true) := by
    rintro ⟨left, right⟩
    have both : (first.touched arch &&& second.touched arch).getLsbD i = true := by
      rw [BitVec.getLsbD_and, left, right]
      rfl
    rw [disjoint] at both
    simp at both
  simp only [getLsbD_apply]
  split <;> split <;> simp_all

end PteEdit

/-! ## Under a user-space implementation -/

/-- The entry structure selects the PTE and nothing else. -/
def PteditEntry.PteOnly (vm : PteditEntry) : Prop := ∀ level, vm.Valid level ↔ level = .pte

theorem PteditEntry.pteOnly_of_valid {vm : PteditEntry} (valid : vm.valid = Level.pte.validMask) :
    vm.PteOnly := by
  intro level
  unfold Valid
  rw [valid]
  cases level <;> decide

section Runs

variable {sys : System} {lib : Lib} {w : World} {address : Word} {pid : Pid}

/-- A PTE-only update of a valid PTE stores it. -/
theorem run_pteditUpdate_pteOnly (attached : Attached sys lib w)
    (fits : lib.pagingDefinition.Fits)
    (access : UserAccess sys lib (sys.userWalk lib w.kernel address pid).slots)
    (valid : (sys.userWalk lib w.kernel address pid).Valid .pte) {vm : PteditEntry}
    (only : vm.PteOnly) :
    Prog.run (sysHandler sys) (pteditUpdate lib address pid vm) w =
      some ((), w.withMem (w.kernel.mem.write
        ((sys.userWalk lib w.kernel address pid).slot .pte) vm.pte)) := by
  have stores : (sys.userWalk lib w.kernel address pid).stores vm =
      [((sys.userWalk lib w.kernel address pid).slot .pte, vm.pte)] := by
    rw [Walk.stores_of_only only]
    exact if_pos ⟨(only .pte).mpr rfl, valid, .inl rfl⟩
  rw [run_pteditUpdate_stores attached fits access, stores]
  rfl

/-- The PTE that the walker returns. -/
theorem Walk.Valid.pte_resolved {walk : Walk} (valid : walk.Valid .pte) (pid : Word) :
    (walk.resolved pid).pte = walk.read (walk.slot .pte) := by
  have field := walk.field_resolved pid .pte
  rw [if_pos valid.2, walk.entry_of_exists valid.1] at field
  exact field

/-- An edit of a valid PTE replaces the word in its slot. -/
theorem run_pteditPteEdit (attached : Attached sys lib w) (fits : lib.pagingDefinition.Fits)
    (access : UserAccess sys lib (sys.userWalk lib w.kernel address pid).slots)
    (valid : (sys.userWalk lib w.kernel address pid).Valid .pte) (edit : Word → Word) :
    Prog.run (sysHandler sys) (pteditPteEdit lib address pid edit) w =
      some ((), w.withMem (w.kernel.mem.write
        ((sys.userWalk lib w.kernel address pid).slot .pte)
        (edit (w.kernel.mem.read ((sys.userWalk lib w.kernel address pid).slot .pte))))) := by
  have found := ((sys.userWalk lib w.kernel address pid).valid_resolved (sizeOfInt pid) .pte).mpr
    valid
  have pte := valid.pte_resolved (sizeOfInt pid)
  rw [pteditPteEdit, Prog.run_bind_of_some (run_pteditResolve attached access),
    if_neg (not_not.mpr found), pte]
  exact run_pteditUpdate_pteOnly attached fits access valid
    (PteditEntry.pteOnly_of_valid rfl)

/-- Without a valid PTE an edit changes nothing. -/
theorem run_pteditPteEdit_of_not_valid (attached : Attached sys lib w)
    (access : UserAccess sys lib (sys.userWalk lib w.kernel address pid).slots)
    (invalid : ¬ (sys.userWalk lib w.kernel address pid).Valid .pte) (edit : Word → Word) :
    Prog.run (sysHandler sys) (pteditPteEdit lib address pid edit) w = some ((), w) := by
  have absent : ¬ ((sys.userWalk lib w.kernel address pid).resolved (sizeOfInt pid)).Valid .pte :=
    mt (Walk.valid_resolved _ _ _).mp invalid
  rw [pteditPteEdit, Prog.run_bind_of_some (run_pteditResolve attached access), if_pos absent]
  rfl

theorem run_pteditPteGetBit (attached : Attached sys lib w)
    (access : UserAccess sys lib (sys.userWalk lib w.kernel address pid).slots)
    (valid : (sys.userWalk lib w.kernel address pid).Valid .pte) (bit : Nat) :
    Prog.run (sysHandler sys) (pteditPteGetBit lib address pid bit) w =
      some (decide (w.kernel.mem.read ((sys.userWalk lib w.kernel address pid).slot .pte) &&&
        (1#64 <<< bit) ≠ 0), w) := by
  have pte := valid.pte_resolved (sizeOfInt pid)
  rw [pteditPteGetBit, Prog.run_bind_of_some (run_pteditResolve attached access), pte]
  rfl

theorem run_pteditPteGetPfn (attached : Attached sys lib w)
    (access : UserAccess sys lib (sys.userWalk lib w.kernel address pid).slots)
    (valid : (sys.userWalk lib w.kernel address pid).Valid .pte) :
    Prog.run (sysHandler sys) (pteditPteGetPfn lib address pid) w =
      some (pteditGetPfn lib.arch
        (w.kernel.mem.read ((sys.userWalk lib w.kernel address pid).slot .pte)), w) := by
  have found := ((sys.userWalk lib w.kernel address pid).valid_resolved (sizeOfInt pid) .pte).mpr
    valid
  have pte := valid.pte_resolved (sizeOfInt pid)
  rw [pteditPteGetPfn, Prog.run_bind_of_some (run_pteditResolve attached access),
    if_neg (not_not.mpr found), pte]
  rfl

end Runs

/-! ## Under the kernel implementation -/

section Kernel

variable {host : Host} {k : Kernel} {mm : Mm} {pointer : Word}

/-- What RESOLVE reports of a valid PTE. -/
theorem pte_kernelEntry {user : PteditEntry} (found : host.getMm user.pid = some mm)
    (valid : (k.walk host user.vaddr mm).Valid .pte)
    (here : (k.walk host user.vaddr mm).ptePtr = some pointer) :
    (kernelEntry host k user).pte = k.entryAt host pointer := by
  have field := @field_kernelEntry _ k user mm found .pte
  have entry : (k.walk host user.vaddr mm).entry .pte = k.entryAt host pointer := by
    unfold KernelWalk.entry KernelWalk.pointer
    dsimp only
    rw [here]
    rfl
  rw [if_pos valid, entry] at field
  exact field

/-- What UPDATE stores when it selects the PTE alone. -/
theorem kernelStores_of_pteOnly {new : PteditEntry} (found : host.getMm new.pid = some mm)
    (valid : (k.walk host new.vaddr mm).Valid .pte)
    (here : (k.walk host new.vaddr mm).ptePtr = some pointer) (only : new.PteOnly) :
    kernelStores host k new = [(host.virtToPhys pointer, new.pte)] := by
  have resolved : (kernelResolve host k new.vaddr new.pid).2 =
      (k.walk host new.vaddr mm).vm new.pid := by
    unfold kernelResolve
    rw [found]
  have other : ∀ level, level ≠ .pte → levelStore host
      ((k.walk host new.vaddr mm).vm new.pid) new level = none :=
    fun level ne => if_neg fun selected => ne ((only level).mp selected.2)
  have last : levelStore host ((k.walk host new.vaddr mm).vm new.pid) new .pte =
      some (host.virtToPhys pointer, new.pte) := by
    unfold levelStore
    rw [if_pos ⟨(KernelWalk.valid_vm _ _ _).mpr valid, (only .pte).mpr rfl⟩,
      KernelWalk.pointer_vm, if_pos valid, show KernelWalk.pointer _ .pte = _ from here,
      Option.map_some]
    rfl
  unfold kernelStores
  rw [resolved]
  simp [Level.all, other, last]

/-- An edit of a valid PTE replaces the word that its pointer points to. -/
theorem run_pteditPteEdit_kernel {sys : System} {lib : Lib} {w : World} {address : Word} {pid : Pid}
    (attached : Attached sys lib w) (selected : lib.implementation = .kernel)
    (found : sys.host.getMm (sizeOfInt pid) = some mm)
    (valid : (w.kernel.walk sys.host address mm).Valid .pte)
    (here : (w.kernel.walk sys.host address mm).ptePtr = some pointer) (edit : Word → Word) :
    Prog.run (sysHandler sys) (pteditPteEdit lib address pid edit) w =
      some ((), w.withMem (w.kernel.mem.write (sys.host.virtToPhys pointer)
        (edit (w.kernel.mem.read (sys.host.virtToPhys pointer))))) := by
  have resolves : Prog.run (sysHandler sys) (pteditResolve lib address pid) w =
      some (sys.kernelEntry w.kernel address pid, w) := by
    unfold pteditResolve
    rw [selected]
    exact run_pteditResolveKernel attached address pid
  have reported : (sys.kernelEntry w.kernel address pid).Valid .pte :=
    (@valid_kernelEntry _ _ (PteditEntry.cleared address (sizeOfInt pid)) mm found .pte).mpr valid
  have pte : (sys.kernelEntry w.kernel address pid).pte = w.kernel.entryAt sys.host pointer :=
    @pte_kernelEntry _ _ _ _ (PteditEntry.cleared address (sizeOfInt pid)) found valid here
  have updates := run_pteditUpdateKernel attached address pid
    { sys.kernelEntry w.kernel address pid with
      pte := edit (sys.kernelEntry w.kernel address pid).pte, valid := Level.pte.validMask }
  have stores := @kernelStores_of_pteOnly sys.host w.kernel mm pointer
    { sys.kernelEntry w.kernel address pid with
      vaddr := address, pid := sizeOfInt pid,
      pte := edit (sys.kernelEntry w.kernel address pid).pte, valid := Level.pte.validMask }
    found valid here (PteditEntry.pteOnly_of_valid rfl)
  rw [stores] at updates
  dsimp only at updates
  rw [pte] at updates
  rw [pteditPteEdit, Prog.run_bind_of_some resolves, if_neg (not_not.mpr reported), pteditUpdate,
    selected, pte]
  exact updates

end Kernel

end PTEditor
