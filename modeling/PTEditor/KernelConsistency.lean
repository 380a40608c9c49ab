import PTEditor.Library.UserSpec

/-!
# Pointers, bits and words

`resolve_vm` sets the pointer and the valid bit of a level separately, and takes the
pointer back where a test fails.  `consistent_kernelResolve`: on every return the two
agree.  So the structure that `ptedit_resolve_kernel` returns holds the entry of each
valid level and nothing else (`kernelResolver_consistent`).
-/

namespace PTEditor

/-- What `resolve_vm` returns fits together; a `NULL` pointer is `none`. -/
structure Vm.Consistent (status : Int) (vm : Vm) : Prop where
  pointers : ∀ level, (vm.pointer level).isSome ↔ vm.Valid level
  closed : ∀ level, vm.Valid level → ∀ up ∈ level.upper, vm.Valid up
  status : status = 0 ↔ vm.Valid .pte

/-- The structure of the library shows what a `vm_t` points to. -/
structure PteditEntry.Shows (entry : PteditEntry) (vm : Vm) (read : Word → Word) : Prop where
  valid : ∀ level, entry.Valid level ↔ vm.Valid level
  word : ∀ level, vm.Valid level →
    ∃ pointer, vm.pointer level = some pointer ∧ entry.field level = read pointer
  zero : ∀ level, ¬ vm.Valid level → entry.field level = 0

/-- A `vm_t` without a process. -/
theorem consistent_cleared (pid : Word) : (Vm.cleared pid).Consistent 1 := by
  have invalid : ∀ level, ¬ (Vm.cleared pid).Valid level := by
    intro level
    simp [Vm.Valid, Vm.cleared]
  constructor
  · intro level
    refine iff_of_false ?_ (invalid level)
    cases level <;> exact Bool.false_ne_true
  · exact fun level valid => absurd valid (invalid level)
  · exact iff_of_false (by decide) (invalid .pte)

theorem KernelWalk.consistent_vm (w : KernelWalk) (pid : Word) :
    (w.vm pid).Consistent (if w.Valid .pte then 0 else 1) := by
  constructor
  · intro level
    rw [w.valid_vm, w.pointer_vm]
    split
    next valid => exact iff_of_true valid.isSome valid
    next invalid => exact iff_of_false Bool.false_ne_true invalid
  · intro level valid up above
    rw [w.valid_vm] at valid ⊢
    exact valid.upper above
  · rw [w.valid_vm]
    split
    next valid => exact iff_of_true rfl valid
    next invalid => exact iff_of_false (by decide) invalid

/-- **Every return of `resolve_vm`.** -/
theorem consistent_kernelResolve (host : Host) (k : Kernel) (addr pid : Word) :
    (kernelResolve host k addr pid).2.Consistent (kernelResolve host k addr pid).1 := by
  unfold kernelResolve
  cases host.getMm pid with
  | none => exact consistent_cleared pid
  | some mm => exact (k.walk host addr mm).consistent_vm pid

/-- `vm_to_user` over a structure that the library has zeroed. -/
theorem Vm.Consistent.shows {status : Int} {vm : Vm} (consistent : vm.Consistent status)
    (address pid : Word) (read : Word → Word) :
    ((vmToUser (PteditEntry.cleared address pid) vm).eval read).Shows vm read := by
  have zeroed : ∀ level, (PteditEntry.cleared address pid).field level = 0 := by
    intro level
    cases level <;> rfl
  constructor
  · intro level
    unfold PteditEntry.Valid Vm.Valid
    rw [valid_eval_vmToUser]
  · intro level valid
    obtain ⟨pointer, here⟩ :=
      Option.isSome_iff_exists.mp ((consistent.pointers level).mpr valid)
    refine ⟨pointer, here, ?_⟩
    rw [field_eval_vmToUser, here]
    rfl
  · intro level invalid
    have absent := mt (consistent.pointers level).mp invalid
    rw [field_eval_vmToUser, Option.not_isSome_iff_eq_none.mp absent]
    exact zeroed level

/-- `ptedit_resolve_kernel` reports the request that it made. -/
theorem request_kernelEntry (sys : System) (k : Kernel) (address : Word) (pid : Pid) :
    (sys.kernelEntry k address pid).vaddr = address ∧
      (sys.kernelEntry k address pid).pid = sizeOfInt pid := by
  unfold System.kernelEntry kernelEntry
  simp only [vmToUser, Prog.eval_bind]
  exact ⟨rfl, rfl⟩

/-- **The kernel resolver.**  Whatever the tables hold and whether or not the pid is live,
pointers, valid bits and return value of `resolve_vm` agree, and the structure that
`ptedit_resolve_kernel` returns shows what `resolve_vm` found. -/
theorem kernelResolver_consistent {sys : System} {lib : Lib}
    (device : sys.file lib.fd = .device) :
    (∀ copy s addr pid lock, ∃ status vm,
      Prog.run (kernelHandler sys.host copy) (resolveVm sys.host addr pid lock) s =
        some ((status, vm), s) ∧
      vm.Consistent status) ∧
    ∀ w address pid, ∃ status vm entry,
      Prog.run (kernelHandler sys.host sys.copy)
        (resolveVm sys.host address (sizeOfInt pid) (!w.kernel.mmIsLocked))
        ⟨w.kernel, (PteditEntry.cleared address (sizeOfInt pid)).block, w.user⟩ =
          some ((status, vm),
            ⟨w.kernel, (PteditEntry.cleared address (sizeOfInt pid)).block, w.user⟩) ∧
      Prog.run (sysHandler sys) (pteditResolveKernel lib address pid) w = some (entry, w) ∧
      entry.Shows vm (w.kernel.entryAt sys.host) ∧
      entry.vaddr = address ∧ entry.pid = sizeOfInt pid := by
  constructor
  · intro copy s addr pid lock
    exact ⟨_, _, run_resolveVm addr pid lock s,
      consistent_kernelResolve sys.host s.kernel addr pid⟩
  · intro w address pid
    have consistent := consistent_kernelResolve sys.host w.kernel address (sizeOfInt pid)
    obtain ⟨vaddr, same⟩ := request_kernelEntry sys w.kernel address pid
    exact ⟨_, _, _, run_resolveVm address (sizeOfInt pid) _ _,
      run_pteditResolveKernel_of_device device address pid,
      consistent.shows address (sizeOfInt pid) (w.kernel.entryAt sys.host), vaddr, same⟩

/-- The resolver for a pid without a process, and the library for a live one. -/
theorem kernelResolver_consistent_sample :
    (∃ status vm,
      Prog.run (kernelHandler sampleSystem.host wholeCopy) (resolveVm sampleSystem.host 0 7 false)
        ⟨sampleKernel, fun _ => 0, fun _ => 0⟩ =
        some ((status, vm), ⟨sampleKernel, fun _ => 0, fun _ => 0⟩) ∧
      vm.Consistent status) ∧
    ∃ entry, Prog.run (sysHandler sampleSystem) (pteditResolveKernel sampleLib 0 1) sampleWorld =
      some (entry, sampleWorld) ∧ entry.vaddr = 0 ∧ entry.pid = sizeOfInt 1 := by
  obtain ⟨resolver, library⟩ := kernelResolver_consistent sample_attached.device
  obtain ⟨-, -, entry, -, ran, -, vaddr, pid⟩ := library sampleWorld 0 1
  exact ⟨resolver wholeCopy _ 0 7 false, entry, ran, vaddr, pid⟩

end PTEditor
