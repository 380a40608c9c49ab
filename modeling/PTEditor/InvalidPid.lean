import PTEditor.Library.UserSpec

/-!
# Pids that name no process

On x86_64 the `GET_ROOT` handler gives up when `get_mm` finds no mm, the library's
root stays 0, and every operation stops there.  On aarch64 the handler answers such
a pid with the root in `TTBR0_EL1`, the root of the caller: `rejectsPid_iff` says
that the pid is then rejected only when that register holds no root.
-/

namespace PTEditor

/-- The library treats the pid as one that names no process. -/
structure RejectsPid (sys : System) (lib : Lib) (w : World) (pid : Pid) : Prop where
  root : ∃ w', Prog.run (sysHandler sys) (pteditGetPagingRoot lib pid) w = some (0, w')
  resolve : ∀ implementation, implementation = .kernel ∨ implementation = .userPread →
    ∀ address, ∃ r w',
    Prog.run (sysHandler sys) (pteditResolve { lib with implementation } address pid) w =
      some (r, w') ∧ r.valid = 0
  update : ∀ implementation, implementation = .kernel ∨ implementation = .userPread →
    ∀ address vm, ∃ w',
    Prog.run (sysHandler sys) (pteditUpdate { lib with implementation } address pid vm) w =
      some ((), w') ∧ w'.kernel.mem = w.kernel.mem ∧ w'.kernel.pgd = w.kernel.pgd

theorem Attached.withImplementation {sys : System} {lib : Lib} {w : World}
    (attached : Attached sys lib w) (implementation : Implementation) :
    Attached sys { lib with implementation } w :=
  ⟨attached.device, attached.arch, attached.loaded⟩

section Unknown

variable {sys : System} {lib : Lib} {w : World} {pid : Pid}

theorem kernelResolve_of_unknown {host : Host} {k : Kernel} {address pid : Word}
    (unknown : host.getMm pid = none) : kernelResolve host k address pid = (1, Vm.cleared pid) := by
  unfold kernelResolve
  rw [unknown]

theorem valid_kernelEntry_of_unknown (unknown : sys.host.getMm (sizeOfInt pid) = none)
    (address : Word) : (sys.kernelEntry w.kernel address pid).valid = 0 := by
  have resolved : kernelResolve sys.host w.kernel address (sizeOfInt pid) =
      (1, Vm.cleared (sizeOfInt pid)) :=
    kernelResolve_of_unknown unknown
  unfold System.kernelEntry kernelEntry PteditEntry.cleared
  rw [resolved]
  rfl

theorem kernelStores_of_unknown {host : Host} {k : Kernel} {vm : PteditEntry}
    (unknown : host.getMm vm.pid = none) : kernelStores host k vm = [] := by
  unfold kernelStores
  rw [kernelResolve_of_unknown unknown]
  simp [levelStore, Vm.Valid, Vm.cleared]

theorem slots_of_noRoot {walk : Walk} (noRoot : walk.root = 0) : walk.slots = [] := by
  refine List.eq_nil_iff_forall_not_mem.mpr fun a member => ?_
  obtain ⟨level, _, reached, _⟩ := walk.mem_slots.mp member
  exact reached.1 noRoot

/-- Without a root the pread walker reads nothing and reports nothing. -/
theorem run_pteditResolveUser_of_noRoot (attached : Attached sys lib w)
    (noRoot : sys.userRoot lib w.kernel pid = 0) (address : Word) :
    ∃ r, Prog.run (sysHandler sys) (pteditResolveUser lib address pid) w = some (r, w) ∧
      r.valid = 0 ∧ ∀ level, ¬ r.Valid level := by
  have empty : (sys.userWalk lib w.kernel address pid).slots = [] := slots_of_noRoot noRoot
  have resolves : Prog.run (sysHandler sys) (pteditResolveUser lib address pid) w =
      some ((sys.userWalk lib w.kernel address pid).resolved (sizeOfInt pid), w) := by
    refine run_pteditResolveUserExt attached fun a member => ?_
    change a ∈ (sys.userWalk lib w.kernel address pid).slots at member
    rw [empty] at member
    cases member
  have stopped : ∀ level, ¬ (sys.userWalk lib w.kernel address pid).Valid level :=
    Walk.not_valid_of_noRoot noRoot
  refine ⟨_, resolves, ?_, fun level valid => stopped level ((Walk.valid_resolved _ _ _).mp valid)⟩
  change Level.maskOf (sys.userWalk lib w.kernel address pid).Valid = 0
  rw [Level.maskOf_congr (Q := fun _ => False) fun level => iff_false_intro (stopped level)]
  rfl

theorem run_pteditUpdateUser_of_noRoot (attached : Attached sys lib w)
    (selected : lib.implementation = .userPread) (noRoot : sys.userRoot lib w.kernel pid = 0)
    (address : Word) (vm : PteditEntry) :
    Prog.run (sysHandler sys) (pteditUpdateUser lib address pid vm) w = some ((), w) := by
  obtain ⟨r, resolves, -, stopped⟩ := run_pteditResolveUser_of_noRoot attached noRoot address
  have current : Prog.run (sysHandler sys) (pteditResolve lib address pid) w = some (r, w) := by
    unfold pteditResolve
    rw [selected]
    exact resolves
  have none : userStores (sys.userWalk lib w.kernel address pid) vm r = [] :=
    userStores_of_not_valid stopped
  have writes : ∀ store ∈ userStores (sys.userWalk lib w.kernel address pid) vm r, ∀ mem,
      Prog.run (sysHandler sys) (pteditPhysWritePwrite lib store.1 store.2) (w.withMem mem) =
        some ((), w.withMem (mem.write store.1 store.2)) := by
    rw [none]
    nofun
  have update := run_pteditUpdateUserExt attached current (fun _ => stopped) writes
  rw [none] at update
  rw [pteditUpdateUser, Prog.run_bind_of_some update]
  exact run_pteditInvalidateTlbPid attached pid address

end Unknown

/-- **A pid that names no process is rejected exactly where `GET_ROOT` does not
substitute the caller's root.** -/
theorem rejectsPid_iff {sys : System} {lib : Lib} {w : World} {pid : Pid}
    (attached : Attached sys lib w) (notOwn : pid ≠ 0)
    (unknown : sys.host.getMm (sizeOfInt pid) = none) :
    RejectsPid sys lib w pid ↔
      (sys.host.arch = .x86_64 ∨ w.kernel.ttbr0 &&& ~~~1#64 = 0) := by
  have reported : sys.pagingRoot w.kernel pid = _ := pagingRoot_of_unknown unknown
  constructor
  · rintro ⟨⟨w', root⟩, -, -⟩
    rw [run_pteditGetPagingRoot attached, reported] at root
    have zero := congrArg Prod.fst (Option.some.inj root)
    by_cases x86 : sys.host.arch = .x86_64
    · exact .inl x86
    · rw [if_neg x86] at zero
      exact .inr zero
  · intro condition
    have zero : sys.pagingRoot w.kernel pid = 0 := by
      rw [reported]
      rcases condition with x86 | empty
      · rw [if_pos x86]
      · rw [empty, ite_self]
    have noRoot : ∀ implementation,
        sys.userRoot { lib with implementation } w.kernel pid = 0 := by
      intro implementation
      unfold System.userRoot
      rw [if_neg notOwn, zero]
      rfl
    refine ⟨⟨w, ?_⟩, ?_, ?_⟩
    · rw [run_pteditGetPagingRoot attached, zero]
    · intro implementation known address
      have opened := attached.withImplementation implementation
      rcases known with rfl | rfl
      · exact ⟨_, _, run_pteditResolveKernel opened address pid,
          valid_kernelEntry_of_unknown unknown address⟩
      · obtain ⟨r, resolves, nothing, -⟩ :=
          run_pteditResolveUser_of_noRoot opened (noRoot _) address
        exact ⟨r, w, resolves, nothing⟩
    · intro implementation known address vm
      have opened := attached.withImplementation implementation
      rcases known with rfl | rfl
      · refine ⟨_, run_pteditUpdateKernel opened address pid vm, ?_, rfl⟩
        rw [kernelStores_of_unknown unknown]
        rfl
      · exact ⟨w, run_pteditUpdateUser_of_noRoot opened rfl (noRoot _) address vm, rfl, rfl⟩

/-- The pid -1 names no process, and `ptedit_get_paging_root` answers it with the
caller's root. -/
theorem unknownPid_getsOwnRoot :
    sampleAarch64.host.getMm (sizeOfInt (-1)) = none ∧
    Attached sampleAarch64 sampleAarch64Lib sampleAarch64World ∧
    Prog.run (sysHandler sampleAarch64) (pteditGetPagingRoot sampleAarch64Lib (-1))
      sampleAarch64World = some (0x48000, sampleAarch64World) ∧
    ¬ RejectsPid sampleAarch64 sampleAarch64Lib sampleAarch64World (-1) := by
  have root := run_pteditGetPagingRoot sampleAarch64_attached (-1)
  rw [show sampleAarch64.pagingRoot sampleAarch64World.kernel (-1) = 0x48000 by decide] at root
  refine ⟨by decide, sampleAarch64_attached, root, ?_⟩
  rintro ⟨⟨w', zero⟩, -, -⟩
  rw [root] at zero
  have same : (0x48000 : Word) = 0 := congrArg Prod.fst (Option.some.inj zero)
  exact absurd same (by decide)

theorem rejectsPid_iff_sample : RejectsPid sampleSystem sampleLib sampleWorld (-1) :=
  (rejectsPid_iff sample_attached (by decide) (by decide)).mpr (.inl rfl)

end PTEditor
