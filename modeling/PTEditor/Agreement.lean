import PTEditor.Library.Slots

/-!
# The kernel and the user-space resolver

`resolve_vm` tests an entry before it sets the level's valid bit, and tests it for
being empty; `ptedit_resolve_user_ext` sets the bit for what it has read and only
goes on below present entries.  `walks_agree_iff` compares the two descents on a
4-level x86_64 kernel: `SeenAlike` is exactly when they report the same, and
`resolvers_agree_iff` says so of `ptedit_resolve` under the two implementations.
-/

namespace PTEditor

/-- The descents of `resolve_vm` and of the user-space walker for one address below
one root on a 4-level x86_64 kernel. -/
structure OnFourLevel (kernel : KernelWalk) (user : Walk) : Prop where
  fourLevel : FourLevel kernel.host
  arch : user.arch = .x86_64
  definition : user.definition = .x86_64
  addr : user.addr = kernel.addr
  root : user.root = kernel.host.virtToPhys kernel.root
  read : ∀ pointer, kernel.read pointer = user.read (kernel.host.virtToPhys pointer)

/-- The tables on a walk lie in frames below a limit. -/
def Walk.FramesBelow (walk : Walk) (frames : Nat) : Prop :=
  ∀ level, level ≠ .pte → walk.Reached level → (walk.entry level).getLsbD 0 = true →
    (hardwareFrame (walk.entry level)).toNat < frames

/-- The entries for which the two descents report the same, in the words that
`resolve_vm` reads; `mem` reads physical memory. -/
structure SeenAlike (walk : KernelWalk) (mem : Word → Word) : Prop where
  root : walk.host.virtToPhys walk.root ≠ 0
  pgd : (walk.entry .pgd).getLsbD 0 = true
  /-- A PGD entry with the size bit points to no table. -/
  pgdSize : (walk.entry .pgd).getLsbD 7 = true → walk.host.p4dBad (walk.entry .pgd) = false ∧
    walk.entry .pud = mem (hardwareSlot .pud (walk.entry .pgd) walk.addr)
  pud : walk.entry .pud ≠ 0
  pudPresent : (walk.entry .pud).getLsbD 0 = true →
    (walk.entry .pud).getLsbD 7 = false ∧ (walk.entry .pmd).getLsbD 0 = true
  pudAbsent : (walk.entry .pud).getLsbD 0 = false → walk.entry .pmd = 0

/-- The same valid bits at the levels of a 4-level kernel, and the same entries where
both are valid. -/
def SameLevels (valid valid' : Level → Prop) (entry entry' : Level → Word) : Prop :=
  (∀ level, level ≠ .p4d → (valid level ↔ valid' level)) ∧
    ∀ level, valid level → valid' level → entry level = entry' level

theorem sameLevels_congr {valid valid' valids valids' : Level → Prop}
    {entry entry' entries entries' : Level → Word} (first : ∀ level, valid level ↔ valids level)
    (second : ∀ level, valid' level ↔ valids' level)
    (here : ∀ level, valid level → entry level = entries level)
    (there : ∀ level, valid' level → entry' level = entries' level) :
    SameLevels valid valid' entry entry' ↔ SameLevels valids valids' entries entries' := by
  unfold SameLevels
  refine and_congr (forall₂_congr fun level _ => ?_) (forall_congr' fun level => ?_)
  · rw [first, second]
  · rw [← first, ← second]
    refine forall₂_congr fun valid valid' => ?_
    rw [here level valid, there level valid']

/-- The walker's mask leaves the address of a page alone. -/
theorem and_not_one_of_aligned {root : Word} (aligned : root.toNat % 4096 = 0) :
    root &&& ~~~1#64 = root := by
  have even : root.getLsbD 0 = false := by
    rw [BitVec.getLsbD, Nat.testBit_zero, decide_eq_false_iff_not]
    omega
  apply BitVec.eq_of_getLsbD_eq
  intro i bound
  rw [BitVec.getLsbD_and, BitVec.getLsbD_not, BitVec.getLsbD_one]
  rcases Nat.eq_zero_or_pos i with rfl | positive
  · rw [even, Bool.false_and]
  · have ne : i ≠ 0 := by omega
    simp [ne, bound]

namespace OnFourLevel

variable {kernel : KernelWalk} {user : Walk}

theorem entry_pgd (both : OnFourLevel kernel user) : user.entry .pgd = kernel.entry .pgd := by
  change user.read (user.root + user.definition.intIndex .pgd user.addr * pteditEntrySize) =
    kernel.read (kernel.host.pgdOffset kernel.root kernel.addr)
  rw [both.read, both.fourLevel.pgdOffset, both.root, both.addr, both.definition,
    PteditPagingDefinition.intIndex_eq PteditPagingDefinition.x86_64_fits,
    PteditPagingDefinition.index_eq_indexField PteditPagingDefinition.x86_64_fits]
  rfl

theorem entry_p4d (both : OnFourLevel kernel user) : kernel.entry .p4d = kernel.entry .pgd := by
  change kernel.read (kernel.host.p4dOffset _ _ _) = kernel.read kernel.pgdPtr
  rw [both.fourLevel.p4dOffset]

theorem user_p4d (both : OnFourLevel kernel user) : user.entry .p4d = user.entry .pgd := by
  refine user.entry_of_not_exists ?_ rfl
  simp [Walk.Exists, both.definition, PteditPagingDefinition.has, PteditPagingDefinition.x86_64]

/-- Below an entry with a small frame the walker reads the slot that the hardware
reads. -/
theorem entry_below (both : OnFourLevel kernel user) {level up : Level}
    (above : level.above = some up) (here : user.Exists level)
    (frame : (hardwareFrame (user.entry up)).toNat < 2 ^ 28) :
    user.entry level = user.read (hardwareSlot level (user.entry up) kernel.addr) := by
  rw [user.entry_of_exists here, Walk.slot, above]
  dsimp only
  rw [tableSlot, both.arch, pfn_eq_hardwareFrame frame, both.addr, both.definition,
    PteditPagingDefinition.intIndex_eq PteditPagingDefinition.x86_64_fits,
    PteditPagingDefinition.index_eq_indexField PteditPagingDefinition.x86_64_fits]
  rfl

theorem exists_of_ne_p4d (both : OnFourLevel kernel user) {level : Level} (ne : level ≠ .p4d) :
    user.Exists level := by
  unfold Walk.Exists
  rw [both.definition]
  cases level with
  | p4d => exact absurd rfl ne
  | _ => decide

/-! ### Which levels are valid -/

theorem user_valid_p4d (both : OnFourLevel kernel user) : ¬ user.Valid .p4d := by
  intro valid
  have here := valid.1
  simp [Walk.Exists, both.definition, PteditPagingDefinition.has,
    PteditPagingDefinition.x86_64] at here

theorem user_present (both : OnFourLevel kernel user) (entry : Word) :
    Present user.arch entry ↔ entry.getLsbD 0 = true := by
  rw [both.arch, present_x86]

theorem user_valid_pgd (both : OnFourLevel kernel user) : user.Valid .pgd ↔
    kernel.host.virtToPhys kernel.root ≠ 0 ∧ (kernel.entry .pgd).getLsbD 0 = true := by
  rw [Walk.Valid, and_iff_right (both.exists_of_ne_p4d (by decide)), user.recorded_pgd, both.root,
    both.user_present]
  exact iff_of_eq (congrArg (fun entry : Word => _ ∧ entry.getLsbD 0 = true) both.entry_pgd)

theorem user_valid_pud (both : OnFourLevel kernel user) :
    user.Valid .pud ↔ user.Valid .pgd := by
  have p4d : user.p4dEntry = user.pgdEntry := both.user_p4d
  rw [Walk.Valid, Walk.Valid, and_iff_right (both.exists_of_ne_p4d (by decide)),
    and_iff_right (both.exists_of_ne_p4d (by decide)), user.recorded_pud, user.recorded_p4d,
    user.recorded_pgd, p4d]
  exact and_iff_left_of_imp And.right

theorem user_valid_pmd (both : OnFourLevel kernel user) :
    user.Valid .pmd ↔ user.Valid .pud ∧ (user.entry .pud).getLsbD 0 = true := by
  rw [Walk.Valid, Walk.Valid, and_iff_right (both.exists_of_ne_p4d (by decide)),
    and_iff_right (both.exists_of_ne_p4d (by decide)), user.recorded_pmd, both.user_present]
  rfl

theorem user_valid_pte (both : OnFourLevel kernel user) :
    user.Valid .pte ↔ user.Valid .pmd ∧ PointsToTable (user.entry .pmd) := by
  rw [Walk.Valid, Walk.Valid, and_iff_right (both.exists_of_ne_p4d (by decide)),
    and_iff_right (both.exists_of_ne_p4d (by decide)), user.recorded_pte, both.user_present,
    both.arch, large_x86, Bool.not_eq_true]
  rfl

theorem kernel_valid_pgd (both : OnFourLevel kernel user) : kernel.Valid .pgd := by
  refine ⟨by simp [Level.upper], ?_⟩
  change ¬ (kernel.host.pgdNone (kernel.entry .pgd) || kernel.host.pgdBad (kernel.entry .pgd))
  rw [both.fourLevel.pgdNone, both.fourLevel.pgdBad]
  exact Bool.false_ne_true

theorem kernel_valid_pud (both : OnFourLevel kernel user) : kernel.Valid .pud ↔
    kernel.entry .pgd ≠ 0 ∧ kernel.host.p4dBad (kernel.entry .pgd) = false ∧
      kernel.entry .pud ≠ 0 := by
  have pgd := both.kernel_valid_pgd.2
  have p4d : kernel.Passes .p4d ↔ kernel.entry .pgd ≠ 0 ∧
      kernel.host.p4dBad (kernel.entry .pgd) = false := by
    rw [← both.entry_p4d]
    exact KernelWalk.passes_p4d_iff both.fourLevel.p4dNone
  rw [KernelWalk.Valid, KernelWalk.passes_pud_iff both.fourLevel.pudNone]
  simp [Level.upper, pgd, p4d, and_assoc]

theorem kernel_valid_pmd (both : OnFourLevel kernel user) : kernel.Valid .pmd ↔
    kernel.Valid .pud ∧ kernel.entry .pmd ≠ 0 ∧
      ¬ ((kernel.entry .pud).getLsbD 0 = true ∧ (kernel.entry .pud).getLsbD 7 = true) := by
  have pmd : kernel.Passes .pmd ↔ kernel.entry .pmd ≠ 0 ∧
      ¬ ((kernel.entry .pud).getLsbD 0 = true ∧ (kernel.entry .pud).getLsbD 7 = true) := by
    rw [KernelWalk.passes_pmd_iff both.fourLevel.pmdNone, both.fourLevel.pudLeaf,
      ← Bool.not_eq_true, Bool.and_eq_true]
  rw [KernelWalk.Valid, KernelWalk.Valid, pmd]
  simp [Level.upper, and_assoc]

theorem kernel_valid_pte (both : OnFourLevel kernel user) : kernel.Valid .pte ↔
    kernel.Valid .pmd ∧
      ¬ ((kernel.entry .pmd).getLsbD 0 = true ∧ (kernel.entry .pmd).getLsbD 7 = true) := by
  have pte : kernel.Passes .pte ↔
      ¬ ((kernel.entry .pmd).getLsbD 0 = true ∧ (kernel.entry .pmd).getLsbD 7 = true) := by
    obtain ⟨slot, found, -⟩ :=
      both.fourLevel.pteOffset kernel.pmdPtr (kernel.entry .pmd) kernel.addr
    have mapped : kernel.ptePtr.isSome := Option.isSome_iff_exists.mpr ⟨slot, found⟩
    rw [KernelWalk.passes_pte_iff mapped, both.fourLevel.pmdLeaf, ← Bool.not_eq_true,
      Bool.and_eq_true]
  rw [KernelWalk.Valid, KernelWalk.Valid, pte]
  simp [Level.upper, and_assoc]

/-! ### Which entries they read -/

theorem kernel_pud (both : OnFourLevel kernel user) (table : PointsToTable (kernel.entry .pgd)) :
    kernel.entry .pud = user.read (hardwareSlot .pud (kernel.entry .pgd) kernel.addr) := by
  rw [← both.entry_p4d] at table ⊢
  rw [← both.fourLevel.pudOffset kernel.p4dPtr (kernel.entry .p4d) kernel.addr table, ← both.read]
  rfl

theorem kernel_pmd (both : OnFourLevel kernel user) (table : PointsToTable (kernel.entry .pud)) :
    kernel.entry .pmd = user.read (hardwareSlot .pmd (kernel.entry .pud) kernel.addr) := by
  rw [← both.fourLevel.pmdOffset kernel.pudPtr (kernel.entry .pud) kernel.addr table, ← both.read]
  rfl

theorem kernel_pte (both : OnFourLevel kernel user) (table : PointsToTable (kernel.entry .pmd)) :
    kernel.entry .pte = user.read (hardwareSlot .pte (kernel.entry .pmd) kernel.addr) := by
  obtain ⟨slot, found, place⟩ :=
    both.fourLevel.pteOffset kernel.pmdPtr (kernel.entry .pmd) kernel.addr
  have pointer : kernel.pointer .pte = some slot := found
  rw [← place table, ← both.read, KernelWalk.entry, pointer]

theorem user_pud (both : OnFourLevel kernel user) (frames : user.FramesBelow (2 ^ 28))
    (valid : user.Valid .pgd) :
    user.entry .pud = user.read (hardwareSlot .pud (kernel.entry .pgd) kernel.addr) := by
  have present := (both.user_valid_pgd.mp valid).2
  rw [← both.entry_pgd] at present
  have frame := frames .pgd (by decide) valid.2.1 present
  rw [← both.user_p4d] at frame
  rw [both.entry_below rfl (both.exists_of_ne_p4d (by decide)) frame, both.user_p4d,
    both.entry_pgd]

theorem user_pmd (both : OnFourLevel kernel user) (frames : user.FramesBelow (2 ^ 28))
    (valid : user.Valid .pmd) :
    user.entry .pmd = user.read (hardwareSlot .pmd (user.entry .pud) kernel.addr) := by
  obtain ⟨pud, present⟩ := both.user_valid_pmd.mp valid
  exact both.entry_below rfl valid.1 (frames .pud (by decide) pud.2.1 present)

theorem user_pte (both : OnFourLevel kernel user) (frames : user.FramesBelow (2 ^ 28))
    (valid : user.Valid .pte) :
    user.entry .pte = user.read (hardwareSlot .pte (user.entry .pmd) kernel.addr) := by
  obtain ⟨pmd, table⟩ := both.user_valid_pte.mp valid
  exact both.entry_below rfl valid.1 (frames .pmd (by decide) pmd.2.1 table.1)

/-! ### When they agree -/

theorem seenAlike_of_sameLevels (both : OnFourLevel kernel user)
    (frames : user.FramesBelow (2 ^ 28))
    (reported : SameLevels kernel.Valid user.Valid kernel.entry user.entry) :
    SeenAlike kernel user.read := by
  obtain ⟨valid, same⟩ := reported
  have pgd : user.Valid .pgd := (valid .pgd (by decide)).mp both.kernel_valid_pgd
  have pud : user.Valid .pud := both.user_valid_pud.mpr pgd
  have kernelPud : kernel.Valid .pud := (valid .pud (by decide)).mpr pud
  obtain ⟨root, present⟩ := both.user_valid_pgd.mp pgd
  obtain ⟨-, accepted, nonempty⟩ := both.kernel_valid_pud.mp kernelPud
  have samePud : kernel.entry .pud = user.entry .pud := same .pud kernelPud pud
  refine ⟨root, present, fun _ => ⟨accepted, ?_⟩, nonempty, fun here => ?_, fun absent => ?_⟩
  · rw [samePud]
    exact both.user_pud frames pgd
  · have pmd : user.Valid .pmd := both.user_valid_pmd.mpr ⟨pud, by rw [← samePud]; exact here⟩
    have kernelPmd : kernel.Valid .pmd := (valid .pmd (by decide)).mpr pmd
    have samePmd : kernel.entry .pmd = user.entry .pmd := same .pmd kernelPmd pmd
    obtain ⟨-, -, table⟩ := both.kernel_valid_pmd.mp kernelPmd
    refine ⟨by simpa [here] using table, ?_⟩
    -- a PMD entry that is not present has a PTE for the kernel only
    by_contra absent
    have kernelPte : kernel.Valid .pte :=
      both.kernel_valid_pte.mpr ⟨kernelPmd, fun large => absent large.1⟩
    have pte : user.Valid .pte := (valid .pte (by decide)).mp kernelPte
    have here := (both.user_valid_pte.mp pte).2.1
    rw [← samePmd] at here
    exact absent here
  · by_contra nonzero
    have kernelPmd : kernel.Valid .pmd := by
      refine both.kernel_valid_pmd.mpr ⟨kernelPud, nonzero, fun leaf => ?_⟩
      rw [absent] at leaf
      exact Bool.false_ne_true leaf.1
    have pmd : user.Valid .pmd := (valid .pmd (by decide)).mp kernelPmd
    have here := (both.user_valid_pmd.mp pmd).2
    rw [← samePud, absent] at here
    exact Bool.false_ne_true here

theorem entry_pud_of_seenAlike (both : OnFourLevel kernel user)
    (frames : user.FramesBelow (2 ^ 28)) (alike : SeenAlike kernel user.read) :
    kernel.entry .pud = user.entry .pud := by
  rw [both.user_pud frames (both.user_valid_pgd.mpr ⟨alike.root, alike.pgd⟩)]
  cases size : (kernel.entry .pgd).getLsbD 7 with
  | false => exact both.kernel_pud ⟨alike.pgd, size⟩
  | true => exact (alike.pgdSize size).2

theorem kernel_valid_pud_of_seenAlike (both : OnFourLevel kernel user)
    (alike : SeenAlike kernel user.read) : kernel.Valid .pud := by
  refine both.kernel_valid_pud.mpr ⟨fun zero => ?_, ?_, alike.pud⟩
  · have present := alike.pgd
    rw [zero] at present
    exact Bool.false_ne_true present
  · cases size : (kernel.entry .pgd).getLsbD 7 with
    | false => exact both.fourLevel.p4dBad _ ⟨alike.pgd, size⟩
    | true => exact (alike.pgdSize size).1

theorem sameLevels_of_seenAlike (both : OnFourLevel kernel user)
    (frames : user.FramesBelow (2 ^ 28)) (alike : SeenAlike kernel user.read) :
    SameLevels kernel.Valid user.Valid kernel.entry user.entry := by
  have pgd : user.Valid .pgd := both.user_valid_pgd.mpr ⟨alike.root, alike.pgd⟩
  have pud : user.Valid .pud := both.user_valid_pud.mpr pgd
  have samePud := both.entry_pud_of_seenAlike frames alike
  have kernelPud := both.kernel_valid_pud_of_seenAlike alike
  -- at the PMD and below either both descents are valid, with one entry, or neither is
  have below : ∀ level, level = .pmd ∨ level = .pte →
      (kernel.Valid level ∧ user.Valid level ∧ kernel.entry level = user.entry level) ∨
        (¬ kernel.Valid level ∧ ¬ user.Valid level) := by
    cases here : (kernel.entry .pud).getLsbD 0 with
    | false =>
        have kernelPmd : ¬ kernel.Valid .pmd :=
          fun valid => (both.kernel_valid_pmd.mp valid).2.1 (alike.pudAbsent here)
        have pmd : ¬ user.Valid .pmd := by
          intro valid
          have present := (both.user_valid_pmd.mp valid).2
          rw [← samePud, here] at present
          exact Bool.false_ne_true present
        rintro level (rfl | rfl)
        · exact .inr ⟨kernelPmd, pmd⟩
        · exact .inr ⟨fun valid => kernelPmd (both.kernel_valid_pte.mp valid).1,
            fun valid => pmd (both.user_valid_pte.mp valid).1⟩
    | true =>
        obtain ⟨table, present⟩ := alike.pudPresent here
        have pmd : user.Valid .pmd := both.user_valid_pmd.mpr ⟨pud, by rw [← samePud]; exact here⟩
        have samePmd : kernel.entry .pmd = user.entry .pmd := by
          rw [both.user_pmd frames pmd, both.kernel_pmd ⟨here, table⟩, samePud]
        have kernelPmd : kernel.Valid .pmd := by
          refine both.kernel_valid_pmd.mpr ⟨kernelPud, fun zero => ?_, fun leaf => ?_⟩
          · rw [zero] at present
            exact Bool.false_ne_true present
          · rw [table] at leaf
            exact Bool.false_ne_true leaf.2
        rintro level (rfl | rfl)
        · exact .inl ⟨kernelPmd, pmd, samePmd⟩
        · cases size : (kernel.entry .pmd).getLsbD 7 with
          | false =>
              have pte : user.Valid .pte :=
                both.user_valid_pte.mpr ⟨pmd, by rw [← samePmd]; exact ⟨present, size⟩⟩
              have kernelPte : kernel.Valid .pte := by
                refine both.kernel_valid_pte.mpr ⟨kernelPmd, fun leaf => ?_⟩
                rw [size] at leaf
                exact Bool.false_ne_true leaf.2
              refine .inl ⟨kernelPte, pte, ?_⟩
              rw [both.user_pte frames pte, both.kernel_pte ⟨present, size⟩, samePmd]
          | true =>
              refine .inr ⟨fun valid => (both.kernel_valid_pte.mp valid).2 ⟨present, size⟩, ?_⟩
              intro valid
              have table := (both.user_valid_pte.mp valid).2.2
              rw [← samePmd, size] at table
              cases table
  have each : ∀ level, level ≠ .p4d →
      (kernel.Valid level ∧ user.Valid level ∧ kernel.entry level = user.entry level) ∨
        (¬ kernel.Valid level ∧ ¬ user.Valid level) := by
    intro level ne
    cases level with
    | pgd => exact .inl ⟨both.kernel_valid_pgd, pgd, both.entry_pgd.symm⟩
    | p4d => exact absurd rfl ne
    | pud => exact .inl ⟨kernelPud, pud, samePud⟩
    | pmd => exact below .pmd (.inl rfl)
    | pte => exact below .pte (.inr rfl)
  refine ⟨fun level ne => ?_, fun level valid valid' => ?_⟩
  · rcases each level ne with ⟨inKernel, inUser, -⟩ | ⟨inKernel, inUser⟩
    · exact iff_of_true inKernel inUser
    · exact iff_of_false inKernel inUser
  · have ne : level ≠ .p4d := fun folded => both.user_valid_p4d (folded ▸ valid')
    rcases each level ne with ⟨-, -, same⟩ | ⟨inKernel, -⟩
    · exact same
    · exact absurd valid inKernel

/-- **The two descents report the same exactly where `SeenAlike` holds.** -/
theorem walks_agree_iff (both : OnFourLevel kernel user) (frames : user.FramesBelow (2 ^ 28)) :
    SameLevels kernel.Valid user.Valid kernel.entry user.entry ↔ SeenAlike kernel user.read :=
  ⟨both.seenAlike_of_sameLevels frames, both.sameLevels_of_seenAlike frames⟩

end OnFourLevel

/-! ## `ptedit_resolve` under the two implementations -/

/-- **The kernel and the pread implementation agree exactly where `SeenAlike` holds.** -/
theorem resolvers_agree_iff {sys : System} {lib : Lib} {w : World} {address : Word} {pid : Pid}
    {mm : Mm} (attached : Attached sys lib w) (fourLevel : FourLevel sys.host)
    (umem : sys.file lib.umem = .umem) (definition : lib.pagingDefinition = .x86_64)
    (live : sys.host.getMm (sizeOfInt pid) = some mm)
    (pageAligned : (sys.host.virtToPhys (w.kernel.pgd mm)).toNat % 4096 = 0)
    (frames : (sys.userWalk (sys.useImplementation lib w.kernel pteditImplUserPread) w.kernel
      address pid).FramesBelow (2 ^ 28)) :
    ∃ kernel pread byKernel byPread,
      Prog.run (sysHandler sys) (pteditUseImplementation lib pteditImplKernel) w =
        some (kernel, w) ∧
      Prog.run (sysHandler sys) (pteditUseImplementation lib pteditImplUserPread) w =
        some (pread, w) ∧
      Prog.run (sysHandler sys) (pteditResolve kernel address pid) w = some (byKernel, w) ∧
      Prog.run (sysHandler sys) (pteditResolve pread address pid) w = some (byPread, w) ∧
      (SameLevels byKernel.Valid byPread.Valid byKernel.field byPread.field ↔
        SeenAlike (w.kernel.walk sys.host address mm) w.kernel.mem.read) := by
  let pread := sys.useImplementation lib w.kernel pteditImplUserPread
  let kernelWalk := w.kernel.walk sys.host address mm
  let userWalk := sys.userWalk pread w.kernel address pid
  have kernelAttached : Attached sys (sys.useImplementation lib w.kernel pteditImplKernel) w :=
    ⟨attached.device, attached.arch, attached.loaded⟩
  have preadAttached : Attached sys pread w := ⟨attached.device, attached.arch, attached.loaded⟩
  have root : userWalk.root = sys.host.virtToPhys (w.kernel.pgd mm) := by
    have reported : sys.pagingRoot w.kernel pid = sys.host.virtToPhys (w.kernel.pgd mm) := by
      rw [pagingRoot_of_mm live, System.rootOf, fourLevel.arch, if_neg (by simp)]
    have cached : (if pid = 0 then sys.pagingRoot w.kernel 0 else sys.pagingRoot w.kernel pid) =
        sys.pagingRoot w.kernel pid := by
      split
      next own => rw [own]
      next => rfl
    change (if pid = 0 then sys.pagingRoot w.kernel 0 else sys.pagingRoot w.kernel pid) &&&
      ~~~1#64 = _
    rw [cached, reported, and_not_one_of_aligned pageAligned]
  have both : OnFourLevel kernelWalk userWalk :=
    ⟨fourLevel, attached.arch.trans fourLevel.arch, definition, rfl, root, fun _ => rfl⟩
  refine ⟨_, _, _, _, run_pteditUseImplementation attached _,
    run_pteditUseImplementation attached _, run_pteditResolveKernel kernelAttached address pid,
    run_pteditResolve preadAttached (.pread rfl umem), ?_⟩
  refine Iff.trans (sameLevels_congr ?_ ?_ ?_ ?_) (both.walks_agree_iff frames)
  · exact fun level => valid_kernelEntry live level
  · exact fun level => userWalk.valid_resolved (sizeOfInt pid) level
  · intro level valid
    exact (field_kernelEntry live level).trans (if_pos ((valid_kernelEntry live level).mp valid))
  · intro level valid
    have recorded := ((userWalk.valid_resolved (sizeOfInt pid) level).mp valid).2
    exact (userWalk.field_resolved (sizeOfInt pid) level).trans (if_pos recorded)

theorem usePread_sample :
    sampleSystem.useImplementation sampleLib sampleWorld.kernel pteditImplUserPread =
      sampleLib := by
  have root : sampleSystem.pagingRoot sampleWorld.kernel 0 = 0x1000 := pagingRoot_sample sampleMem
  rw [System.useImplementation, root]
  rfl

/-- Below an empty PGD entry the kernel reports the PGD valid, and the walker does not. -/
theorem resolvers_differ_on_emptyPgd :
    FourLevel sampleSystem.host ∧ Attached sampleSystem sampleLib sampleWorld ∧
    (sampleSystem.userWalk sampleLib sampleWorld.kernel 0x8000000000 1).FramesBelow (2 ^ 28) ∧
    ∃ byKernel byPread,
      Prog.run (sysHandler sampleSystem) (pteditUseImplementation sampleLib pteditImplKernel)
        sampleWorld = some ({ sampleLib with implementation := .kernel }, sampleWorld) ∧
      Prog.run (sysHandler sampleSystem) (pteditUseImplementation sampleLib pteditImplUserPread)
        sampleWorld = some (sampleLib, sampleWorld) ∧
      Prog.run (sysHandler sampleSystem)
        (pteditResolve { sampleLib with implementation := .kernel } 0x8000000000 1) sampleWorld =
          some (byKernel, sampleWorld) ∧
      Prog.run (sysHandler sampleSystem) (pteditResolve sampleLib 0x8000000000 1) sampleWorld =
        some (byPread, sampleWorld) ∧
      byKernel.Valid .pgd ∧ ¬ byPread.Valid .pgd ∧
      ¬ SameLevels byKernel.Valid byPread.Valid byKernel.field byPread.field := by
  have kernel : Attached sampleSystem { sampleLib with implementation := .kernel } sampleWorld :=
    ⟨rfl, rfl, sampleKernel_loaded⟩
  have inKernel : (sampleSystem.kernelEntry sampleWorld.kernel 0x8000000000 1).Valid .pgd := by
    decide +kernel
  have inUser : ¬ ((sampleSystem.userWalk sampleLib sampleWorld.kernel 0x8000000000 1).resolved
      (sizeOfInt 1)).Valid .pgd := by
    decide +kernel
  refine ⟨sampleHost_fourLevel, sample_attached, ?_, _, _, ?_, ?_,
    run_pteditResolveKernel kernel _ _, run_pteditResolve sample_attached (sample_access _),
    inKernel, inUser, fun same => inUser ((same.1 .pgd (by decide)).mp inKernel)⟩
  · have empty : ∀ level, (sampleSystem.userWalk sampleLib sampleWorld.kernel 0x8000000000 1).entry
        level = 0 := by
      intro level
      cases level <;> decide +kernel
    intro level _ _ present
    rw [empty level] at present
    cases present
  · exact run_pteditUseImplementation sample_attached pteditImplKernel
  · rw [run_pteditUseImplementation sample_attached, usePread_sample]

theorem resolvers_agree_iff_sample :
    ∃ kernel pread byKernel byPread,
      Prog.run (sysHandler sampleSystem) (pteditUseImplementation sampleLib pteditImplKernel)
        sampleWorld = some (kernel, sampleWorld) ∧
      Prog.run (sysHandler sampleSystem) (pteditUseImplementation sampleLib pteditImplUserPread)
        sampleWorld = some (pread, sampleWorld) ∧
      Prog.run (sysHandler sampleSystem) (pteditResolve kernel 0x345 1) sampleWorld =
        some (byKernel, sampleWorld) ∧
      Prog.run (sysHandler sampleSystem) (pteditResolve pread 0x345 1) sampleWorld =
        some (byPread, sampleWorld) ∧
      SameLevels byKernel.Valid byPread.Valid byKernel.field byPread.field := by
  have entries : ∀ level, level ≠ .pte →
      (sampleSystem.userWalk sampleLib sampleWorld.kernel 0x345 1).entry level ∈
        [(0x2003 : Word), 0x3003, 0x4003] := by
    intro level ne
    cases level <;> first | exact absurd rfl ne | decide +kernel
  have frames : (sampleSystem.userWalk (sampleSystem.useImplementation sampleLib sampleWorld.kernel
      pteditImplUserPread) sampleWorld.kernel 0x345 1).FramesBelow (2 ^ 28) := by
    rw [usePread_sample]
    intro level ne _ _
    have entry := entries level ne
    simp only [List.mem_cons, List.not_mem_nil, or_false] at entry
    rcases entry with first | second | third
    · rw [first, show hardwareFrame 0x2003 = 2 by decide]
      simp
    · rw [second, show hardwareFrame 0x3003 = 3 by decide]
      simp
    · rw [third, show hardwareFrame 0x4003 = 4 by decide]
      simp
  have alike : SeenAlike (sampleWorld.kernel.walk sampleHost 0x345 0) sampleMem.read := by
    have pgd : (sampleWorld.kernel.walk sampleHost 0x345 0).entry .pgd = 0x2003 := by decide +kernel
    have pud : (sampleWorld.kernel.walk sampleHost 0x345 0).entry .pud = 0x3003 := by decide +kernel
    have pmd : (sampleWorld.kernel.walk sampleHost 0x345 0).entry .pmd = 0x4003 := by decide +kernel
    refine ⟨by decide +kernel, ?_, ?_, ?_, ?_, ?_⟩
    · rw [pgd]
      decide
    · rw [pgd]
      exact fun size => absurd size (by decide)
    · rw [pud]
      decide
    · rw [pud, pmd]
      decide
    · rw [pud]
      exact fun absent => absurd absent (by decide)
  obtain ⟨kernel, pread, byKernel, byPread, useKernel, usePread, runKernel, runPread, agree⟩ :=
    @resolvers_agree_iff sampleSystem sampleLib sampleWorld 0x345 1 0 sample_attached
      sampleHost_fourLevel rfl rfl (by decide) (by decide +kernel) frames
  exact ⟨kernel, pread, byKernel, byPread, useKernel, usePread, runKernel, runPread,
    agree.mpr alike⟩

end PTEditor
