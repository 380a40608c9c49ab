import PTEditor.Library.PteditSpec

/-!
# The process around the library

`ptedit_init` and `ptedit_cleanup` of `ptedit.c`, with the descriptors of the process
and the module's `device_busy` as their state (`Process`).  The other code of the
library runs in a process as it does on the system that the descriptors make
(`run_inProcess`), and `run_pteditInit` says what `ptedit_init` leaves.
-/

namespace PTEditor

/-- The files a process opens: the device, `/proc/umem`, or any other. -/
inductive Path where
  | device
  | umem
  | other
  deriving DecidableEq, Repr

def Path.file : Path → File
  | .device => .device
  | .umem => .umem
  | .other => .other

/-- What does not change while a process runs.  `present` says which files there are
to open, and `alloc` which number the kernel gives the next descriptor. -/
structure Machine where
  host : Host
  foreignRead : Int → Nat → Word → Option (List (BitVec 8))
  locals : Block
  pagesize : Pid
  present : Path → Bool
  alloc : (Int → File) → Option Int
  free : ∀ files fd, alloc files = some fd → 0 ≤ fd ∧ files fd = .closed

/-- A process, with the module's `device_busy`. -/
structure Process where
  world : World
  files : Int → File
  deviceBusy : Bool

/-- The system that the library's calls work on. -/
def Machine.system (m : Machine) (files : Int → File) : System :=
  { host := m.host, file := files, foreignRead := m.foreignRead, locals := m.locals }

/-! ## Opening and closing -/

/-- `EBUSY`. -/
def ebusy : Int := 16

/-- `device_open`: its value, and `device_busy` after it. -/
def deviceOpen (deviceBusy : Bool) : Int × Bool :=
  if deviceBusy then (-ebusy, deviceBusy) else (0, true)

/-- `device_release`: its value, and `device_busy` after it. -/
def deviceRelease : Int × Bool := (0, false)

/-- `open`: the new descriptor or -1. -/
def Machine.openPath (m : Machine) (path : Path) (p : Process) : Int × Process :=
  match m.present path, m.alloc p.files with
  | true, some fd =>
      let files := Function.update p.files fd path.file
      if path = .device then
        let (result, deviceBusy) := deviceOpen p.deviceBusy
        if result < 0 then (-1, { p with deviceBusy }) else (fd, { p with files, deviceBusy })
      else
        (fd, { p with files })
  | _, _ => (-1, p)

/-- `close`. -/
def Process.close (p : Process) (fd : Int) : Int × Process :=
  let files := Function.update p.files fd .closed
  match p.files fd with
  | .closed => (-1, p)
  | .device => (deviceRelease.1, { p with files, deviceBusy := deviceRelease.2 })
  | _ => (0, { p with files })

/-- The calls of the library that act on the process. -/
inductive ProcessOp where
  | openPath (path : Path)
  | close (fd : Int)
  | getpagesize
  | sys (op : SysOp)

def ProcessOp.Res : ProcessOp → Type
  | .openPath _ => Int
  | .close _ => Int
  | .getpagesize => Pid
  | .sys op => op.Res

/-- The effect of each call. -/
def processHandler (m : Machine) : Prog.Handler ProcessOp ProcessOp.Res Process
  | .openPath path, p => some (m.openPath path p)
  | .close fd, p => some (p.close fd)
  | .getpagesize, p => some (m.pagesize, p)
  | .sys op, p =>
      (sysHandler (m.system p.files) op p.world).map fun (r, world) => (r, { p with world })

/-- A piece of library code that opens or closes descriptors. -/
abbrev ProcessProg (α : Type) : Type := Prog ProcessOp ProcessOp.Res α

namespace ProcessProg

def openPath (path : Path) : ProcessProg Int := Prog.perform (ProcessOp.openPath path)

def close (fd : Int) : ProcessProg Int := Prog.perform (ProcessOp.close fd)

def getpagesize : ProcessProg Pid := Prog.perform ProcessOp.getpagesize

/-- Library code that works with the descriptors as they are. -/
def inProcess {α : Type} (code : Sys α) : ProcessProg α :=
  code.translate fun op => Prog.perform (ProcessOp.sys op)

end ProcessProg

open ProcessProg

/-! ## The code -/

/-- The library's variables before the first call. -/
def Lib.static (arch : Arch) : Lib where
  arch := arch
  fd := 0
  umem := 0
  pagesize := 0
  pagingRoot := 0
  vmem := .null
  pagingDefinition :=
    { hasPgd := 0, hasP4d := 0, hasPud := 0, hasPmd := 0, hasPt := 0, pgdEntries := 0,
      p4dEntries := 0, pudEntries := 0, pmdEntries := 0, ptEntries := 0, pageOffset := 0 }
  implementation := .unset

/-- What `ptedit_init` stores in `ptedit_umem`. -/
def openUmem (arch : Arch) : ProcessProg Int :=
  if arch = .aarch64 then pure 0 else openPath .umem

/-- The end of `ptedit_init`, from its `ptedit_paging_definition` on. -/
def initPaging (lib : Lib) : ProcessProg Lib :=
  match lib.arch with
  | .x86_64 => pure { lib with pagingDefinition := .x86_64 }
  | .aarch64 => do
      let size ← inProcess (pteditGetPagesize lib)
      if size = 16384 then
        inProcess (pteditUseImplementation { lib with pagingDefinition := .aarch64Pages16k }
          pteditImplUserPread)
      else
        pure { lib with pagingDefinition := .aarch64Pages4k }

/-- `ptedit_init`: its value, and the library's variables after it. -/
def pteditInit (lib : Lib) : ProcessProg (Int × Lib) := do
  let fd ← openPath .device
  if fd < 0 then
    pure (-1, { lib with fd })
  else do
    let umem ← openUmem lib.arch
    let lib ← inProcess (pteditUseImplementation { lib with fd, umem } pteditImplKernel)
    let pagesize ← getpagesize
    let lib ← initPaging { lib with pagesize }
    pure (0, lib)

/-- A descriptor is closed when the test before it holds. -/
def closeIf (held : Prop) [Decidable held] (fd : Int) : ProcessProg Unit :=
  if held then do
    let _ ← close fd
    pure ()
  else
    pure ()

/-- `ptedit_cleanup`. -/
def pteditCleanup (lib : Lib) : ProcessProg Unit := do
  closeIf (0 ≤ lib.fd) lib.fd
  closeIf (0 < lib.umem) lib.umem

/-! ## What the code does -/

/-- The process once a descriptor is open. -/
def Process.withOpen (p : Process) (fd : Int) (path : Path) : Process :=
  { p with
    files := Function.update p.files fd path.file
    deviceBusy := if path = .device then true else p.deviceBusy }

theorem files_withOpen (p : Process) (fd : Int) (path : Path) (x : Int) :
    (p.withOpen fd path).files x = if x = fd then path.file else p.files x :=
  Function.update_apply _ _ _ _

/-- **Opening.**  It fails and changes nothing, or adds one descriptor that was free; the
device is only opened when it is not busy. -/
theorem openPath_cases (m : Machine) (path : Path) (p : Process) :
    m.openPath path p = (-1, p) ∨
      ∃ fd, 0 ≤ fd ∧ p.files fd = .closed ∧ (path = .device → p.deviceBusy = false) ∧
        m.openPath path p = (fd, p.withOpen fd path) := by
  unfold Machine.openPath
  cases m.present path with
  | false => exact .inl rfl
  | true =>
      cases given : m.alloc p.files with
      | none => exact .inl rfl
      | some fd =>
          obtain ⟨nonneg, free⟩ := m.free _ _ given
          unfold Process.withOpen
          by_cases device : path = .device
          · cases busy : p.deviceBusy with
            | true =>
                left
                simp [device, deviceOpen, ebusy, busy.symm]
            | false =>
                right
                exact ⟨fd, nonneg, free, fun _ => rfl, by simp [device, deviceOpen]⟩
          · right
            exact ⟨fd, nonneg, free, fun is => absurd is device, by simp [device]⟩

/-- A descriptor that is open stays what it is when another is opened. -/
theorem files_openPath_of_open {m : Machine} {path : Path} {p : Process} {fd : Int}
    (opened : p.files fd ≠ .closed) : (m.openPath path p).2.files fd = p.files fd := by
  rcases openPath_cases m path p with failed | ⟨new, -, free, -, added⟩
  · rw [failed]
  · have other : fd ≠ new := fun same => opened (same ▸ free)
    rw [added]
    exact Function.update_of_ne other _ _

/-- Opening another file opens no device. -/
theorem device_of_openPath_ne {m : Machine} {path : Path} {p : Process} {fd : Int}
    (other : path ≠ .device) (device : (m.openPath path p).2.files fd = .device) :
    p.files fd = .device := by
  rcases openPath_cases m path p with failed | ⟨new, -, -, -, added⟩
  · rwa [failed] at device
  · rw [added] at device
    change (p.withOpen new path).files fd = .device at device
    rw [files_withOpen] at device
    split at device
    next =>
      cases path with
      | device => exact absurd rfl other
      | umem | other => cases device
    next => exact device

theorem deviceBusy_openPath_ne {m : Machine} {path : Path} {p : Process} (other : path ≠ .device) :
    (m.openPath path p).2.deviceBusy = p.deviceBusy := by
  rcases openPath_cases m path p with failed | ⟨new, -, -, -, added⟩
  · rw [failed]
  · rw [added]
    exact if_neg other

/-- The process once a descriptor is closed. -/
def Process.withClosed (p : Process) (fd : Int) : Process :=
  { p with
    files := Function.update p.files fd .closed
    deviceBusy := if p.files fd = .device then false else p.deviceBusy }

/-- **Closing.**  The descriptor is closed afterwards, and the device free if it was its. -/
theorem close_snd (p : Process) (fd : Int) : (p.close fd).2 = p.withClosed fd := by
  unfold Process.close Process.withClosed
  cases file : p.files fd with
  | closed =>
      have same : Function.update p.files fd .closed = p.files := by
        rw [← file, Function.update_eq_self]
      rw [same]
      rfl
  | device | umem | other => rfl

/-- The device's descriptor refers to the device. -/
theorem device_of_openPath (m : Machine) (p : Process) (opened : 0 ≤ (m.openPath .device p).1) :
    (m.openPath .device p).2.files (m.openPath .device p).1 = .device := by
  rcases openPath_cases m .device p with failed | ⟨fd, -, -, -, added⟩
  · rw [failed] at opened
    cases opened
  · rw [added]
    exact Function.update_self _ _ _

section Runs

variable {m : Machine} {p : Process}

/-- Other library code runs as it does on the system that the descriptors make. -/
theorem run_inProcess {α : Type} (code : Sys α) :
    Prog.run (processHandler m) (inProcess code) p =
      (Prog.run (sysHandler (m.system p.files)) code p.world).map
        fun (value, world) => (value, { p with world }) := by
  have embeds : ∀ (op : SysOp) (w : World), Prog.run (processHandler m)
      (Prog.perform (ProcessOp.sys op)) { p with world := w } =
        (sysHandler (m.system p.files) op w).map fun (r, world) => (r, { p with world }) :=
    fun op w => Prog.run_perform _ _
  exact Prog.run_translate_embed embeds code p.world

/-- The descriptor in `ptedit_umem` after `ptedit_init`. -/
def Machine.openUmem (m : Machine) (arch : Arch) (p : Process) : Int × Process :=
  if arch = .aarch64 then (0, p) else m.openPath .umem p

/-- `ptedit_umem` is a new descriptor of `/proc/umem`, or not positive. -/
theorem openUmem_cases (m : Machine) (arch : Arch) (p : Process) :
    ((m.openUmem arch p).1 ≤ 0 ∧ (m.openUmem arch p).2 = p) ∨
      ∃ umem, p.files umem = .closed ∧ m.openUmem arch p = (umem, p.withOpen umem .umem) := by
  unfold Machine.openUmem
  split
  next => exact .inl ⟨Int.le_refl 0, rfl⟩
  next =>
    rcases openPath_cases m .umem p with failed | ⟨umem, -, free, -, added⟩
    · rw [failed]
      exact .inl ⟨Int.neg_nonpos_of_nonneg Int.one_nonneg, rfl⟩
    · exact .inr ⟨umem, free, added⟩

/-- The library's variables after `ptedit_init`, given its two descriptors. -/
def Machine.initialised (m : Machine) (lib : Lib) (p : Process) (fd umem : Int) : Lib :=
  let opened := { lib with fd, umem, implementation := .kernel, pagesize := m.pagesize }
  match lib.arch with
  | .x86_64 => { opened with pagingDefinition := .x86_64 }
  | .aarch64 =>
      if p.world.kernel.realPageSize.toInt = 16384 then
        { opened with
          pagingDefinition := .aarch64Pages16k
          implementation := .userPread
          pagingRoot := (m.system p.files).pagingRoot p.world.kernel 0 }
      else
        { opened with pagingDefinition := .aarch64Pages4k }

/-- What `ptedit_init` returns, with the variables and the process it leaves. -/
def Machine.init (m : Machine) (lib : Lib) (p : Process) : (Int × Lib) × Process :=
  let (fd, opened) := m.openPath .device p
  if fd < 0 then
    ((-1, { lib with fd }), opened)
  else
    let (umem, ready) := m.openUmem lib.arch opened
    ((0, m.initialised lib ready fd umem), ready)

theorem run_openUmem (arch : Arch) :
    Prog.run (processHandler m) (openUmem arch) p = some (m.openUmem arch p) := by
  unfold openUmem Machine.openUmem
  split
  next => rfl
  next => exact Prog.run_perform _ _

theorem files_openUmem_of_open {arch : Arch} {fd : Int} (opened : p.files fd ≠ .closed) :
    (m.openUmem arch p).2.files fd = p.files fd := by
  unfold Machine.openUmem
  split
  next => rfl
  next => exact files_openPath_of_open opened

/-- With the device open, the rest of `ptedit_init` leaves the process as it is. -/
theorem run_initPaging {lib : Lib} {fd umem : Int} (device : p.files fd = .device) :
    Prog.run (processHandler m) (initPaging { lib with
        fd, umem, implementation := .kernel, pagesize := m.pagesize }) p =
      some (m.initialised lib p fd umem, p) := by
  unfold initPaging Machine.initialised
  cases lib.arch with
  | x86_64 => rfl
  | aarch64 =>
      dsimp only
      have size : Prog.run (processHandler m) (inProcess (pteditGetPagesize { lib with
          arch := .aarch64, fd, umem, implementation := .kernel, pagesize := m.pagesize })) p =
            some (p.world.kernel.realPageSize.toInt, p) := by
        rw [run_inProcess, run_pteditGetPagesize device]
        rfl
      rw [Prog.run_bind_of_some size]
      split
      next =>
        rw [run_inProcess, run_pteditUseImplementation_of_device device]
        rfl
      next => rfl

@[simp] theorem fd_initialised (lib : Lib) (fd umem : Int) :
    (m.initialised lib p fd umem).fd = fd := by
  unfold Machine.initialised
  cases lib.arch with
  | x86_64 => rfl
  | aarch64 =>
      dsimp only
      split <;> rfl

@[simp] theorem umem_initialised (lib : Lib) (fd umem : Int) :
    (m.initialised lib p fd umem).umem = umem := by
  unfold Machine.initialised
  cases lib.arch with
  | x86_64 => rfl
  | aarch64 =>
      dsimp only
      split <;> rfl

theorem run_pteditInit (lib : Lib) :
    Prog.run (processHandler m) (pteditInit lib) p = some (m.init lib p) := by
  have opens : Prog.run (processHandler m) (openPath .device) p = some (m.openPath .device p) :=
    Prog.run_perform _ _
  unfold pteditInit Machine.init
  have fresh := device_of_openPath m p
  generalize m.openPath .device p = first at opens fresh
  obtain ⟨fd, opened⟩ := first
  rw [Prog.run_bind_of_some opens]
  by_cases failed : fd < 0
  · simp only [if_pos failed]
    rfl
  · have device : opened.files fd = .device := fresh (Int.not_lt.mp failed)
    have kept := @files_openUmem_of_open m opened lib.arch fd (by rw [device]; decide)
    have umem := @run_openUmem m opened lib.arch
    simp only [if_neg failed]
    generalize m.openUmem lib.arch opened = second at umem kept
    obtain ⟨umemFd, ready⟩ := second
    have kernel : Prog.run (processHandler m) (inProcess (pteditUseImplementation
        { lib with fd, umem := umemFd } pteditImplKernel)) ready =
          some ({ lib with fd, umem := umemFd, implementation := .kernel }, ready) := rfl
    have size : Prog.run (processHandler m) getpagesize ready = some (m.pagesize, ready) :=
      Prog.run_perform _ _
    have paging := @run_initPaging m ready lib fd umemFd (kept.trans device)
    rw [Prog.run_bind_of_some umem, Prog.run_bind_of_some kernel, Prog.run_bind_of_some size,
      Prog.run_bind_of_some paging]
    rfl

/-- **Initialising.**  Either the device cannot be opened, or it was free and a new
descriptor of it is kept. -/
theorem init_cases (m : Machine) (lib : Lib) (p : Process) :
    m.init lib p = ((-1, { lib with fd := -1 }), p) ∨
      ∃ fd umem ready, 0 ≤ fd ∧ p.files fd = .closed ∧ p.deviceBusy = false ∧
        m.openUmem lib.arch (p.withOpen fd .device) = (umem, ready) ∧
        m.init lib p = ((0, m.initialised lib ready fd umem), ready) := by
  unfold Machine.init
  rcases openPath_cases m .device p with failed | ⟨fd, nonneg, free, idle, added⟩
  · rw [failed]
    exact .inl rfl
  · have second : m.openUmem lib.arch (p.withOpen fd .device) = (_, _) := Prod.mk.eta.symm
    refine .inr ⟨fd, _, _, nonneg, free, idle rfl, second, ?_⟩
    rw [added]
    simp only [if_neg (Int.not_lt.mpr nonneg)]

/-- The process after a close that is made when a test holds. -/
def Process.closeIf (p : Process) (held : Prop) [Decidable held] (fd : Int) : Process :=
  if held then (p.close fd).2 else p

/-- The process after `ptedit_cleanup`. -/
def Process.cleanup (p : Process) (lib : Lib) : Process :=
  (p.closeIf (0 ≤ lib.fd) lib.fd).closeIf (0 < lib.umem) lib.umem

theorem run_closeIf (held : Prop) [Decidable held] (fd : Int) :
    Prog.run (processHandler m) (closeIf held fd) p = some ((), p.closeIf held fd) := by
  unfold PTEditor.closeIf Process.closeIf
  split
  next =>
    have closes : Prog.run (processHandler m) (close fd) p = some (p.close fd) :=
      Prog.run_perform _ _
    rw [Prog.run_bind_of_some closes]
    rfl
  next => rfl

theorem run_pteditCleanup (lib : Lib) :
    Prog.run (processHandler m) (pteditCleanup lib) p = some ((), p.cleanup lib) := by
  rw [pteditCleanup, Prog.run_bind_of_some (run_closeIf _ _)]
  exact run_closeIf _ _

end Runs

section Cleanup

variable (p : Process) (lib : Lib)

theorem closeIf_eq (held : Prop) [Decidable held] (fd : Int) :
    p.closeIf held fd = if held then p.withClosed fd else p := by
  unfold Process.closeIf
  rw [close_snd]

/-- `ptedit_cleanup` closes the descriptors that the variables name. -/
theorem files_cleanup (fd : Int) :
    (p.cleanup lib).files fd =
      if (0 ≤ lib.fd ∧ fd = lib.fd) ∨ (0 < lib.umem ∧ fd = lib.umem) then .closed
      else p.files fd := by
  unfold Process.cleanup
  rw [closeIf_eq, closeIf_eq]
  have closed : ∀ (q : Process) (d : Int),
      (q.withClosed d).files fd = if fd = d then .closed else q.files fd := fun q d => by
    simp only [Process.withClosed, Function.update_apply]
  by_cases device : 0 ≤ lib.fd <;> by_cases umem : 0 < lib.umem <;>
    simp only [device, umem, if_true, if_false, closed, true_and, false_and, false_or, or_false]
  by_cases first : fd = lib.fd <;> by_cases second : fd = lib.umem <;> simp [first, second]

/-- Closing a device's descriptor frees the device, and nothing makes it busy again. -/
theorem deviceBusy_cleanup (device : 0 ≤ lib.fd → p.files lib.fd = .device)
    (idle : lib.fd < 0 → p.deviceBusy = false) : (p.cleanup lib).deviceBusy = false := by
  have first : (p.closeIf (0 ≤ lib.fd) lib.fd).deviceBusy = false := by
    rw [closeIf_eq]
    split
    next opened => exact if_pos (device opened)
    next closed => exact idle (Int.not_le.mp closed)
  unfold Process.cleanup
  generalize p.closeIf (0 ≤ lib.fd) lib.fd = q at first
  rw [closeIf_eq]
  split
  next =>
    unfold Process.withClosed
    dsimp only
    rw [first, ite_self]
  next => exact first

end Cleanup

/-! ## A process on a machine -/

/-- The lowest descriptor that is not open, of the 64 that a process may have. -/
def lowestFree (files : Int → File) : Option Int :=
  ((List.range 64).map Int.ofNat).find? fun fd => decide (files fd = .closed)

theorem lowestFree_free (files : Int → File) (fd : Int) (found : lowestFree files = some fd) :
    0 ≤ fd ∧ files fd = .closed := by
  have closed := List.find?_some found
  obtain ⟨n, -, rfl⟩ := List.mem_map.mp (List.mem_of_find?_eq_some found)
  exact ⟨Int.natCast_nonneg n, of_decide_eq_true closed⟩

/-- A machine with the module loaded and `/proc/umem` in place. -/
def machineOf (host : Host) (pagesize : Pid) : Machine where
  host := host
  foreignRead := fun _ _ _ => some []
  locals := fun _ => 0
  pagesize := pagesize
  present := fun _ => true
  alloc := lowestFree
  free := lowestFree_free

/-- A process with its standard streams. -/
def processOf (world : World) : Process where
  world := world
  files := fun fd => if 0 ≤ fd ∧ fd < 3 then .other else .closed
  deviceBusy := false

end PTEditor
