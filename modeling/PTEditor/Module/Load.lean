import PTEditor.Module.Kernel

/-!
# Loading and unloading the module

`pteditor_init` and `pteditor_exit` of `module/pteditor.c`.  How the calls that can
fail turn out is given from outside (`Outcomes`); `Loading` is the kernel together with
what is registered, and `run_pteditorInit` says for all outcomes what is left.
-/

namespace PTEditor

/-- What `pteditor_init` registers with the kernel. -/
inductive Registration where
  | kprobe
  | miscDevice
  | kretprobe
  | procEntry
  deriving DecidableEq, Repr

/-- The names that are looked up with `kallsyms_lookup_name`. -/
inductive Symbol where
  | flushTlbMmRange
  | memoryLseek
  | readMem
  | writeMem
  | mmapMem
  deriving DecidableEq, Repr

/-- How the calls turn out that `pteditor_init` makes: what they return, and for a lookup
whether there is an address. -/
structure Outcomes where
  registerKprobe : Int
  kpAddr : Bool
  miscRegister : Int
  kallsymsLookupName : Symbol → Bool
  registerKretprobe : Int
  procCreate : Bool
  tcrEl1 : Word

/-- The kernel while the module is loaded and unloaded. -/
structure Loading where
  kernel : Kernel
  registered : Registration → Bool
  hasUmem : Bool

def Loading.register (s : Loading) (what : Registration) (succeeds : Bool) : Loading :=
  { s with registered := Function.update s.registered what (s.registered what || succeeds) }

def Loading.unregister (s : Loading) (what : Registration) : Loading :=
  { s with registered := Function.update s.registered what false }

/-- The operations of `pteditor_init` and `pteditor_exit`. -/
inductive LoadOp where
  | registerKprobe
  /-- Whether `kp.addr` is set. -/
  | kpAddr
  | unregisterKprobe
  | miscRegister
  | miscDeregister
  | kallsymsLookupName (symbol : Symbol)
  | setFlushTlbMmRangeFunc (found : Bool)
  | setInvalidateTlb (method : TlbMethod)
  | mrsTcrEl1
  | setPageSize (size shift : Pid)
  | registerKretprobe
  | unregisterKretprobe
  | procCreate
  | removeProcEntry
  | setHasUmem
  | hasUmem
  deriving DecidableEq

def LoadOp.Res : LoadOp → Type
  | .registerKprobe => Int
  | .kpAddr => Bool
  | .miscRegister => Int
  | .kallsymsLookupName _ => Bool
  | .mrsTcrEl1 => Word
  | .registerKretprobe => Int
  | .hasUmem => Bool
  | _ => Unit

/-- The effect of each operation. -/
def loadHandler (o : Outcomes) : Prog.Handler LoadOp LoadOp.Res Loading
  | .registerKprobe, s =>
      some (o.registerKprobe, s.register .kprobe (decide (o.registerKprobe = 0)))
  | .kpAddr, s => some (o.kpAddr, s)
  | .unregisterKprobe, s => some ((), s.unregister .kprobe)
  | .miscRegister, s => some (o.miscRegister, s.register .miscDevice (decide (o.miscRegister = 0)))
  | .miscDeregister, s => some ((), s.unregister .miscDevice)
  | .kallsymsLookupName symbol, s => some (o.kallsymsLookupName symbol, s)
  | .setFlushTlbMmRangeFunc found, s =>
      some ((), { s with kernel := { s.kernel with flushTlbMmRangeFunc := found } })
  | .setInvalidateTlb method, s =>
      some ((), { s with kernel := { s.kernel with invalidateTlb := some method } })
  | .mrsTcrEl1, s => some (o.tcrEl1, s)
  | .setPageSize size shift, s =>
      some ((), { s with kernel := { s.kernel with realPageSize := size, realPageShift := shift } })
  | .registerKretprobe, s =>
      some (o.registerKretprobe, s.register .kretprobe (decide (0 ≤ o.registerKretprobe)))
  | .unregisterKretprobe, s => some ((), s.unregister .kretprobe)
  | .procCreate, s => some ((), s.register .procEntry o.procCreate)
  | .removeProcEntry, s => some ((), s.unregister .procEntry)
  | .setHasUmem, s => some ((), { s with hasUmem := true })
  | .hasUmem, s => some (s.hasUmem, s)

/-- The registration that an operation takes back. -/
def LoadOp.removes : LoadOp → Option Registration
  | .unregisterKprobe => some .kprobe
  | .miscDeregister => some .miscDevice
  | .unregisterKretprobe => some .kretprobe
  | .removeProcEntry => some .procEntry
  | _ => none

/-- A piece of the module's init and exit code. -/
abbrev LoadProg (α : Type) : Type := Prog LoadOp LoadOp.Res α

namespace LoadProg

def registerKprobe : LoadProg Int := Prog.perform LoadOp.registerKprobe

def kpAddr : LoadProg Bool := Prog.perform LoadOp.kpAddr

def unregisterKprobe : LoadProg Unit := Prog.perform LoadOp.unregisterKprobe

def miscRegister : LoadProg Int := Prog.perform LoadOp.miscRegister

def miscDeregister : LoadProg Unit := Prog.perform LoadOp.miscDeregister

def kallsymsLookupName (symbol : Symbol) : LoadProg Bool :=
  Prog.perform (LoadOp.kallsymsLookupName symbol)

def setFlushTlbMmRangeFunc (found : Bool) : LoadProg Unit :=
  Prog.perform (LoadOp.setFlushTlbMmRangeFunc found)

def setInvalidateTlb (method : TlbMethod) : LoadProg Unit :=
  Prog.perform (LoadOp.setInvalidateTlb method)

def mrsTcrEl1 : LoadProg Word := Prog.perform LoadOp.mrsTcrEl1

def setPageSize (size shift : Pid) : LoadProg Unit := Prog.perform (LoadOp.setPageSize size shift)

def registerKretprobe : LoadProg Int := Prog.perform LoadOp.registerKretprobe

def unregisterKretprobe : LoadProg Unit := Prog.perform LoadOp.unregisterKretprobe

def procCreate : LoadProg Unit := Prog.perform LoadOp.procCreate

def removeProcEntry : LoadProg Unit := Prog.perform LoadOp.removeProcEntry

def setHasUmem : LoadProg Unit := Prog.perform LoadOp.setHasUmem

def hasUmem : LoadProg Bool := Prog.perform LoadOp.hasUmem

end LoadProg

open LoadProg

/-! ## The code -/

/-- `ENXIO`. -/
def enxio : Int := 6

/-- Kernels from 5.7 on do not export `kallsyms_lookup_name`: its address is taken from a
kprobe.  The value says whether there is one. -/
def findKallsymsLookupName (kprobeLookup : Bool) : LoadProg Bool :=
  if kprobeLookup then do
    let _ ← registerKprobe
    let found ← kpAddr
    unregisterKprobe
    pure found
  else
    pure true

/-- The assignment of `flush_tlb_mm_range_func`, in the x86_64 build only. -/
def findFlushTlbMmRange (arch : Arch) : LoadProg Bool :=
  match arch with
  | .x86_64 => do
      let found ← kallsymsLookupName .flushTlbMmRange
      setFlushTlbMmRangeFunc found
      pure found
  | .aarch64 => pure true

/-- The page size that `TCR_EL1` selects, in the aarch64 build only. -/
def readPageSize (arch : Arch) : LoadProg Unit :=
  match arch with
  | .x86_64 => pure ()
  | .aarch64 => do
      let tcrEl1 ← mrsTcrEl1
      if (tcrEl1 >>> 14) &&& 3 = 1 then setPageSize (64 * 1024) 16
      else if (tcrEl1 >>> 14) &&& 3 = 2 then setPageSize (16 * 1024) 14
      else pure ()

/-- `/proc/umem`: the four operations are looked up, and the entry is created when all are
there. -/
def createUmem : LoadProg Unit := do
  let lseek ← kallsymsLookupName .memoryLseek
  let read ← kallsymsLookupName .readMem
  let write ← kallsymsLookupName .writeMem
  let mmap ← kallsymsLookupName .mmapMem
  if !lseek || !read || !write || !mmap then
    pure ()
  else do
    procCreate
    setHasUmem

/-- `pteditor_init` once `invalidate_tlb` can be set. -/
def setUp (arch : Arch) : LoadProg Int := do
  setInvalidateTlb .kernel
  readPageSize arch
  let _ ← registerKretprobe
  createUmem
  pure 0

/-- `pteditor_init`. -/
def pteditorInit (arch : Arch) (kprobeLookup : Bool) : LoadProg Int := do
  let found ← findKallsymsLookupName kprobeLookup
  if !found then
    pure (-enxio)
  else do
    let r ← miscRegister
    if r ≠ 0 then
      pure (-enxio)
    else do
      let found ← findFlushTlbMmRange arch
      if !found then pure (-enxio) else setUp arch

/-- `pteditor_exit`. -/
def pteditorExit : LoadProg Unit := do
  miscDeregister
  unregisterKretprobe
  let created ← hasUmem
  if created then removeProcEntry else pure ()

/-! ## What the code does -/

namespace Outcomes

variable (o : Outcomes)

/-- The device gets registered. -/
def Registers (kprobeLookup : Bool) : Prop :=
  (kprobeLookup = true → o.kpAddr = true) ∧ o.miscRegister = 0

/-- `pteditor_init` gets past its error returns. -/
def Loads (arch : Arch) (kprobeLookup : Bool) : Prop :=
  o.Registers kprobeLookup ∧ (arch = .x86_64 → o.kallsymsLookupName .flushTlbMmRange = true)

/-- The four operations of `/proc/umem` are found. -/
def FindsUmem : Prop :=
  o.kallsymsLookupName .memoryLseek = true ∧ o.kallsymsLookupName .readMem = true ∧
    o.kallsymsLookupName .writeMem = true ∧ o.kallsymsLookupName .mmapMem = true

end Outcomes

instance (o : Outcomes) (kprobeLookup : Bool) : Decidable (o.Registers kprobeLookup) :=
  inferInstanceAs (Decidable (_ ∧ _))

instance (o : Outcomes) (arch : Arch) (kprobeLookup : Bool) :
    Decidable (o.Loads arch kprobeLookup) :=
  inferInstanceAs (Decidable (_ ∧ _))

instance (o : Outcomes) : Decidable o.FindsUmem := inferInstanceAs (Decidable (_ ∧ _ ∧ _ ∧ _))

/-- Nothing is registered. -/
structure Loading.Unloaded (s : Loading) : Prop where
  registered : ∀ what, s.registered what = false
  hasUmem : s.hasUmem = false

/-- The state after `readPageSize`. -/
def Loading.withPageSize (s : Loading) (o : Outcomes) (arch : Arch) : Loading :=
  match arch with
  | .x86_64 => s
  | .aarch64 =>
      let store := fun (size shift : Pid) =>
        { s with kernel := { s.kernel with realPageSize := size, realPageShift := shift } }
      if (o.tcrEl1 >>> 14) &&& 3 = 1 then store (64 * 1024) 16
      else if (o.tcrEl1 >>> 14) &&& 3 = 2 then store (16 * 1024) 14
      else s

/-- The state after `createUmem`. -/
def Loading.withUmem (s : Loading) (o : Outcomes) : Loading :=
  if o.FindsUmem then { s.register .procEntry o.procCreate with hasUmem := true } else s

/-- The state after `setUp`. -/
def Loading.setUp (s : Loading) (o : Outcomes) (arch : Arch) : Loading :=
  let s := { s with kernel := { s.kernel with invalidateTlb := some .kernel } }
  ((s.withPageSize o arch).register .kretprobe (decide (0 ≤ o.registerKretprobe))).withUmem o

/-- The state once the device is registered and the address of the flush is stored. -/
def Loading.withDevice (s : Loading) (o : Outcomes) (arch : Arch) : Loading :=
  let s := s.register .miscDevice true
  match arch with
  | .x86_64 =>
      let found := o.kallsymsLookupName .flushTlbMmRange
      { s with kernel := { s.kernel with flushTlbMmRangeFunc := found } }
  | .aarch64 => s

section Runs

variable {o : Outcomes} {s : Loading}

theorem run_readPageSize (arch : Arch) :
    Prog.run (loadHandler o) (readPageSize arch) s = some ((), s.withPageSize o arch) := by
  unfold readPageSize Loading.withPageSize
  cases arch with
  | x86_64 => rfl
  | aarch64 =>
      have tcr : Prog.run (loadHandler o) mrsTcrEl1 s = some (o.tcrEl1, s) := Prog.run_perform _ _
      dsimp only
      rw [Prog.run_bind_of_some tcr]
      split
      next => rfl
      next =>
      split
      next => rfl
      next => rfl

theorem run_createUmem : Prog.run (loadHandler o) createUmem s = some ((), s.withUmem o) := by
  have lookup : ∀ symbol, Prog.run (loadHandler o) (kallsymsLookupName symbol) s =
      some (o.kallsymsLookupName symbol, s) := fun symbol => Prog.run_perform _ _
  unfold createUmem Loading.withUmem
  rw [Prog.run_bind_of_some (lookup _), Prog.run_bind_of_some (lookup _),
    Prog.run_bind_of_some (lookup _), Prog.run_bind_of_some (lookup _)]
  by_cases finds : o.FindsUmem
  · obtain ⟨lseek, read, write, mmap⟩ := id finds
    rw [if_pos finds, lseek, read, write, mmap]
    rfl
  · have misses : (!o.kallsymsLookupName .memoryLseek || !o.kallsymsLookupName .readMem ||
        !o.kallsymsLookupName .writeMem || !o.kallsymsLookupName .mmapMem) = true := by
      simpa only [Bool.or_eq_true, Bool.not_eq_true', Outcomes.FindsUmem, not_and_or,
        Bool.not_eq_true, or_assoc] using finds
    rw [if_neg finds, if_pos misses]
    rfl

theorem run_setUp (arch : Arch) :
    Prog.run (loadHandler o) (setUp arch) s = some (0, s.setUp o arch) := by
  have stores : ∀ s : Loading, Prog.run (loadHandler o) (setInvalidateTlb .kernel) s =
      some ((), { s with kernel := { s.kernel with invalidateTlb := some .kernel } }) :=
    fun s => Prog.run_perform _ _
  have probe : ∀ s, Prog.run (loadHandler o) registerKretprobe s = some (o.registerKretprobe,
      s.register .kretprobe (decide (0 ≤ o.registerKretprobe))) := fun s => Prog.run_perform _ _
  rw [PTEditor.setUp, Prog.run_bind_of_some (stores s),
    Prog.run_bind_of_some (run_readPageSize arch), Prog.run_bind_of_some (probe _),
    Prog.run_bind_of_some run_createUmem]
  rfl

/-- Registering without success changes nothing, and unregistering neither. -/
theorem register_eq_self {what : Registration} : s.register what false = s := by
  unfold Loading.register
  rw [Bool.or_false, Function.update_eq_self]

theorem run_findKallsymsLookupName (unloaded : s.Unloaded) (kprobeLookup : Bool) :
    ∃ found, Prog.run (loadHandler o) (findKallsymsLookupName kprobeLookup) s =
        some (found, s) ∧ (found = true ↔ (kprobeLookup = true → o.kpAddr = true)) := by
  unfold findKallsymsLookupName
  cases kprobeLookup with
  | false => exact ⟨true, rfl, iff_of_true rfl fun is => absurd is (by decide)⟩
  | true =>
      refine ⟨o.kpAddr, ?_, fun found _ => found, fun found => found rfl⟩
      let succeeds := decide (o.registerKprobe = 0)
      have probe : Prog.run (loadHandler o) registerKprobe s =
          some (o.registerKprobe, s.register .kprobe succeeds) := Prog.run_perform _ _
      have addr : ∀ s, Prog.run (loadHandler o) kpAddr s = some (o.kpAddr, s) :=
        fun s => Prog.run_perform _ _
      have back : (s.register .kprobe succeeds).unregister .kprobe = s := by
        unfold Loading.register Loading.unregister
        rw [Function.update_idem, ← unloaded.registered .kprobe, Function.update_eq_self]
      have undo : Prog.run (loadHandler o) unregisterKprobe (s.register .kprobe succeeds) =
          some ((), s) := (Prog.run_perform _ _).trans (congrArg (fun s => some ((), s)) back)
      rw [if_pos rfl, Prog.run_bind_of_some probe, Prog.run_bind_of_some (addr _),
        Prog.run_bind_of_some undo]
      rfl

theorem run_findFlushTlbMmRange (arch : Arch) :
    ∃ found, Prog.run (loadHandler o) (findFlushTlbMmRange arch) (s.register .miscDevice true) =
        some (found, s.withDevice o arch) ∧
      (found = true ↔ (arch = .x86_64 → o.kallsymsLookupName .flushTlbMmRange = true)) := by
  cases arch with
  | x86_64 => exact ⟨_, rfl, fun found _ => found, fun found => found rfl⟩
  | aarch64 => exact ⟨true, rfl, iff_of_true rfl fun is => absurd is (by decide)⟩

/-- **Loading.**  What `pteditor_init` returns and leaves for all outcomes of its calls. -/
theorem run_pteditorInit (unloaded : s.Unloaded) (arch : Arch) (kprobeLookup : Bool) :
    (¬ o.Registers kprobeLookup ∧
      Prog.run (loadHandler o) (pteditorInit arch kprobeLookup) s = some (-enxio, s)) ∨
    (o.Registers kprobeLookup ∧ ¬ o.Loads arch kprobeLookup ∧
      Prog.run (loadHandler o) (pteditorInit arch kprobeLookup) s =
        some (-enxio, s.withDevice o arch)) ∨
    (o.Loads arch kprobeLookup ∧
      Prog.run (loadHandler o) (pteditorInit arch kprobeLookup) s =
        some (0, (s.withDevice o arch).setUp o arch)) := by
  obtain ⟨found, finds, iff⟩ := @run_findKallsymsLookupName o s unloaded kprobeLookup
  unfold pteditorInit
  rw [Prog.run_bind_of_some finds]
  cases found with
  | false =>
      left
      exact ⟨fun registers => Bool.false_ne_true (iff.mpr registers.1), rfl⟩
  | true =>
      have register : Prog.run (loadHandler o) miscRegister s = some (o.miscRegister,
          s.register .miscDevice (decide (o.miscRegister = 0))) := Prog.run_perform _ _
      simp only [Bool.not_true, Bool.false_eq_true, if_false]
      rw [Prog.run_bind_of_some register]
      by_cases zero : o.miscRegister = 0
      · right
        have registers : o.Registers kprobeLookup := ⟨iff.mp rfl, zero⟩
        obtain ⟨found, finds, iff⟩ := @run_findFlushTlbMmRange o s arch
        rw [if_neg (not_not_intro zero), decide_eq_true zero, Prog.run_bind_of_some finds]
        cases found with
        | false =>
            left
            exact ⟨registers, fun loads => Bool.false_ne_true (iff.mpr loads.2), rfl⟩
        | true =>
            right
            exact ⟨⟨registers, iff.mp rfl⟩, run_setUp arch⟩
      · left
        rw [if_pos zero, decide_eq_false zero, register_eq_self]
        exact ⟨fun registers => zero registers.2, rfl⟩

theorem withUmem_kernel : (s.withUmem o).kernel = s.kernel := by
  unfold Loading.withUmem
  split <;> rfl

theorem withPageSize_pointers (arch : Arch) :
    (s.withPageSize o arch).kernel.invalidateTlb = s.kernel.invalidateTlb ∧
      (s.withPageSize o arch).kernel.flushTlbMmRangeFunc = s.kernel.flushTlbMmRangeFunc := by
  unfold Loading.withPageSize
  cases arch with
  | x86_64 => exact ⟨rfl, rfl⟩
  | aarch64 =>
      dsimp only
      split
      · exact ⟨rfl, rfl⟩
      · split <;> exact ⟨rfl, rfl⟩

/-- A module that has loaded has its function pointers set. -/
theorem loads_kernelLoaded (host : Host) {kprobeLookup : Bool}
    (loads : o.Loads host.arch kprobeLookup) :
    ((s.withDevice o host.arch).setUp o host.arch).kernel.Loaded host := by
  unfold Loading.setUp
  constructor
  · rw [withUmem_kernel]
    exact congrArg Option.isSome (withPageSize_pointers host.arch).1
  · intro x86
    rw [withUmem_kernel]
    refine (withPageSize_pointers host.arch).2.trans ?_
    have found := loads.2 x86
    rw [x86]
    exact found

end Runs

/-! ## Sample outcomes -/

/-- A module that is not loaded. -/
def freshLoading : Loading where
  kernel :=
    { mem := fun _ => 0
      pgd := fun _ => 0
      mmIsLocked := false
      invalidateTlb := none
      flushTlbMmRangeFunc := false
      realPageSize := 4096
      realPageShift := 12
      memoryTypes := 0
      ttbr0 := 0 }
  registered := fun _ => false
  hasUmem := false

theorem freshLoading_unloaded : freshLoading.Unloaded := ⟨fun _ => rfl, rfl⟩

/-- Everything succeeds, but `kallsyms_lookup_name` does not know `missing`. -/
def lookupFails (missing : Symbol) : Outcomes where
  registerKprobe := 0
  kpAddr := true
  miscRegister := 0
  kallsymsLookupName := fun symbol => decide (symbol ≠ missing)
  registerKretprobe := 0
  procCreate := true
  tcrEl1 := 0

end PTEditor
