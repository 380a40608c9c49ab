import PTEditor.Foundation.Interleaving
import PTEditor.Library.PteSpec

/-!
# Two threads edit one PTE

Under `PTEDIT_IMPL_KERNEL` an edit of a PTE is a RESOLVE and an UPDATE request, each
atomic, with the edited copy in between.  The module offers a lock for this, which the
library does not take.  `stepThread_pteThreads` says that threads that edit one PTE
are, step by step, readers and writers of a single value (`Cell`), and
`pteEdits_interleaved` what that means for two of them: calls that do not overlap
both take effect, and of two that overlap only the one that updates last does.
-/

namespace PTEditor

open ByteMem

/-! ## The PTE in the kernel's tables -/

/-- The PTE slot of an address in the tables of an mm: the walk of `resolve_vm` finds a
PTE there, and the words it reads on the way share no byte with it. -/
structure PteSlot (host : Host) (k : Kernel) (address : Word) (mm : Mm) (slot : Word) : Prop where
  valid : (k.walk host address mm).Valid .pte
  slot_eq : (k.walk host address mm).ptePtr.map host.virtToPhys = some slot
  apart : ∀ level, level ≠ .pte → ∀ pointer,
    (k.walk host address mm).pointer level = some pointer → Apart slot (host.virtToPhys pointer)

section Kernel

variable {host : Host} {k : Kernel} {address : Word} {mm : Mm} {slot : Word}

/-- The entries above the PTE do not depend on what the PTE holds. -/
theorem PteSlot.tables (pte : PteSlot host k address mm slot) (value : Word) :
    (k.walk host address mm).SameTables ((k.withMem (k.mem.write slot value)).entryAt host) where
  pgd := read_write_of_apart _ _ (pte.apart .pgd nofun _ rfl)
  p4d := read_write_of_apart _ _ (pte.apart .p4d nofun _ rfl)
  pud := read_write_of_apart _ _ (pte.apart .pud nofun _ rfl)
  pmd := read_write_of_apart _ _ (pte.apart .pmd nofun _ rfl)

theorem walk_withMem (mem : ByteMem) :
    (k.withMem mem).walk host address mm =
      (k.walk host address mm).withRead ((k.withMem mem).entryAt host) := rfl

theorem PteSlot.valid_write (pte : PteSlot host k address mm slot) (value : Word) :
    ((k.withMem (k.mem.write slot value)).walk host address mm).Valid .pte := by
  rw [walk_withMem]
  exact (KernelWalk.valid_withRead (pte.tables value) .pte).mpr pte.valid

/-- Whatever the PTE holds, the walk points to its slot. -/
theorem PteSlot.pointer_write (pte : PteSlot host k address mm slot) (value : Word) :
    ∃ pointer, ((k.withMem (k.mem.write slot value)).walk host address mm).ptePtr =
      some pointer ∧ host.virtToPhys pointer = slot := by
  rw [walk_withMem, KernelWalk.ptePtr_withRead (pte.tables value)]
  exact Option.map_eq_some_iff.mp pte.slot_eq

/-- What RESOLVE reports of the PTE. -/
theorem PteSlot.kernelEntry (pte : PteSlot host k address mm slot) {user : PteditEntry}
    (found : host.getMm user.pid = some mm) (page : user.vaddr = address) (value : Word) :
    (kernelEntry host (k.withMem (k.mem.write slot value)) user).Valid .pte ∧
      (PTEditor.kernelEntry host (k.withMem (k.mem.write slot value)) user).pte = value := by
  have valid := pte.valid_write value
  obtain ⟨pointer, here, physical⟩ := pte.pointer_write value
  rw [← page] at valid here
  refine ⟨(valid_kernelEntry found .pte).mpr valid, ?_⟩
  rw [pte_kernelEntry found valid here]
  change (k.mem.write slot value).read (host.virtToPhys pointer) = value
  rw [physical, read_write_self]

/-- What UPDATE stores when it selects the PTE alone. -/
theorem PteSlot.kernelStores (pte : PteSlot host k address mm slot) {new : PteditEntry}
    (found : host.getMm new.pid = some mm) (page : new.vaddr = address) (only : new.PteOnly)
    (value : Word) :
    kernelStores host (k.withMem (k.mem.write slot value)) new = [(slot, new.pte)] := by
  have valid := pte.valid_write value
  obtain ⟨pointer, here, physical⟩ := pte.pointer_write value
  rw [← page] at valid here
  rw [kernelStores_of_pteOnly found valid here only, physical]

end Kernel

/-! ## The requests of an edit -/

section Requests

variable {sys : System} {lib : Lib} {w : World} {address : Word} {pid : Pid}

/-- The RESOLVE request. -/
theorem answer_vmResolve (attached : Attached sys lib w) :
    ∃ r, sysHandler sys (SysOp.ioctl lib.fd .vmResolve 0
        (PteditEntry.cleared address (sizeOfInt pid)).block) w = some (r, w) ∧
      PteditEntry.ofBlock r.2 = sys.kernelEntry w.kernel address pid := by
  have answer := answer_ioctl attached .vmResolve 0
    (PteditEntry.cleared address (sizeOfInt pid)).block
  rw [System.deviceIoctl, deviceIoctl, run_vmResolve, ofBlock_received_entry] at answer
  exact ⟨_, answer, ofBlock_reply_entry sys _ _⟩

/-- The UPDATE request. -/
theorem answer_vmUpdate (attached : Attached sys lib w) (vm : PteditEntry) :
    ∃ r, sysHandler sys (SysOp.ioctl lib.fd .vmUpdate 0 vm.block) w =
      some (r, w.withMem (w.kernel.mem.writeAll (kernelStores sys.host w.kernel vm))) := by
  have answer := answer_ioctl attached .vmUpdate 0 vm.block
  rw [System.deviceIoctl, deviceIoctl, run_vmUpdate _ attached.loaded,
    ofBlock_received_entry] at answer
  exact ⟨_, answer⟩

/-- The rest of an edit once it has resolved the page. -/
def pteEditRest (lib : Lib) (address : Word) (pid : Pid) (edit : Word → Word)
    (vm : PteditEntry) : Sys Unit :=
  if ¬ vm.Valid .pte then
    pure ()
  else
    pteditUpdate lib address pid { vm with pte := edit vm.pte, valid := Level.pte.validMask }

/-- The entry structure that an edit sends with its UPDATE request. -/
def pteEditRequest (address : Word) (pid : Pid) (edit : Word → Word) (vm : PteditEntry) :
    PteditEntry :=
  { vm with
    vaddr := address, pid := sizeOfInt pid, pte := edit vm.pte, valid := Level.pte.validMask }

/-- Under the kernel implementation an edit starts with a RESOLVE request. -/
theorem pteditPteEdit_kernel (selected : lib.implementation = .kernel) (edit : Word → Word) :
    pteditPteEdit lib address pid edit =
      Prog.call (SysOp.ioctl lib.fd .vmResolve 0
        (PteditEntry.cleared address (sizeOfInt pid)).block) fun r =>
          pteEditRest lib address pid edit (PteditEntry.ofBlock r.2) := by
  unfold pteditPteEdit pteditResolve
  rw [selected]
  rfl

/-- With a valid PTE the rest is an UPDATE request. -/
theorem pteEditRest_kernel (selected : lib.implementation = .kernel) (edit : Word → Word)
    {vm : PteditEntry} (valid : vm.Valid .pte) :
    pteEditRest lib address pid edit vm =
      Prog.call (SysOp.ioctl lib.fd .vmUpdate 0 (pteEditRequest address pid edit vm).block)
        fun _ => Prog.ret () := by
  unfold pteEditRest pteditUpdate
  rw [if_neg (not_not.mpr valid), selected]
  rfl

end Requests

/-! ## Threads as readers and writers of one value -/

section Threads

variable {ι : Type}

/-- The program of a thread in each phase of its edit. -/
def pteThread (sys : System) (lib : Lib) (k : Kernel) (address : Word) (pid : Pid) (slot : Word)
    (edit : Word → Word) : Phase Word → Sys Unit
  | .ready => pteditPteEdit lib address pid edit
  | .holding old => pteEditRest lib address pid edit
      (sys.kernelEntry (k.withMem (k.mem.write slot old)) address pid)
  | .done => Prog.ret ()

/-- Threads and world that a shared value and the phases of its users stand for. -/
def pteThreads (sys : System) (lib : Lib) (w : World) (address : Word) (pid : Pid) (slot : Word)
    (edit : ι → Word → Word) (c : Cell ι Word) : (ι → Sys Unit) × World :=
  (fun i => pteThread sys lib w.kernel address pid slot (edit i) (c.phase i),
    w.withMem (w.kernel.mem.write slot c.value))

variable {sys : System} {lib : Lib} {w : World} {address : Word} {pid : Pid} {mm : Mm} {slot : Word}

/-- What a thread holds after its RESOLVE request. -/
theorem PteSlot.resolved (pte : PteSlot sys.host w.kernel address mm slot)
    (found : sys.host.getMm (sizeOfInt pid) = some mm) (value : Word) :
    (sys.kernelEntry (w.kernel.withMem (w.kernel.mem.write slot value)) address pid).Valid .pte ∧
      (sys.kernelEntry (w.kernel.withMem (w.kernel.mem.write slot value)) address pid).pte =
        value :=
  @PteSlot.kernelEntry _ _ _ _ _ pte (PteditEntry.cleared address (sizeOfInt pid)) found rfl value

/-- When every thread has returned, every thread has written. -/
theorem done_of_finished (selected : lib.implementation = .kernel)
    (found : sys.host.getMm (sizeOfInt pid) = some mm)
    (pte : PteSlot sys.host w.kernel address mm slot) {edit : ι → Word → Word} {c : Cell ι Word}
    (finished : Prog.Finished (pteThreads sys lib w address pid slot edit c).1) : c.Done := by
  intro i
  obtain ⟨_, returned⟩ := finished i
  change pteThread sys lib w.kernel address pid slot (edit i) (c.phase i) = _ at returned
  cases phase : c.phase i with
  | done => rfl
  | ready =>
      rw [phase] at returned
      change pteditPteEdit lib address pid (edit i) = _ at returned
      rw [pteditPteEdit_kernel selected] at returned
      cases returned
  | holding old =>
      have entry := pte.resolved found old
      rw [phase] at returned
      change pteEditRest lib address pid (edit i)
        (sys.kernelEntry (w.kernel.withMem (w.kernel.mem.write slot old)) address pid) = _
          at returned
      rw [pteEditRest_kernel selected _ entry.1] at returned
      cases returned

/-- When every thread has written, every thread has returned. -/
theorem finished_of_done {edit : ι → Word → Word} {c : Cell ι Word} (done : c.Done) :
    Prog.Finished (pteThreads sys lib w address pid slot edit c).1 :=
  fun i => ⟨(), congrArg (pteThread sys lib w.kernel address pid slot (edit i)) (done i)⟩

variable [DecidableEq ι]

theorem update_pteThread (edit : ι → Word → Word) (phase : ι → Phase Word) (i : ι)
    (next : Phase Word) :
    Function.update
        (fun j => pteThread sys lib w.kernel address pid slot (edit j) (phase j)) i
        (pteThread sys lib w.kernel address pid slot (edit i) next) =
      fun j => pteThread sys lib w.kernel address pid slot (edit j)
        (Function.update phase i next j) := by
  funext j
  exact (Function.apply_update
    (fun j => pteThread sys lib w.kernel address pid slot (edit j)) phase i next j).symm

/-- **Step.**  A request of a thread is a step on the shared value. -/
theorem stepThread_pteThreads (attached : Attached sys lib w)
    (selected : lib.implementation = .kernel)
    (found : sys.host.getMm (sizeOfInt pid) = some mm)
    (pte : PteSlot sys.host w.kernel address mm slot) (edit : ι → Word → Word) (i : ι)
    (c : Cell ι Word) :
    Prog.stepThread (sysHandler sys) i (pteThreads sys lib w address pid slot edit c) =
      (Cell.step edit i c).map (pteThreads sys lib w address pid slot edit) := by
  have opened := attached.withMem (w.kernel.mem.write slot c.value)
  unfold Cell.step
  cases phase : c.phase i with
  | ready =>
      obtain ⟨r, answer, resolved⟩ := @answer_vmResolve _ _ _ address pid opened
      have calls := @pteditPteEdit_kernel lib address pid selected (edit i)
      have program : (pteThreads sys lib w address pid slot edit c).1 i =
          pteditPteEdit lib address pid (edit i) :=
        congrArg (pteThread sys lib w.kernel address pid slot (edit i)) phase
      refine (Prog.stepThread_of_call (program.trans calls) answer).trans ?_
      rw [resolved]
      refine congrArg (fun threads => some (threads, _)) ?_
      exact update_pteThread edit c.phase i (.holding c.value)
  | holding old =>
      have entry := pte.resolved found old
      obtain ⟨r, answer⟩ := answer_vmUpdate opened (pteEditRequest address pid (edit i)
        (sys.kernelEntry (w.kernel.withMem (w.kernel.mem.write slot old)) address pid))
      have stores := @PteSlot.kernelStores _ _ _ _ _ pte (pteEditRequest address pid (edit i)
        (sys.kernelEntry (w.kernel.withMem (w.kernel.mem.write slot old)) address pid))
        found rfl (PteditEntry.pteOnly_of_valid rfl) c.value
      have stored : (pteEditRequest address pid (edit i) (sys.kernelEntry
          (w.kernel.withMem (w.kernel.mem.write slot old)) address pid)).pte = edit i old :=
        congrArg (edit i) entry.2
      have calls := @pteEditRest_kernel lib address pid selected (edit i) _ entry.1
      have program : (pteThreads sys lib w address pid slot edit c).1 i =
          pteEditRest lib address pid (edit i)
            (sys.kernelEntry (w.kernel.withMem (w.kernel.mem.write slot old)) address pid) :=
        congrArg (pteThread sys lib w.kernel address pid slot (edit i)) phase
      refine (Prog.stepThread_of_call (program.trans calls) answer).trans ?_
      have world : (w.withMem (w.kernel.mem.write slot c.value)).withMem
          ((w.withMem (w.kernel.mem.write slot c.value)).kernel.mem.writeAll (kernelStores sys.host
            (w.withMem (w.kernel.mem.write slot c.value)).kernel
            (pteEditRequest address pid (edit i)
              (sys.kernelEntry (w.kernel.withMem (w.kernel.mem.write slot old)) address pid)))) =
          w.withMem (w.kernel.mem.write slot (edit i old)) := by
        rw [show (w.withMem (w.kernel.mem.write slot c.value)).kernel =
          w.kernel.withMem (w.kernel.mem.write slot c.value) from rfl, stores, stored]
        exact congrArg w.withMem (write_write_self _ _ _ _)
      rw [world]
      refine congrArg (fun threads => some (threads, _)) ?_
      exact update_pteThread edit c.phase i .done
  | done =>
      have program : (pteThreads sys lib w address pid slot edit c).1 i = Prog.ret () :=
        congrArg (pteThread sys lib w.kernel address pid slot (edit i)) phase
      exact Prog.stepThread_of_ret program

/-- **Run.**  Any order of the requests is a run on the shared value. -/
theorem runSchedule_pteThreads (attached : Attached sys lib w)
    (selected : lib.implementation = .kernel)
    (found : sys.host.getMm (sizeOfInt pid) = some mm)
    (pte : PteSlot sys.host w.kernel address mm slot) (edits : ι → PteEdit) (schedule : List ι) :
    runSchedule (Prog.stepThread (sysHandler sys)) schedule
        (fun i => (edits i).program lib address pid, w) =
      (runSchedule (Cell.step fun i => (edits i).apply lib.arch) schedule
        (Cell.start (w.kernel.mem.read slot))).map
          (pteThreads sys lib w address pid slot fun i => (edits i).apply lib.arch) := by
  have start : (fun i => (edits i).program lib address pid, w) =
      pteThreads sys lib w address pid slot (fun i => (edits i).apply lib.arch)
        (Cell.start (w.kernel.mem.read slot)) := by
    refine Prod.ext (funext fun i => (edits i).program_eq lib address pid) ?_
    change w = w.withMem (w.kernel.mem.write slot (w.kernel.mem.read slot))
    rw [write_read_self]
    rfl
  rw [start]
  exact runSchedule_map
    (stepThread_pteThreads attached selected found pte fun i => (edits i).apply lib.arch) _ _

end Threads

/-- **Edits of one PTE by two threads**, in any order of their requests.  Both calls return when
each thread has made its two requests.  One call after the other applies both edits; of two that
overlap the one written last wins. -/
theorem pteEdits_interleaved {sys : System} {lib : Lib} {w : World} {address : Word} {pid : Pid}
    {mm : Mm} {slot : Word} (attached : Attached sys lib w)
    (selected : lib.implementation = .kernel)
    (found : sys.host.getMm (sizeOfInt pid) = some mm)
    (pte : PteSlot sys.host w.kernel address mm slot) {edits : Bool → PteEdit}
    (disjoint : (edits false).touched lib.arch &&& (edits true).touched lib.arch = 0)
    (schedule : List Bool) :
    ((∃ threads w', runSchedule (Prog.stepThread (sysHandler sys)) schedule
        (fun i => (edits i).program lib address pid, w) = some (threads, w') ∧
          Prog.Finished threads) ↔ ∀ i, schedule.count i = 2) ∧
    ∀ threads w', runSchedule (Prog.stepThread (sysHandler sys)) schedule
        (fun i => (edits i).program lib address pid, w) = some (threads, w') →
      Prog.Finished threads →
      (∃ i, schedule = [i, i, !i, !i] ∧
        w' = w.withMem (w.kernel.mem.write slot ((edits true).apply lib.arch
          ((edits false).apply lib.arch (w.kernel.mem.read slot))))) ∨
      (∃ last, (schedule = [!last, last, !last, last] ∨ schedule = [last, !last, !last, last]) ∧
        w' = w.withMem (w.kernel.mem.write slot
          ((edits last).apply lib.arch (w.kernel.mem.read slot)))) := by
  rw [runSchedule_pteThreads attached selected found pte]
  constructor
  · constructor
    · rintro ⟨threads, w', run, finished⟩
      obtain ⟨c, ends, stands⟩ := Option.map_eq_some_iff.mp run
      obtain ⟨rfl, rfl⟩ := Prod.mk.inj stands
      exact Cell.count_of_done ends (done_of_finished selected found pte finished)
    · intro twice
      obtain ⟨c, ends, done⟩ :=
        @Cell.exists_run_of_count _ _ _ (fun i => (edits i).apply lib.arch) schedule
          (Cell.start (w.kernel.mem.read slot)) twice
      exact ⟨_, _, Option.map_eq_some_iff.mpr ⟨c, ends, rfl⟩, finished_of_done done⟩
  · intro threads w' run finished
    obtain ⟨c, ends, stands⟩ := Option.map_eq_some_iff.mp run
    obtain ⟨rfl, rfl⟩ := Prod.mk.inj stands
    rcases Cell.run_pair ends (done_of_finished selected found pte finished) with
      ⟨i, serial, value⟩ | ⟨i, crossed, value⟩ | ⟨i, nested, value⟩
    · refine .inl ⟨i, serial, ?_⟩
      rw [value]
      cases i with
      | false => rfl
      | true =>
          have swapped := PteEdit.apply_comm disjoint (w.kernel.mem.read slot)
          exact congrArg (fun value => w.withMem (w.kernel.mem.write slot value)) swapped
    · refine .inr ⟨!i, .inl (by simpa using crossed), ?_⟩
      rw [value]
    · refine .inr ⟨!i, .inr (by simpa using nested), ?_⟩
      rw [value]

/-! ## On the sample machine -/

theorem sample_pteSlot : PteSlot sampleHost sampleKernel 0 0 0x4000 := by
  refine ⟨by decide +kernel, by decide +kernel, fun level ne pointer here => ?_⟩
  have tables : (sampleKernel.walk sampleHost 0 0).pointer .pgd = some (directMap 0x1000) ∧
      (sampleKernel.walk sampleHost 0 0).pointer .p4d = some (directMap 0x1000) ∧
      (sampleKernel.walk sampleHost 0 0).pointer .pud = some (directMap 0x2000) ∧
      (sampleKernel.walk sampleHost 0 0).pointer .pmd = some (directMap 0x3000) := by
    decide +kernel
  have physical : pointer = directMap 0x1000 ∨ pointer = directMap 0x2000 ∨
      pointer = directMap 0x3000 := by
    cases level with
    | pgd => exact .inl (Option.some.inj (here.symm.trans tables.1))
    | p4d => exact .inl (Option.some.inj (here.symm.trans tables.2.1))
    | pud => exact .inr (.inl (Option.some.inj (here.symm.trans tables.2.2.1)))
    | pmd => exact .inr (.inr (Option.some.inj (here.symm.trans tables.2.2.2)))
    | pte => exact absurd rfl ne
  have slot : Aligned 0x4000 := by decide
  rcases physical with rfl | rfl | rfl
  · exact apart_of_aligned slot (by decide) (by decide)
  · exact apart_of_aligned slot (by decide) (by decide)
  · exact apart_of_aligned slot (by decide) (by decide)

/-- Two threads that set bits 2 and 3. -/
def sampleEdits (i : Bool) : PteEdit := if i then .setBit 3 else .setBit 2

/-- Both resolve before either updates, and bit 2 is lost. -/
theorem pteEdits_lost :
    ∃ threads w', runSchedule (Prog.stepThread (sysHandler sampleSystem)) [false, true, false, true]
        (fun i => (sampleEdits i).program sampleKernelLib 0 0, sampleWorld) = some (threads, w') ∧
      Prog.Finished threads ∧
      sampleWorld.kernel.mem.read 0x4000 = 0x5003 ∧
      w'.kernel.mem.read 0x4000 = 0x500b ∧
      w'.kernel.mem.read 0x4000 ≠ 0x500f := by
  have attached : Attached sampleSystem sampleKernelLib sampleWorld :=
    ⟨rfl, rfl, sampleKernel_loaded⟩
  have run := runSchedule_pteThreads attached rfl
    (show sampleSystem.host.getMm (sizeOfInt 0) = some 0 by decide) sample_pteSlot sampleEdits
    [false, true, false, true]
  have initial : sampleWorld.kernel.mem.read 0x4000 = 0x5003 := by decide +kernel
  obtain ⟨c, ends, done, value⟩ : ∃ c, runSchedule
      (Cell.step fun i => (sampleEdits i).apply sampleKernelLib.arch) [false, true, false, true]
        (Cell.start (sampleWorld.kernel.mem.read 0x4000)) = some c ∧ c.Done ∧
      c.value = sampleWorld.kernel.mem.read 0x4000 ||| (1#64 <<< 3) :=
    ⟨_, rfl, fun i => by cases i <;> rfl, rfl⟩
  rw [ends] at run
  have final : (sampleWorld.withMem (sampleWorld.kernel.mem.write 0x4000 c.value)).kernel.mem.read
      0x4000 = 0x500b := by
    rw [World.mem_withMem, read_write_self, value, initial]
    decide
  refine ⟨_, _, run, finished_of_done done, initial, final, fun both => ?_⟩
  exact absurd (final.symm.trans both) (by decide)

/-- One after the other sets both bits. -/
theorem pteEdits_interleaved_sample :
    ∃ threads w', runSchedule (Prog.stepThread (sysHandler sampleSystem)) [false, false, true, true]
        (fun i => (sampleEdits i).program sampleKernelLib 0 0, sampleWorld) = some (threads, w') ∧
      w' = sampleWorld.withMem (sampleWorld.kernel.mem.write 0x4000
        ((PteEdit.setBit 3).apply .x86_64 ((PteEdit.setBit 2).apply .x86_64
          (sampleWorld.kernel.mem.read 0x4000)))) := by
  have attached : Attached sampleSystem sampleKernelLib sampleWorld :=
    ⟨rfl, rfl, sampleKernel_loaded⟩
  have found : sampleSystem.host.getMm (sizeOfInt 0) = some 0 := by decide
  obtain ⟨complete, ends⟩ := @pteEdits_interleaved _ _ _ _ _ _ _ attached rfl found sample_pteSlot
    sampleEdits (by decide) [false, false, true, true]
  obtain ⟨threads, w', run, finished⟩ := complete.mpr (by decide)
  refine ⟨threads, w', run, ?_⟩
  rcases ends threads w' run finished with ⟨_, _, both⟩ | ⟨last, crossed, _⟩
  · exact both
  · cases last <;> simp at crossed

end PTEditor
