import Mathlib.Data.List.Chain
import PTEditor.Module.IoctlSpec
import PTEditor.Module.Linux

/-!
# Flushing without a pid

`INVALIDATE_TLB` names the caller by `task_pid_nr`, its number in the initial pid
namespace, and `get_mm` looks that number up in the namespace of the caller.  For a
process of the initial namespace this finds the caller again; inside a container it
finds whatever process has the number there, or none: `callerFlushed_iff`.
-/

namespace PTEditor

open KernelProg

/-! ## Process tables -/

/-- A process table with nested pid namespaces.  A process has one number in its own
namespace and one in each namespace around it, listed as in `struct pid` from the
initial namespace, 0, inwards. -/
structure PidTable where
  parent : Nat → Option Nat
  numbers : Nat → List (Nat × Pid)
  task : Nat → Option Task
  nested : ∀ p, (numbers p).IsChain fun outer inner => parent inner.1 = some outer.1
  initial : ∀ p entry, (numbers p).head? = some entry → entry.1 = 0
  positive : ∀ p entry, entry ∈ numbers p → 0 < entry.2.toInt
  unique : ∀ p q entry, entry ∈ numbers p → entry ∈ numbers q → p = q

/-- The kernel as one of its processes finds it: `find_vpid` looks a number up in the
namespace that the caller runs in, and `task_pid_nr` is its number in the initial one. -/
structure PidTable.Describes (table : PidTable) (host : Host) (caller : Nat) : Prop where
  findVpid : ∀ ns nr p, host.findVpid ns nr = some p ↔ (ns, nr) ∈ table.numbers p
  pidTask : ∀ p, host.pidTask p = table.task p
  task : table.task caller = some host.current
  outermost : (table.numbers caller).head? = some (0, host.current.nr)
  innermost : ∃ nr, (table.numbers caller).getLast? = some (host.current.pidNs, nr)

namespace PidTable.Describes

variable {table : PidTable} {host : Host} {caller : Nat}

theorem mem_numbers (described : table.Describes host caller) :
    (0, host.current.nr) ∈ table.numbers caller :=
  List.mem_of_mem_head? described.outermost

/-- A number is never mistaken for the pid 0 of the calling process. -/
theorem sizeOfInt_nr_ne_zero (described : table.Describes host caller) :
    sizeOfInt host.current.nr ≠ 0 := by
  intro zero
  have nr : host.current.nr = 0 := by
    rw [← intOfSize_sizeOfInt host.current.nr, zero]
    rfl
  have positive := table.positive caller _ described.mem_numbers
  rw [nr] at positive
  exact absurd positive (by decide)

/-- `get_mm` of the caller's own number finds what has that number in the namespace of
the caller. -/
theorem getMm_nr (described : table.Describes host caller) (mm : Mm) :
    host.getMm (sizeOfInt host.current.nr) = some mm ↔
      ∃ p task, (host.current.pidNs, host.current.nr) ∈ table.numbers p ∧
        table.task p = some task ∧ task.theMm = some mm := by
  unfold Host.getMm
  rw [if_neg described.sizeOfInt_nr_ne_zero, intOfSize_sizeOfInt]
  constructor
  · intro found
    cases looked : host.findVpid host.current.pidNs host.current.nr with
    | none =>
        rw [looked] at found
        cases found
    | some p =>
        rw [looked] at found
        dsimp only at found
        rw [described.pidTask] at found
        cases alive : table.task p with
        | none =>
            rw [alive] at found
            cases found
        | some task =>
            rw [alive] at found
            exact ⟨p, task, (described.findVpid _ _ _).mp looked, alive, found⟩
  · intro ⟨p, task, numbered, alive, its⟩
    rw [(described.findVpid _ _ _).mpr numbered]
    dsimp only
    rw [described.pidTask, alive]
    exact its

end PidTable.Describes

/-! ## The flushes of a command -/

/-- The operations that drop translations. -/
def KernelOp.isFlush : KernelOp → Bool
  | .flushTlbMmRange _ _ _ _ | .flushTlbPageOnEachCpu _ _ | .tlbiAllOnEachCpu => true
  | _ => false

/-- The flushes that a command performs. -/
def flushes (host : Host) (copy : UserCopy) (cmd : Cmd) (param : Word) (s : CallState) :
    List KernelOp :=
  ((deviceIoctl host cmd param).trace (kernelHandler host copy) s).filter KernelOp.isFlush

/-- The flush of one page in an mm. -/
def flushOfPage (k : Kernel) (addr : Word) (mm : Mm) : KernelOp :=
  .flushTlbMmRange mm addr (addr + sizeOfInt k.realPageSize) k.realPageShift

/-- The argument structure of a request for the calling process. -/
def callerArgs (addr : Word) : PteditInvalidateTlbArgs := { pid := 0, address := addr }

/-- `INVALIDATE_TLB` flushes the page for the caller and for nobody else, as
`INVALIDATE_TLB_PID` does with pid 0. -/
structure FlushesCaller (host : Host) (copy : UserCopy) (s : CallState) (addr : Word) : Prop where
  caller : ∃ mm, host.current.theMm = some mm ∧
    flushes host copy .invalidateTlb addr s = [flushOfPage s.kernel addr mm]
  asPid : flushes host copy .invalidateTlb addr s =
    flushes host copy .invalidateTlbPid 0 { s with arg := (callerArgs addr).block }

section Runs

variable {host : Host} {s : CallState} (arch : host.arch = .x86_64)
  (loaded : s.kernel.Loaded host) (kernelMethod : s.kernel.invalidateTlb = some .kernel)

include arch loaded kernelMethod

/-- A call through `invalidate_tlb` flushes the page in the mm that `get_mm` finds. -/
theorem makes_callInvalidateTlb (copy : UserCopy) (pid : Pid) (addr : Word) :
    ∃ ops, Prog.Makes (kernelHandler host copy) (callInvalidateTlb host pid addr) s ops () s ∧
      ops.filter KernelOp.isFlush =
        ((host.getMm (sizeOfInt pid)).map (flushOfPage s.kernel addr)).toList := by
  have entered : Prog.Makes (kernelHandler host copy) invalidateTlb s [.invalidateTlb] .kernel s :=
    Prog.makes_perform (by rw [kernelHandler, kernelMethod]; rfl)
  cases found : host.getMm (sizeOfInt pid) with
  | none =>
      have rest : Prog.Makes (kernelHandler host copy) (invalidateTlbKernel host pid addr) s [] ()
          s := by
        unfold invalidateTlbKernel
        rw [arch]
        dsimp only
        rw [found]
        exact ⟨rfl, rfl⟩
      exact ⟨_, entered.bind rest, rfl⟩
  | some mm =>
      have size : Prog.Makes (kernelHandler host copy) pageSize s [.pageSize]
          s.kernel.realPageSize s := Prog.makes_perform rfl
      have shift : Prog.Makes (kernelHandler host copy) pageShift s [.pageShift]
          s.kernel.realPageShift s := Prog.makes_perform rfl
      have flush : Prog.Makes (kernelHandler host copy) (flushTlbMmRange mm addr
          (addr + sizeOfInt s.kernel.realPageSize) s.kernel.realPageShift) s
          [flushOfPage s.kernel addr mm] () s :=
        Prog.makes_perform (if_pos (loaded.flushTlbMmRangeFunc arch))
      have rest : Prog.Makes (kernelHandler host copy) (invalidateTlbKernel host pid addr) s
          ([.pageSize] ++ ([.pageShift] ++ [flushOfPage s.kernel addr mm])) () s := by
        unfold invalidateTlbKernel
        rw [arch]
        dsimp only
        rw [found]
        exact size.bind (shift.bind flush)
      exact ⟨_, entered.bind rest, rfl⟩

theorem flushes_invalidateTlb (copy : UserCopy) (addr : Word) :
    flushes host copy .invalidateTlb addr s =
      ((host.getMm (sizeOfInt host.current.nr)).map (flushOfPage s.kernel addr)).toList := by
  obtain ⟨ops, called, flushed⟩ :=
    makes_callInvalidateTlb arch loaded kernelMethod copy host.current.nr addr
  have whole : Prog.Makes (kernelHandler host copy) (deviceIoctl host .invalidateTlb addr) s
      (ops ++ []) 0 s := called.bind ⟨rfl, rfl⟩
  rw [flushes, whole.trace, List.append_nil, flushed]

/-- A request that names a process by its pid flushes for that process. -/
theorem flushes_invalidateTlbPid {copy : UserCopy} {args : PteditInvalidateTlbArgs}
    (request : PteditInvalidateTlbArgs.ofBlock
      (received copy s copy.locals PteditInvalidateTlbArgs.size) = args) (param : Word) :
    flushes host copy .invalidateTlbPid param s =
      ((host.getMm (sizeOfInt args.pid)).map (flushOfPage s.kernel args.address)).toList := by
  subst request
  obtain ⟨ops, called, flushed⟩ :=
    makes_callInvalidateTlb arch loaded kernelMethod copy _ _
  have whole : Prog.Makes (kernelHandler host copy) (deviceIoctl host .invalidateTlbPid param) s
      ([.uninitialised] ++ ([.fromUser _ _] ++ (ops ++ []))) 0 s :=
    (Prog.makes_perform rfl).bind ((Prog.makes_perform rfl).bind (called.bind ⟨rfl, rfl⟩))
  rw [flushes, whole.trace, List.append_nil, List.filter_append, List.filter_append, flushed]
  rfl

end Runs

/-! ## Who is flushed -/

theorem ofBlock_received_callerArgs {copy : UserCopy} {s : CallState} {addr : Word}
    (readable : PteditInvalidateTlbArgs.size ≤ copy.copied) (dst : Block) :
    PteditInvalidateTlbArgs.ofBlock (received copy { s with arg := (callerArgs addr).block } dst
      PteditInvalidateTlbArgs.size) = callerArgs addr := by
  have whole : ∀ i, 8 * i + 8 ≤ 16 → received copy { s with arg := (callerArgs addr).block } dst
      PteditInvalidateTlbArgs.size i = (callerArgs addr).block i := by
    intro i inside
    unfold PteditInvalidateTlbArgs.size at readable
    exact copyBlock_of_le (by rw [PteditInvalidateTlbArgs.size]; omega) _ _
  rw [PteditInvalidateTlbArgs.ofBlock, whole 0 (by decide), whole 1 (by decide)]
  rfl

/-- The flush is the caller's own exactly when `get_mm` finds the mm of the caller. -/
theorem flushesCaller_iff_getMm {host : Host} {copy : UserCopy} {s : CallState} {mm : Mm}
    (arch : host.arch = .x86_64) (loaded : s.kernel.Loaded host)
    (kernelMethod : s.kernel.invalidateTlb = some .kernel) (own : host.current.theMm = some mm)
    (readable : PteditInvalidateTlbArgs.size ≤ copy.copied) (addr : Word) :
    FlushesCaller host copy s addr ↔ host.getMm (sizeOfInt host.current.nr) = some mm := by
  have direct := flushes_invalidateTlb arch loaded kernelMethod copy addr
  constructor
  · intro ⟨⟨mm', its, flushed⟩, _⟩
    obtain rfl := Option.some.inj (own.symm.trans its)
    rw [direct] at flushed
    cases found : host.getMm (sizeOfInt host.current.nr) with
    | none =>
        rw [found] at flushed
        cases flushed
    | some other =>
        rw [found] at flushed
        have same : flushOfPage s.kernel addr other = flushOfPage s.kernel addr mm :=
          List.singleton_inj.mp flushed
        exact congrArg some (KernelOp.flushTlbMmRange.inj same).1
  · intro found
    rw [found] at direct
    let asked : CallState := { s with arg := (callerArgs addr).block }
    have byPid := @flushes_invalidateTlbPid host asked arch loaded kernelMethod copy _
      (ofBlock_received_callerArgs readable copy.locals) 0
    have caller : host.getMm (sizeOfInt (callerArgs addr).pid) = some mm := own
    rw [caller] at byPid
    exact ⟨⟨mm, own, direct⟩, direct.trans byPid.symm⟩

/-- **Who is flushed.**  `INVALIDATE_TLB` flushes the caller exactly when its number in the
initial namespace is, in its own namespace, the number of a process with the same mm. -/
theorem callerFlushed_iff {table : PidTable} {host : Host} {copy : UserCopy} {s : CallState}
    {caller : Nat} {mm : Mm} (described : table.Describes host caller)
    (arch : host.arch = .x86_64) (loaded : s.kernel.Loaded host)
    (kernelMethod : s.kernel.invalidateTlb = some .kernel) (own : host.current.theMm = some mm)
    (readable : PteditInvalidateTlbArgs.size ≤ copy.copied) (addr : Word) :
    FlushesCaller host copy s addr ↔
      ∃ p task, (host.current.pidNs, host.current.nr) ∈ table.numbers p ∧
        table.task p = some task ∧ task.theMm = some mm := by
  rw [flushesCaller_iff_getMm arch loaded kernelMethod own readable]
  exact described.getMm_nr mm

/-- Every process of the initial namespace is flushed as it asks. -/
theorem flushesCaller_of_initial {table : PidTable} {host : Host} {copy : UserCopy}
    {s : CallState} {caller : Nat} {mm : Mm} (described : table.Describes host caller)
    (arch : host.arch = .x86_64) (loaded : s.kernel.Loaded host)
    (kernelMethod : s.kernel.invalidateTlb = some .kernel) (own : host.current.theMm = some mm)
    (readable : PteditInvalidateTlbArgs.size ≤ copy.copied) (host0 : host.current.pidNs = 0)
    (addr : Word) : FlushesCaller host copy s addr := by
  rw [flushesCaller_iff_getMm arch loaded kernelMethod own readable, described.getMm_nr, host0]
  exact ⟨caller, host.current, described.mem_numbers, described.task, own⟩

/-! ## A container -/

/-- The caller, 100 outside and 5 in its container. -/
def containedTask : Task := { mm := some 0, activeMm := some 0, nr := 100, pidNs := 1 }

/-- The other process of the container, 100 in it. -/
def neighbourTask : Task := { mm := some 1, activeMm := some 1, nr := 200, pidNs := 1 }

/-- What the two are called in the initial namespace and in the container, namespace 1. -/
def containerNumbers : Nat → List (Nat × Pid)
  | 0 => [(0, 100), (1, 5)]
  | 1 => [(0, 200), (1, 100)]
  | _ => []

theorem containerNumbers_unique (p q : Nat) (entry : Nat × Pid)
    (first : entry ∈ containerNumbers p) (second : entry ∈ containerNumbers q) : p = q := by
  have apart : ∀ entry ∈ containerNumbers 0, entry ∉ containerNumbers 1 := by decide
  rcases p with _ | _ | p
  · rcases q with _ | _ | q
    · rfl
    · exact absurd second (apart entry first)
    · cases second
  · rcases q with _ | _ | q
    · exact absurd first (apart entry second)
    · rfl
    · cases second
  · cases first

/-- Two processes in one container. -/
def containerTable : PidTable where
  parent := fun ns => if ns = 1 then some 0 else none
  numbers := containerNumbers
  task
    | 0 => some containedTask
    | 1 => some neighbourTask
    | _ => none
  nested := by rintro (_ | _ | p) <;> simp [containerNumbers]
  initial := by rintro (_ | _ | p) entry first <;> cases first <;> rfl
  positive := by
    have positive : ∀ p ∈ [0, 1], ∀ entry ∈ containerNumbers p, 0 < entry.2.toInt := by decide
    rintro (_ | _ | p) entry member
    · exact positive 0 (by simp) entry member
    · exact positive 1 (by simp) entry member
    · cases member
  unique := containerNumbers_unique

def containerHost : Host :=
  linuxHost containedTask
    (fun ns nr => [0, 1].find? fun p => decide ((ns, nr) ∈ containerNumbers p))
    containerTable.task (fun _ _ => none)

theorem containerTable_describes : containerTable.Describes containerHost 0 where
  findVpid := by
    intro ns nr p
    change [0, 1].find? (fun p => decide ((ns, nr) ∈ containerNumbers p)) = some p ↔
      (ns, nr) ∈ containerNumbers p
    constructor
    · intro found
      simpa using List.find?_some found
    · intro member
      rcases p with _ | _ | p
      · exact List.find?_cons_of_pos (decide_eq_true member)
      · have other : (ns, nr) ∉ containerNumbers 0 := fun first =>
          absurd (containerNumbers_unique 0 1 _ first member) (by decide)
        rw [List.find?_cons_of_neg (by simpa using other)]
        exact List.find?_cons_of_pos (decide_eq_true member)
      · cases member
  pidTask := fun _ => rfl
  task := rfl
  outermost := rfl
  innermost := ⟨5, rfl⟩

def containerCall : CallState := { kernel := sampleKernel, arg := fun _ => 0, user := fun _ => 0 }

/-- Process 5 of the container asks for a flush of its own page, and process 100 of the
container is flushed. -/
theorem containedCaller_flushesNeighbour :
    containerTable.Describes containerHost 0 ∧ containerHost.arch = .x86_64 ∧
    containerCall.kernel.Loaded containerHost ∧
    containerCall.kernel.invalidateTlb = some .kernel ∧
    containerHost.current.theMm = some 0 ∧
    PteditInvalidateTlbArgs.size ≤ wholeCopy.copied ∧
    flushes containerHost wholeCopy .invalidateTlb 0x1000 containerCall =
      [flushOfPage sampleKernel 0x1000 1] ∧
    ¬ FlushesCaller containerHost wholeCopy containerCall 0x1000 := by
  have loaded : containerCall.kernel.Loaded containerHost := ⟨rfl, fun _ => rfl⟩
  have found : containerHost.getMm (sizeOfInt containerHost.current.nr) = some 1 := by decide
  have readable : PteditInvalidateTlbArgs.size ≤ wholeCopy.copied := by decide
  have flushed := flushes_invalidateTlb rfl loaded rfl wholeCopy 0x1000
  rw [found] at flushed
  refine ⟨containerTable_describes, rfl, loaded, rfl, rfl, readable, flushed, fun own => ?_⟩
  have caller := (flushesCaller_iff_getMm rfl loaded rfl rfl readable 0x1000).mp own
  rw [found] at caller
  cases caller

/-- The only process that has the caller's outer number in the container is the other one. -/
theorem callerFlushed_iff_contained :
    ¬ FlushesCaller containerHost wholeCopy containerCall 0x1000 := by
  have flushed := @callerFlushed_iff containerTable containerHost wholeCopy containerCall 0 0
    containerTable_describes rfl ⟨rfl, fun _ => rfl⟩ rfl rfl (by decide) 0x1000
  intro own
  obtain ⟨p, task, numbered, found, same⟩ := flushed.mp own
  obtain rfl : 1 = p := containerNumbers_unique 1 p _ (by decide) numbered
  cases found
  cases same

end PTEditor
