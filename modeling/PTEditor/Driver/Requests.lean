import PTEditor.Driver.Dispatch

/-!
# The requests of the Windows driver

For each control code the calls that `DispatchDeviceCtl` makes, the status it reports
and the reference counts it leaves, from any state.
-/

namespace PTEditor

namespace Windows

open DriverProg

/-- The request completes with `returnLength` bytes of output. -/
def IoStatus.returning (returnLength : Nat) : IoStatus :=
  { status := .success, information := returnLength }

/-- A request of a code makes the calls `ops`, completes with `io` and leaves the process
objects with `references`. -/
def Serves (host : WindowsHost) (cpu : Nat) (code : BitVec 32) (s : RequestState)
    (ops : List DriverOp) (io : IoStatus) (references : Process → Nat) : Prop :=
  ∃ s', Prog.Makes (driverHandler host cpu) (dispatchDeviceCtl code) s ops io s' ∧
    s'.machine.references = references

/-- The reference counts after a lookup that found `process`. -/
def referenced (references : Process → Nat) (process : Process) : Process → Nat :=
  fun other => if other = process then references other + 1 else references other

section Cases

variable {host : WindowsHost} {cpu : Nat} {s : RequestState}

theorem serves_of_case {code : BitVec 32} {body : DriverProg Nat} {ops : List DriverOp}
    {returnLength : Nat} {s' : RequestState} {references : Process → Nat}
    (served : DispatchDeviceCtl.case code = some body)
    (made : Prog.Makes (driverHandler host cpu) body s ops returnLength s')
    (kept : s'.machine.references = references) :
    Serves host cpu code s ops (.returning returnLength) references := by
  refine ⟨s', ?_, kept⟩
  rw [← List.append_nil ops, dispatchDeviceCtl, served]
  exact made.bind ⟨rfl, rfl⟩

/-- A code without a case is refused. -/
theorem serves_of_unknown {code : BitVec 32} (unknown : DispatchDeviceCtl.case code = none) :
    Serves host cpu code s [] { status := .invalidParameter, information := 0 }
      s.machine.references := by
  refine ⟨s, ?_, rfl⟩
  rw [dispatchDeviceCtl, unknown]
  exact ⟨rfl, rfl⟩

/-- The end of the two cases that write: only a mapped address is written to. -/
theorem makes_ifMapped {write : DriverProg Unit} {op : DriverOp} {written : RequestState}
    (vaddr : Word) (made : Prog.Makes (driverHandler host cpu) write s [op] () written)
    (kept : written.machine.references = s.machine.references) :
    ∃ s', Prog.Makes (driverHandler host cpu)
        (if vaddr ≠ 0 then (do write; pure 0) else pure 0) s
        (if vaddr ≠ 0 then [op] else []) 0 s' ∧
      s'.machine.references = s.machine.references := by
  by_cases mapped : vaddr ≠ 0
  · rw [if_pos mapped, if_pos mapped]
    exact ⟨written, made.bind ⟨rfl, rfl⟩, kept⟩
  · rw [if_neg mapped, if_neg mapped]
    exact ⟨s, ⟨rfl, rfl⟩, rfl⟩

/-- A lookup takes a reference on the process it finds. -/
theorem makes_lookup {pid : Word} {process : Process} (live : host.processById pid = some process) :
    Prog.Makes (driverHandler host cpu) (psLookupProcessByProcessId pid) s
      [.psLookupProcessByProcessId pid] (some process)
      { s with machine :=
        { s.machine with references := referenced s.machine.references process } } :=
  Prog.makes_perform (by rw [driverHandler, live]; rfl)

theorem makes_lookup_of_none {pid : Word} (dead : host.processById pid = none) :
    Prog.Makes (driverHandler host cpu) (psLookupProcessByProcessId pid) s
      [.psLookupProcessByProcessId pid] none s :=
  Prog.makes_perform (by rw [driverHandler, dead])

variable (host cpu s)

theorem serves_writePage :
    Serves host cpu pteditorWritePage s
      (.loadBuffer 4096 :: .mmGetVirtualForPhysical (s.buffer.read 4096) ::
        if host.virtualForPhysical (s.buffer.read 4096) ≠ 0 then
          [.copyToVirtual (host.virtualForPhysical (s.buffer.read 4096)) 4096]
        else
          [])
      (.returning 0) s.machine.references := by
  have store : Prog.Makes (driverHandler host cpu)
      (copyToVirtual (host.virtualForPhysical (s.buffer.read 4096)) 4096) s _ () _ :=
    Prog.makes_perform rfl
  obtain ⟨s', rest, kept⟩ := makes_ifMapped _ store rfl
  have body : Prog.Makes (driverHandler host cpu) DispatchDeviceCtl.writePage s _ 0 s' :=
    (Prog.makes_perform rfl).bind ((Prog.makes_perform rfl).bind rest)
  exact serves_of_case rfl body kept

theorem serves_readPage :
    Serves host cpu pteditorReadPage s
      [.loadBuffer 0, .copyFromPhysical (s.buffer.read 0) 4096]
      (.returning 4096) s.machine.references :=
  ⟨_, ⟨rfl, rfl⟩, rfl⟩

theorem serves_getCr3_of_live {process : Process}
    (live : host.processById (s.buffer.read 0) = some process) :
    Serves host cpu pteditorGetCr3 s
      [.loadBuffer 0, .psLookupProcessByProcessId (s.buffer.read 0),
        .keStackAttachProcess process, .readcr3, .keUnstackDetachProcess (host.apcState process),
        .storeBuffer 0 (s.machine.attach host process).cr3]
      (.returning 8) (referenced s.machine.references process) := by
  have body : Prog.Makes (driverHandler host cpu) DispatchDeviceCtl.getCr3 s _ 8 _ :=
    (Prog.makes_perform rfl).bind ((makes_lookup live).bind ⟨rfl, rfl⟩)
  exact serves_of_case rfl body rfl

theorem serves_getCr3_of_none (dead : host.processById (s.buffer.read 0) = none) :
    Serves host cpu pteditorGetCr3 s
      [.loadBuffer 0, .psLookupProcessByProcessId (s.buffer.read 0), .storeBuffer 0 0]
      (.returning 8) s.machine.references := by
  have body : Prog.Makes (driverHandler host cpu) DispatchDeviceCtl.getCr3 s _ 8 _ :=
    (Prog.makes_perform rfl).bind ((makes_lookup_of_none dead).bind ⟨rfl, rfl⟩)
  exact serves_of_case rfl body rfl

/-- `SET_CR3` goes on with `FLUSH_TLB`. -/
theorem serves_setCr3_of_live {process : Process}
    (live : host.processById (s.buffer.read 0) = some process) :
    Serves host cpu pteditorSetCr3 s
      [.loadBuffer 0, .psLookupProcessByProcessId (s.buffer.read 0),
        .keStackAttachProcess process, .loadBuffer 8, .writecr3 (s.buffer.read 8),
        .keUnstackDetachProcess (host.apcState process), .loadBuffer 0,
        .keIpiGenericCall .invalidateTlb (s.buffer.read 0)]
      (.returning 0) (referenced s.machine.references process) := by
  have body : Prog.Makes (driverHandler host cpu) DispatchDeviceCtl.setCr3 s _ 0 _ :=
    (Prog.makes_perform rfl).bind ((makes_lookup live).bind ⟨rfl, rfl⟩)
  exact serves_of_case rfl body rfl

theorem serves_setCr3_of_none (dead : host.processById (s.buffer.read 0) = none) :
    Serves host cpu pteditorSetCr3 s
      [.loadBuffer 0, .psLookupProcessByProcessId (s.buffer.read 0), .loadBuffer 0,
        .keIpiGenericCall .invalidateTlb (s.buffer.read 0)]
      (.returning 0) s.machine.references := by
  have body : Prog.Makes (driverHandler host cpu) DispatchDeviceCtl.setCr3 s _ 0 _ :=
    (Prog.makes_perform rfl).bind ((makes_lookup_of_none dead).bind ⟨rfl, rfl⟩)
  exact serves_of_case rfl body rfl

theorem serves_flushTlb :
    Serves host cpu pteditorFlushTlb s
      [.loadBuffer 0, .keIpiGenericCall .invalidateTlb (s.buffer.read 0)]
      (.returning 0) s.machine.references :=
  ⟨_, ⟨rfl, rfl⟩, rfl⟩

theorem serves_readPhysVal :
    Serves host cpu pteditorReadPhysVal s
      [.loadBuffer 0, .copyFromPhysical (s.buffer.read 0) 8]
      (.returning 8) s.machine.references :=
  ⟨_, ⟨rfl, rfl⟩, rfl⟩

theorem serves_writePhysVal :
    Serves host cpu pteditorWritePhysVal s
      (.loadBuffer 8 :: .loadBuffer 0 :: .mmGetVirtualForPhysical (s.buffer.read 0) ::
        if host.virtualForPhysical (s.buffer.read 0) ≠ 0 then
          [.storeVirtual (host.virtualForPhysical (s.buffer.read 0)) (s.buffer.read 8)]
        else
          [])
      (.returning 0) s.machine.references := by
  have store : Prog.Makes (driverHandler host cpu)
      (storeVirtual (host.virtualForPhysical (s.buffer.read 0)) (s.buffer.read 8)) s _ () _ :=
    Prog.makes_perform rfl
  obtain ⟨s', rest, kept⟩ := makes_ifMapped _ store rfl
  have body : Prog.Makes (driverHandler host cpu) DispatchDeviceCtl.writePhysVal s _ 0 s' :=
    (Prog.makes_perform rfl).bind
      ((Prog.makes_perform rfl).bind ((Prog.makes_perform rfl).bind rest))
  exact serves_of_case rfl body kept

theorem serves_getPat :
    Serves host cpu pteditorGetPat s [.readmsr, .storeBuffer 0 (s.machine.ia32Pat cpu)]
      (.returning 8) s.machine.references :=
  ⟨_, ⟨rfl, rfl⟩, rfl⟩

theorem serves_setPat :
    Serves host cpu pteditorSetPat s
      [.loadBuffer 0, .keIpiGenericCall .setPat (s.buffer.read 0)]
      (.returning 0) s.machine.references :=
  ⟨_, ⟨rfl, rfl⟩, rfl⟩

end Cases

theorem ne_of_unknown {code known : BitVec 32} {body : DriverProg Nat}
    (unknown : DispatchDeviceCtl.case code = none)
    (served : DispatchDeviceCtl.case known = some body) : code ≠ known := by
  rintro rfl
  rw [served] at unknown
  cases unknown

/-- The codes that have a case, and the others. -/
theorem code_cases (code : BitVec 32) :
    code = pteditorWritePage ∨ code = pteditorReadPage ∨ code = pteditorGetCr3 ∨
    code = pteditorSetCr3 ∨ code = pteditorFlushTlb ∨ code = pteditorReadPhysVal ∨
    code = pteditorWritePhysVal ∨ code = pteditorGetPat ∨ code = pteditorSetPat ∨
    DispatchDeviceCtl.case code = none := by
  by_contra! other
  obtain ⟨writePage, readPage, getCr3, setCr3, flushTlb, readPhysVal, writePhysVal, getPat, setPat,
    known⟩ := other
  refine known ?_
  rw [DispatchDeviceCtl.case, if_neg writePage, if_neg readPage, if_neg getCr3, if_neg setCr3,
    if_neg flushTlb, if_neg readPhysVal, if_neg writePhysVal, if_neg getPat, if_neg setPat]

/-! ## A machine -/

/-- A machine whose register has its value at reset. -/
def sampleMachine : Machine where
  mem := fun _ => 0
  ia32Pat := fun _ => 0x0007040600070406
  cr3 := 0x1000
  references := fun _ => 1

def sampleHost : WindowsHost where
  virtualForPhysical := id
  physicalForVirtual := id
  processById := fun _ => none
  directoryBase := fun _ => 0x1000
  caller := 0
  pool := fun _ => 0

end Windows

end PTEditor
