import PTEditor.Driver.Requests

/-!
# Memory types on Windows

The Windows half of `ptedit_get_mts` and `ptedit_set_mts`, with the I/O manager between
client and driver.  `ptedit_set_mts` sends the control code of `ptedit_get_mts`:
`programmedMts_iff` says that nothing is ever programmed.
-/

namespace PTEditor

namespace Windows

open ByteMem

/-! ## The client -/

/-- A buffered `DeviceIoControl` on the open device: its input, and the length of its
output buffer. -/
structure DeviceIoControl where
  ioControlCode : BitVec 32
  input : List (BitVec 8)
  outputLength : Nat

/-- A piece of client code; a request returns the bytes that reach its output buffer. -/
abbrev ClientProg (α : Type) : Type := Prog DeviceIoControl (fun _ => List (BitVec 8)) α

/-- How the I/O manager serves a request on CPU `cpu`: the system buffer starts with the
input, and what the driver reports as information is copied out. -/
def deviceHandler (host : WindowsHost) (cpu : Nat) :
    Prog.Handler DeviceIoControl (fun _ => List (BitVec 8)) Machine
  | request, machine => do
      let start : RequestState :=
        { machine, buffer := host.pool.writeBytes 0 request.input }
      let (io, done) ← Prog.run (driverHandler host cpu) (dispatchDeviceCtl request.ioControlCode)
        start
      let output :=
        match io.status with
        | .success => done.buffer.readBytes 0 (min io.information request.outputLength)
        | .invalidParameter => []
      some (output, done.machine)

/-- A word of the client after a request that had it as its output buffer. -/
def overwritten (word : Word) (output : List (BitVec 8)) : Word :=
  wordOfBytes (output ++ (bytesOfWord word).drop output.length)

/-- `ptedit_get_mts`. -/
def pteditGetMts : ClientProg Word := do
  let mt : Word := 0
  let output ← Prog.perform
    { ioControlCode := pteditorGetPat, input := bytesOfWord mt, outputLength := 8 }
  pure (overwritten mt output)

/-- `ptedit_set_mts`. -/
def pteditSetMts (mts : Word) : ClientProg Unit := do
  let _ ← Prog.perform
    { ioControlCode := pteditorGetPat, input := bytesOfWord mts, outputLength := 8 }
  pure ()

/-! ## Requests -/

section Requests

variable (host : WindowsHost) (cpu : Nat) (machine : Machine)

/-- Eight bytes read back from the start of a buffer. -/
theorem readBytes_writeBytes_eight (mem : ByteMem) {bytes : List (BitVec 8)}
    (length : bytes.length = 8) : (mem.writeBytes 0 bytes).readBytes 0 8 = bytes := by
  have back := @readBytes_writeBytes mem 0 bytes (by omega)
  rwa [length] at back

theorem buffer_read (input : List (BitVec 8)) (length : input.length = 8) :
    (host.pool.writeBytes 0 input).read 0 = wordOfBytes input :=
  congrArg wordOfBytes (readBytes_writeBytes_eight host.pool length)

/-- `GET_PAT` returns the register of the CPU it runs on. -/
theorem deviceHandler_getPat (input : List (BitVec 8)) :
    deviceHandler host cpu
        { ioControlCode := pteditorGetPat, input, outputLength := 8 } machine =
      some (bytesOfWord (machine.ia32Pat cpu), machine) := by
  have back := readBytes_writeBytes_eight (host.pool.writeBytes 0 input)
    (length_bytesOfWord (machine.ia32Pat cpu))
  exact congrArg (fun output => some (output, machine)) back

/-- `SET_PAT` programs the register of every CPU. -/
theorem deviceHandler_setPat (value : Word) (outputLength : Nat) :
    deviceHandler host cpu
        { ioControlCode := pteditorSetPat, input := bytesOfWord value, outputLength } machine =
      some ([], { machine with ia32Pat := fun _ => value }) := by
  have read := buffer_read host (bytesOfWord value) rfl
  rw [wordOfBytes_bytesOfWord] at read
  have nothing : (host.pool.writeBytes 0 (bytesOfWord value)).readBytes 0 (min 0 outputLength) =
      [] := by
    rw [Nat.zero_min]
    rfl
  exact congrArg₂ (fun output pat => some (output, { machine with ia32Pat := fun _ => pat }))
    nothing read

theorem run_pteditGetMts :
    Prog.run (deviceHandler host cpu) pteditGetMts machine =
      some (machine.ia32Pat cpu, machine) := by
  have answer := deviceHandler_getPat host cpu machine (bytesOfWord 0)
  have whole : overwritten 0 (bytesOfWord (machine.ia32Pat cpu)) = machine.ia32Pat cpu :=
    wordOfBytes_bytesOfWord _
  refine (Prog.run_bind_of_some ((Prog.run_perform _ _).trans answer)).trans ?_
  exact congrArg (fun mts => some (mts, machine)) whole

/-- `ptedit_set_mts` reads the register and changes nothing. -/
theorem run_pteditSetMts (mts : Word) :
    Prog.run (deviceHandler host cpu) (pteditSetMts mts) machine = some ((), machine) := by
  have answer := deviceHandler_getPat host cpu machine (bytesOfWord mts)
  exact Prog.run_bind_of_some ((Prog.run_perform _ _).trans answer)

end Requests

/-! ## Sequences of calls -/

/-- Calls of `ptedit_set_mts`, each with the CPU on which its request is served. -/
abbrev Calls : Type := List (Nat × Word)

/-- The machine after a sequence of calls. -/
def runCalls (host : WindowsHost) : Calls → Machine → Option Machine
  | [], machine => some machine
  | (cpu, mts) :: rest, machine => do
      let ((), machine) ← Prog.run (deviceHandler host cpu) (pteditSetMts mts) machine
      runCalls host rest machine

/-- The value that the last call programs, if there is one. -/
def lastProgrammed (calls : Calls) : Option Word := calls.getLast?.map Prod.snd

theorem runCalls_eq (host : WindowsHost) (calls : Calls) (machine : Machine) :
    runCalls host calls machine = some machine := by
  induction calls with
  | nil => rfl
  | cons call rest ih =>
      obtain ⟨cpu, mts⟩ := call
      rw [runCalls, run_pteditSetMts]
      exact ih

/-- After the calls `ptedit_get_mts` returns, on CPU `cpu`, the value that was programmed
last, or else the initial one. -/
def ReadsProgrammed (host : WindowsHost) (machine : Machine) (initial : Word) (calls : Calls)
    (cpu : Nat) : Prop :=
  ∃ machine', runCalls host calls machine = some machine' ∧
    Prog.run (deviceHandler host cpu) pteditGetMts machine' =
      some ((lastProgrammed calls).getD initial, machine')

/-- **Programmed memory types on Windows.**  They are read back exactly when nothing was
programmed or the last value is the one the register had from the start. -/
theorem programmedMts_iff {host : WindowsHost} {machine : Machine} {initial : Word}
    (register : ∀ cpu, machine.ia32Pat cpu = initial) (calls : Calls) (cpu : Nat) :
    ReadsProgrammed host machine initial calls cpu ↔
      calls = [] ∨ lastProgrammed calls = some initial := by
  have reads := run_pteditGetMts host cpu machine
  rw [register cpu] at reads
  have returned : ReadsProgrammed host machine initial calls cpu ↔
      initial = (lastProgrammed calls).getD initial := by
    constructor
    · rintro ⟨machine', ran, last⟩
      rw [runCalls_eq] at ran
      obtain rfl := Option.some.inj ran
      exact (Prod.mk.inj (Option.some.inj (reads.symm.trans last))).1
    · intro same
      refine ⟨machine, runCalls_eq host calls machine, ?_⟩
      rw [← same]
      exact reads
  rw [returned]
  cases calls with
  | nil => exact iff_of_true rfl (.inl rfl)
  | cons call rest =>
      obtain ⟨last, found⟩ : ∃ last, lastProgrammed (call :: rest) = some last :=
        ⟨_, congrArg (Option.map Prod.snd) (List.getLast?_eq_some_getLast (List.cons_ne_nil _ _))⟩
      rw [found, Option.getD_some]
      constructor
      · intro same
        exact .inr (congrArg some same.symm)
      · rintro (empty | same)
        · exact absurd empty (List.cons_ne_nil _ _)
        · exact (Option.some.inj same).symm

/-- Write combining for entry 1, and then what the register had from the start. -/
theorem programmedMts_iff_sample :
    ReadsProgrammed sampleHost sampleMachine 0x0007040600070406
      [(0, 0x0007040600070106), (1, 0x0007040600070406)] 0 :=
  (programmedMts_iff (fun _ => rfl) _ 0).mpr (.inr rfl)

/-- Write combining, programmed for entry 1, is not read back. -/
theorem programmedMts_lost :
    ¬ ReadsProgrammed sampleHost sampleMachine 0x0007040600070406 [(0, 0x0007040600070106)] 0 := by
  rintro ⟨machine', ran, last⟩
  rw [runCalls_eq] at ran
  obtain rfl := Option.some.inj ran
  have same := (Prod.mk.inj (Option.some.inj
    ((run_pteditGetMts sampleHost 0 sampleMachine).symm.trans last))).1
  exact absurd same (by decide)

end Windows

end PTEditor
