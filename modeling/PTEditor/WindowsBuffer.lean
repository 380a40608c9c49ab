import PTEditor.Driver.Requests

/-!
# The buffer of a request

`DispatchDeviceCtl` reads and writes the system buffer without looking at the lengths
of the request.  `insideBuffer_iff` says which lengths keep it inside the buffer.
-/

namespace PTEditor

namespace Windows

/-- A buffered request, whose system buffer holds the longer of its two lengths. -/
structure Request where
  ioControlCode : BitVec 32
  inputBufferLength : Nat
  outputBufferLength : Nat

/-- The call takes this byte of the system buffer as input. -/
def DriverOp.Reads (offset : Nat) : DriverOp → Prop
  | .loadBuffer start => start ≤ offset ∧ offset < start + 8
  | .copyToVirtual _ count => offset < count
  | _ => False

/-- The call writes this byte of the system buffer. -/
def DriverOp.Writes (offset : Nat) : DriverOp → Prop
  | .storeBuffer start _ => start ≤ offset ∧ offset < start + 8
  | .copyFromPhysical _ count => offset < count
  | _ => False

/-- The call keeps to the system buffer and takes only input as input. -/
structure DriverOp.InBounds (request : Request) (op : DriverOp) : Prop where
  accesses : ∀ offset, op.Reads offset ∨ op.Writes offset →
    offset < max request.inputBufferLength request.outputBufferLength
  input : ∀ offset, op.Reads offset → offset < request.inputBufferLength

/-- A request is served inside its buffer, and reports no more output than was asked for. -/
structure InsideBuffer (host : WindowsHost) (cpu : Nat) (request : Request) (s : RequestState) :
    Prop where
  calls : ∀ op ∈ (dispatchDeviceCtl request.ioControlCode).trace (driverHandler host cpu) s,
    op.InBounds request
  information : ∃ io s', Prog.run (driverHandler host cpu)
    (dispatchDeviceCtl request.ioControlCode) s = some (io, s') ∧
    io.information ≤ request.outputBufferLength

/-! ## What a code needs -/

/-- The bytes of input and of output that a code uses, whatever the request provides.
`SET_CR3` reads its second word only when it finds the process. -/
def needed (host : WindowsHost) (buffer : ByteMem) (code : BitVec 32) : Nat × Nat :=
  if code = pteditorWritePage then (pageContentSize + 8, 0)
  else if code = pteditorReadPage then (8, 4096)
  else if code = pteditorGetCr3 then (8, 8)
  else if code = pteditorSetCr3 then
    (if (host.processById (buffer.read 0)).isSome then 16 else 8, 0)
  else if code = pteditorFlushTlb then (8, 0)
  else if code = pteditorReadPhysVal then (8, 8)
  else if code = pteditorWritePhysVal then (16, 0)
  else if code = pteditorGetPat then (0, 8)
  else if code = pteditorSetPat then (8, 0)
  else (0, 0)

/-- The request provides what its code uses. -/
def Request.WellSized (host : WindowsHost) (buffer : ByteMem) (request : Request) : Prop :=
  (needed host buffer request.ioControlCode).1 ≤ request.inputBufferLength ∧
    (needed host buffer request.ioControlCode).2 ≤ request.outputBufferLength

theorem needed_of_unknown {host : WindowsHost} {buffer : ByteMem} {code : BitVec 32}
    (unknown : DispatchDeviceCtl.case code = none) : needed host buffer code = (0, 0) := by
  have other : ∀ known body, DispatchDeviceCtl.case known = some body → code ≠ known :=
    fun _ _ served => ne_of_unknown unknown served
  rw [needed, if_neg (other _ _ rfl), if_neg (other _ _ rfl), if_neg (other _ _ rfl),
    if_neg (other _ _ rfl), if_neg (other _ _ rfl), if_neg (other _ _ rfl),
    if_neg (other _ _ rfl), if_neg (other _ _ rfl), if_neg (other _ _ rfl)]

/-- How far into the buffer the input of a call reaches. -/
def DriverOp.inputEnd : DriverOp → Nat
  | .loadBuffer start => start + 8
  | .copyToVirtual _ count => count
  | _ => 0

/-- How far into the buffer a call writes. -/
def DriverOp.outputEnd : DriverOp → Nat
  | .storeBuffer start _ => start + 8
  | .copyFromPhysical _ count => count
  | _ => 0

namespace DriverOp

variable {op : DriverOp}

theorem Reads.lt_inputEnd {offset : Nat} (reads : op.Reads offset) : offset < op.inputEnd := by
  cases op with
  | loadBuffer start => exact reads.2
  | copyToVirtual target count => exact reads
  | _ => exact reads.elim

theorem reads_last (input : 0 < op.inputEnd) : op.Reads (op.inputEnd - 1) := by
  cases op with
  | loadBuffer start => exact ⟨Nat.le_add_right start 7, Nat.lt_succ_self (start + 7)⟩
  | copyToVirtual target count => exact Nat.sub_one_lt_of_lt input
  | _ => exact absurd input (Nat.lt_irrefl 0)

theorem Writes.lt_outputEnd {offset : Nat} (writes : op.Writes offset) :
    offset < op.outputEnd := by
  cases op with
  | storeBuffer start value => exact writes.2
  | copyFromPhysical source count => exact writes
  | _ => exact writes.elim

theorem writes_last (output : 0 < op.outputEnd) : op.Writes (op.outputEnd - 1) := by
  cases op with
  | storeBuffer start value => exact ⟨Nat.le_add_right start 7, Nat.lt_succ_self (start + 7)⟩
  | copyFromPhysical source count => exact Nat.sub_one_lt_of_lt output
  | _ => exact absurd output (Nat.lt_irrefl 0)

/-- The last bytes that a call touches decide whether it keeps to the buffer. -/
theorem inBounds_iff (op : DriverOp) (request : Request) :
    op.InBounds request ↔ op.inputEnd ≤ request.inputBufferLength ∧
      op.outputEnd ≤ max request.inputBufferLength request.outputBufferLength := by
  constructor
  · intro inside
    constructor
    · by_contra! beyond
      have last := inside.input _ (reads_last (by omega))
      omega
    · by_contra! beyond
      have last := inside.accesses _ (.inr (writes_last (by omega)))
      omega
  · intro ⟨input, output⟩
    constructor
    · rintro offset (reads | writes)
      · have read := reads.lt_inputEnd
        omega
      · have written := writes.lt_outputEnd
        omega
    · intro offset reads
      have read := reads.lt_inputEnd
      omega

end DriverOp

/-- The furthest that one of the calls reaches. -/
def furthest (reach : DriverOp → Nat) (ops : List DriverOp) : Nat :=
  ops.foldr (fun op rest => max (reach op) rest) 0

theorem furthest_le_iff (reach : DriverOp → Nat) (ops : List DriverOp) (bound : Nat) :
    furthest reach ops ≤ bound ↔ ∀ op ∈ ops, reach op ≤ bound := by
  induction ops with
  | nil => simp [furthest]
  | cons op rest ih =>
      rw [List.forall_mem_cons, ← ih]
      exact Nat.max_le

section Requests

variable {host : WindowsHost} {cpu : Nat} {s : RequestState} {code : BitVec 32}

/-- A code that writes no further than it reads input or reports output needs as much
input as it reads and room for what it reports. -/
theorem insideBuffer_of_serves {ops : List DriverOp} {io : IoStatus} {references : Process → Nat}
    (served : Serves host cpu code s ops io references) {inputLength outputLength : Nat}
    (covered : furthest DriverOp.outputEnd ops ≤
      max (furthest DriverOp.inputEnd ops) io.information) :
    InsideBuffer host cpu ⟨code, inputLength, outputLength⟩ s ↔
      furthest DriverOp.inputEnd ops ≤ inputLength ∧ io.information ≤ outputLength := by
  obtain ⟨s', made, -⟩ := served
  constructor
  · intro ⟨calls, io', s'', done, fits⟩
    obtain ⟨rfl, -⟩ := Prod.mk.inj (Option.some.inj (made.run.symm.trans done))
    refine ⟨(furthest_le_iff _ _ _).mpr fun op member => ?_, fits⟩
    exact ((op.inBounds_iff _).mp (calls op (made.trace.symm ▸ member))).1
  · intro ⟨input, fits⟩
    have output : furthest DriverOp.outputEnd ops ≤ max inputLength outputLength := by omega
    refine ⟨fun op member => ?_, io, s', made.run, fits⟩
    have called : op ∈ ops := made.trace ▸ member
    exact (op.inBounds_iff _).mpr ⟨(furthest_le_iff _ _ _).mp input op called,
      (furthest_le_iff _ _ _).mp output op called⟩

end Requests

/-- **Inside the buffer.**  A request stays inside its buffer exactly when its lengths are
at least what its code uses. -/
theorem insideBuffer_iff (host : WindowsHost) (cpu : Nat) (request : Request) (s : RequestState) :
    InsideBuffer host cpu request s ↔ request.WellSized host s.buffer := by
  obtain ⟨code, inputLength, outputLength⟩ := request
  unfold Request.WellSized
  rcases code_cases code with rfl | rfl | rfl | rfl | rfl | rfl | rfl | rfl | rfl | unknown
  · have served := serves_writePage host cpu s
    split at served
    · exact insideBuffer_of_serves served (Nat.zero_le _)
    · exact insideBuffer_of_serves served (Nat.zero_le _)
  · exact insideBuffer_of_serves (serves_readPage host cpu s) (Nat.le_max_right _ _)
  · cases found : host.processById (s.buffer.read 0) with
    | none =>
        exact insideBuffer_of_serves (serves_getCr3_of_none host cpu s found)
          (Nat.le_max_right _ _)
    | some process =>
        exact insideBuffer_of_serves (serves_getCr3_of_live host cpu s found)
          (Nat.le_max_right _ _)
  · change _ ↔ (if (host.processById (s.buffer.read 0)).isSome then 16 else 8) ≤ inputLength ∧ _
    cases found : host.processById (s.buffer.read 0) with
    | none => exact insideBuffer_of_serves (serves_setCr3_of_none host cpu s found) (Nat.zero_le _)
    | some process =>
        exact insideBuffer_of_serves (serves_setCr3_of_live host cpu s found) (Nat.zero_le _)
  · exact insideBuffer_of_serves (serves_flushTlb host cpu s) (Nat.zero_le _)
  · exact insideBuffer_of_serves (serves_readPhysVal host cpu s) (Nat.le_max_right _ _)
  · have served := serves_writePhysVal host cpu s
    split at served
    · exact insideBuffer_of_serves served (Nat.zero_le _)
    · exact insideBuffer_of_serves served (Nat.zero_le _)
  · exact insideBuffer_of_serves (serves_getPat host cpu s) (Nat.le_max_right _ _)
  · exact insideBuffer_of_serves (serves_setPat host cpu s) (Nat.zero_le _)
  · rw [needed_of_unknown unknown]
    exact insideBuffer_of_serves (serves_of_unknown unknown) (Nat.zero_le _)

/-- `READ_PAGE` with room for the address only. -/
def shortReadPage : Request :=
  { ioControlCode := pteditorReadPage, inputBufferLength := 8, outputBufferLength := 8 }

/-- A buffer of zeros. -/
def sampleState : RequestState := { machine := sampleMachine, buffer := fun _ => 0 }

/-- The driver copies a page over the eight bytes. -/
theorem shortReadPage_leavesBuffer : ¬ InsideBuffer sampleHost 0 shortReadPage sampleState := by
  intro inside
  have served := serves_readPage sampleHost 0 sampleState
  have room : (4096 : Nat) ≤ 8 :=
    ((insideBuffer_of_serves served (Nat.le_max_right _ _)).mp inside).2
  exact absurd room (by decide)

end Windows

end PTEditor
