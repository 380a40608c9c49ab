import PTEditor.WindowsBuffer

/-!
# The effect of a request

Which requests of the Windows driver do no more than their control code says.  The case
of `SET_CR3` has no `break` and goes on to flush the TLB of every CPU, and no case gives
back the reference that a lookup of a process takes: `ownEffect_iff`.
-/

namespace PTEditor

namespace Windows

/-- The call belongs to the operation of the code, if only one operation makes it. -/
def DriverOp.BelongsTo (code : BitVec 32) : DriverOp → Prop
  | .keIpiGenericCall .invalidateTlb _ => code = pteditorFlushTlb
  | .keIpiGenericCall .setPat _ => code = pteditorSetPat
  | .writecr3 _ => code = pteditorSetCr3
  | .copyToVirtual _ _ | .storeVirtual _ _ =>
      code = pteditorWritePage ∨ code = pteditorWritePhysVal
  | _ => True

/-- A request of the code performs its own operation only, and every process object has
as many references afterwards as before. -/
structure OwnEffect (host : WindowsHost) (cpu : Nat) (code : BitVec 32) (s : RequestState) :
    Prop where
  calls : ∀ op ∈ (dispatchDeviceCtl code).trace (driverHandler host cpu) s, op.BelongsTo code
  references : ∃ io s', Prog.run (driverHandler host cpu) (dispatchDeviceCtl code) s =
    some (io, s') ∧ s'.machine.references = s.machine.references

section Requests

variable {host : WindowsHost} {cpu : Nat} {s : RequestState} {code : BitVec 32}

theorem ownEffect_of_serves {ops : List DriverOp} {io : IoStatus} {references : Process → Nat}
    (served : Serves host cpu code s ops io references) :
    OwnEffect host cpu code s ↔
      (∀ op ∈ ops, op.BelongsTo code) ∧ references = s.machine.references := by
  obtain ⟨s', made, rfl⟩ := served
  constructor
  · intro ⟨calls, io', s'', done, kept⟩
    obtain ⟨-, rfl⟩ := Prod.mk.inj (Option.some.inj (made.run.symm.trans done))
    exact ⟨made.trace ▸ calls, kept⟩
  · intro ⟨calls, kept⟩
    exact ⟨made.trace.symm ▸ calls, io, s', made.run, kept⟩

/-- A found process keeps the reference that the lookup took. -/
theorem referenced_ne (references : Process → Nat) (process : Process) :
    referenced references process ≠ references := by
  intro same
  have count := congrFun same process
  rw [referenced, if_pos rfl] at count
  omega

/-- `SET_CR3` flushes the TLB of every CPU, with a live process and without. -/
theorem not_ownEffect_setCr3 (host : WindowsHost) (cpu : Nat) (s : RequestState) :
    ¬ OwnEffect host cpu pteditorSetCr3 s := by
  have flush : ¬ (DriverOp.keIpiGenericCall .invalidateTlb (s.buffer.read 0)).BelongsTo
      pteditorSetCr3 := by
    change ¬ pteditorSetCr3 = pteditorFlushTlb
    decide
  intro own
  cases found : host.processById (s.buffer.read 0) with
  | none =>
      have calls := ((ownEffect_of_serves (serves_setCr3_of_none host cpu s found)).mp own).1
      exact flush (calls _ (by simp))
  | some process =>
      have calls := ((ownEffect_of_serves (serves_setCr3_of_live host cpu s found)).mp own).1
      exact flush (calls _ (by simp))

/-- `GET_CR3` keeps a reference on the process that it finds. -/
theorem ownEffect_getCr3_iff (host : WindowsHost) (cpu : Nat) (s : RequestState) :
    OwnEffect host cpu pteditorGetCr3 s ↔ host.processById (s.buffer.read 0) = none := by
  cases found : host.processById (s.buffer.read 0) with
  | none =>
      rw [ownEffect_of_serves (serves_getCr3_of_none host cpu s found)]
      simp [DriverOp.BelongsTo]
  | some process =>
      rw [ownEffect_of_serves (serves_getCr3_of_live host cpu s found)]
      simp [referenced_ne]

end Requests

/-- **Only its own effect.**  A request has it unless it is `SET_CR3`, or `GET_CR3` of a
process that exists. -/
theorem ownEffect_iff (host : WindowsHost) (cpu : Nat) (code : BitVec 32) (s : RequestState) :
    OwnEffect host cpu code s ↔ code ≠ pteditorSetCr3 ∧
      (code = pteditorGetCr3 → host.processById (s.buffer.read 0) = none) := by
  -- a case that takes no reference has the effect when its calls belong to it
  have quiet : ∀ {known ops io}, Serves host cpu known s ops io s.machine.references →
      (∀ op ∈ ops, op.BelongsTo known) → known ≠ pteditorSetCr3 → known ≠ pteditorGetCr3 →
      (OwnEffect host cpu known s ↔ known ≠ pteditorSetCr3 ∧
        (known = pteditorGetCr3 → host.processById (s.buffer.read 0) = none)) := by
    intro known ops io served own noSet noGet
    exact iff_of_true ((ownEffect_of_serves served).mpr ⟨own, rfl⟩)
      ⟨noSet, fun get => absurd get noGet⟩
  rcases code_cases code with rfl | rfl | rfl | rfl | rfl | rfl | rfl | rfl | rfl | unknown
  · refine quiet (serves_writePage host cpu s) ?_ (by decide) (by decide)
    split <;> simp [DriverOp.BelongsTo]
  · exact quiet (serves_readPage host cpu s) (by simp [DriverOp.BelongsTo]) (by decide) (by decide)
  · rw [ownEffect_getCr3_iff]
    exact ⟨fun none => ⟨by decide, fun _ => none⟩, fun quiet => quiet.2 rfl⟩
  · exact iff_of_false (not_ownEffect_setCr3 host cpu s) fun quiet => quiet.1 rfl
  · exact quiet (serves_flushTlb host cpu s) (by simp [DriverOp.BelongsTo]) (by decide) (by decide)
  · exact quiet (serves_readPhysVal host cpu s) (by simp [DriverOp.BelongsTo]) (by decide)
      (by decide)
  · refine quiet (serves_writePhysVal host cpu s) ?_ (by decide) (by decide)
    split <;> simp [DriverOp.BelongsTo]
  · exact quiet (serves_getPat host cpu s) (by simp [DriverOp.BelongsTo]) (by decide) (by decide)
  · exact quiet (serves_setPat host cpu s) (by simp [DriverOp.BelongsTo]) (by decide) (by decide)
  · exact quiet (serves_of_unknown unknown) (by simp) (ne_of_unknown unknown rfl)
      (ne_of_unknown unknown rfl)

/-- A machine on which every pid is that of process 1. -/
def busyHost : WindowsHost := { sampleHost with processById := fun _ => some 1 }

/-- Requests that fit their buffers, but flush the TLB or keep a reference. -/
theorem cr3Requests_leak :
    Request.WellSized busyHost sampleState.buffer
      { ioControlCode := pteditorSetCr3, inputBufferLength := 16, outputBufferLength := 0 } ∧
    ¬ OwnEffect busyHost 0 pteditorSetCr3 sampleState ∧
    Request.WellSized busyHost sampleState.buffer
      { ioControlCode := pteditorGetCr3, inputBufferLength := 8, outputBufferLength := 8 } ∧
    ¬ OwnEffect busyHost 0 pteditorGetCr3 sampleState := by
  refine ⟨⟨Nat.le_refl 16, Nat.le_refl 0⟩, not_ownEffect_setCr3 _ _ _,
    ⟨Nat.le_refl 8, Nat.le_refl 8⟩, ?_⟩
  rw [ownEffect_getCr3_iff]
  exact Option.some_ne_none 1

end Windows

end PTEditor
