import PTEditor.Library.MemoryType
import PTEditor.Library.UserSpec

/-!
# The way of the PAT register

`SET_PAT` splits its value into two `int`s and `GET_PAT` widens two `int`s back to 64
bits, so that a set bit 31 would fill the upper half.  The hardware accepts only bytes
up to 7, and then nothing is lost: `patTransport_lossless`.
-/

namespace PTEditor

open Bits

/-- A value that the hardware accepts: eight memory types. -/
def PatTypes (mts : Word) : Prop := ∀ i < 8, (byte i mts).toNat ≤ 7

/-- The calls of `ptedit_set_mts` with these values, in order. -/
def pteditSetMtsAll (lib : Lib) : List Word → Sys Unit
  | [] => pure ()
  | mts :: rest => do
      pteditSetMts lib mts
      pteditSetMtsAll lib rest

section Runs

variable {sys : System} {lib : Lib} {w : World}

/-- A sequence of calls leaves the last value, or the register as it was. -/
theorem run_pteditSetMtsAll (attached : Attached sys lib w) (calls : List Word) :
    Prog.run (sysHandler sys) (pteditSetMtsAll lib calls) w =
      some ((), w.withMts (calls.getLast?.getD w.kernel.memoryTypes)) := by
  induction calls generalizing w with
  | nil => rfl
  | cons mts rest ih =>
      have last : (mts :: rest).getLast?.getD w.kernel.memoryTypes = rest.getLast?.getD mts := by
        rw [List.getLast?_cons]
        rfl
      rw [pteditSetMtsAll, Prog.run_bind_of_some (run_pteditSetMts attached mts),
        ih (attached.withMts mts), last]
      rfl

/-- What was programmed last is read back. -/
theorem run_pteditGetMts_after (attached : Attached sys lib w) {calls : List Word} {last : Word}
    (programmed : calls.getLast? = some last) (types : PatTypes last) :
    Prog.run (sysHandler sys) (do
        pteditSetMtsAll lib calls
        pteditGetMts lib) w = some (last, w.withMts last) := by
  have whole : sys.mts (w.withMts last).kernel = last :=
    System.mts_eq fun _ => getLsbD_31_of_types types
  rw [Prog.run_bind_of_some (run_pteditSetMtsAll attached calls), programmed, Option.getD_some,
    run_pteditGetMts (attached.withMts last), whole]

end Runs

/-- **Lossless transport.**  A value of eight memory types reaches the register and comes
back as it is, and after any calls of `ptedit_set_mts` with such values
`ptedit_get_mts` returns the last one. -/
theorem patTransport_lossless {sys : System} {lib : Lib} {w : World}
    (attached : Attached sys lib w) :
    (∀ mts, PatTypes mts → ∀ s, ∃ s',
      Prog.run (kernelHandler sys.host sys.copy) (deviceIoctl sys.host .setPat mts) s =
        some (0, s') ∧
      s'.kernel.memoryTypes = mts ∧
      ∀ param, Prog.run (kernelHandler sys.host sys.copy) (deviceIoctl sys.host .getPat param) s' =
        some (0, s'.reply sys.copy (fun _ => mts) 8)) ∧
    ∀ calls last, (∀ mts ∈ calls, PatTypes mts) → calls.getLast? = some last →
      Prog.run (sysHandler sys) (do
        pteditSetMtsAll lib calls
        pteditGetMts lib) w = some (last, w.withMts last) := by
  constructor
  · intro mts types s
    refine ⟨_, run_setPat mts s, rfl, fun _ => ?_⟩
    have whole : sys.mts { s.kernel with memoryTypes := mts } = mts :=
      System.mts_eq fun _ => getLsbD_31_of_types types
    rw [deviceIoctl, run_getPat, whole]
  · intro calls last types programmed
    exact run_pteditGetMts_after attached programmed
      (types last (List.mem_of_getLast? programmed))

/-- Write combining for entry 1, and then uncached for entry 7. -/
theorem patTransport_lossless_sample :
    Prog.run (sysHandler sampleSystem) (do
        pteditSetMtsAll sampleLib [0x0007040600070106, 0x0307040600070106]
        pteditGetMts sampleLib) sampleWorld =
      some (0x0307040600070106, sampleWorld.withMts 0x0307040600070106) := by
  have first : PatTypes 0x0007040600070106 := by
    unfold PatTypes
    decide
  have second : PatTypes 0x0307040600070106 := by
    unfold PatTypes
    decide
  refine (patTransport_lossless sample_attached).2 _ _ (fun mts member => ?_) rfl
  rw [List.mem_pair] at member
  rcases member with rfl | rfl
  · exact first
  · exact second

end PTEditor
