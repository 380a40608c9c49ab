import Mathlib.Logic.Function.Basic

/-!
# Reader/writer locks

An `RwLock` is free, shared by readers, or held by one writer, and is not recursive:
a lock that a writer holds refuses every request, whoever makes it.  Tables of locks
are functions.  `Owned` is what one caller holds of a table: it objects to a request
for a lock that the caller holds already, and to a release of what it does not hold.

`TakenFrom` relates the two, and `TakenFrom.eq_of_none` is the balance rule: a caller
that ends owning nothing, as it started, leaves every lock as it found it.
-/

inductive LockMode where
  | read
  | write
  deriving DecidableEq, Repr

/-- A lock; `shared n` has `n + 1` readers. -/
inductive RwLock where
  | free
  | shared (others : Nat)
  | exclusive
  deriving DecidableEq, Repr

/-- A request for a lock, or its release. -/
inductive LockEvent (ι : Type) where
  | acquire (mode : LockMode) (i : ι)
  | release (mode : LockMode) (i : ι)

namespace RwLock

/-- The lock after a request; a request that has to wait is `none`. -/
def acquire : LockMode → RwLock → Option RwLock
  | .read, .free => some (.shared 0)
  | .read, .shared others => some (.shared (others + 1))
  | .write, .free => some .exclusive
  | _, _ => none

/-- The lock after a release; a release in a mode that nobody holds is `none`. -/
def release : LockMode → RwLock → Option RwLock
  | .read, .shared 0 => some .free
  | .read, .shared (others + 1) => some (.shared others)
  | .write, .exclusive => some .free
  | _, _ => none

theorem acquire_exclusive (mode : LockMode) : acquire mode .exclusive = none := by
  cases mode <;> rfl

/-- A release undoes the request. -/
theorem release_of_acquire {mode : LockMode} {lock lock' : RwLock}
    (acquired : acquire mode lock = some lock') : release mode lock' = some lock := by
  cases mode <;> cases lock <;> cases acquired <;> rfl

end RwLock

section Tables

variable {ι : Type}

/-- What one caller holds of a table of locks. -/
abbrev Owned (ι : Type) : Type := ι → Option LockMode

/-- A table is what another becomes when a caller takes the locks it owns. -/
def TakenFrom (start : ι → RwLock) (owned : Owned ι) (locks : ι → RwLock) : Prop :=
  ∀ i, match owned i with
    | none => locks i = start i
    | some mode => (start i).acquire mode = some (locks i)

theorem takenFrom_none (start : ι → RwLock) : TakenFrom start (fun _ => none) start :=
  fun _ => rfl

/-- **Balance.**  A caller that owns nothing has changed nothing. -/
theorem TakenFrom.eq_of_none {start locks : ι → RwLock}
    (taken : TakenFrom start (fun _ => none) locks) : locks = start :=
  funext taken

variable [DecidableEq ι]

/-- The effect of an event on a table of locks. -/
def LockEvent.onTable : LockEvent ι → (ι → RwLock) → Option (ι → RwLock)
  | .acquire mode i, locks => ((locks i).acquire mode).map (Function.update locks i)
  | .release mode i, locks => ((locks i).release mode).map (Function.update locks i)

/-- The effect of an event on what its caller holds. -/
def LockEvent.onOwned : LockEvent ι → Owned ι → Option (Owned ι)
  | .acquire mode i, owned =>
      if owned i = none then some (Function.update owned i (some mode)) else none
  | .release mode i, owned =>
      if owned i = some mode then some (Function.update owned i none) else none

/-- One event keeps the table and what the caller owns of it together. -/
theorem TakenFrom.event {start locks locks' : ι → RwLock} {owned owned' : Owned ι}
    {event : LockEvent ι} (taken : TakenFrom start owned locks)
    (table : event.onTable locks = some locks') (own : event.onOwned owned = some owned') :
    TakenFrom start owned' locks' := by
  cases event with
  | acquire mode i =>
      obtain ⟨lock, acquired, rfl⟩ := Option.map_eq_some_iff.mp table
      obtain ⟨absent, same⟩ := Option.ite_none_right_eq_some.mp own
      obtain rfl := Option.some.inj same
      have before := taken i
      rw [absent] at before
      intro j
      rcases eq_or_ne j i with rfl | ne
      · rw [Function.update_self, Function.update_self]
        exact before ▸ acquired
      · rw [Function.update_of_ne ne, Function.update_of_ne ne]
        exact taken j
  | release mode i =>
      obtain ⟨lock, released, rfl⟩ := Option.map_eq_some_iff.mp table
      obtain ⟨held, same⟩ := Option.ite_none_right_eq_some.mp own
      obtain rfl := Option.some.inj same
      have before := taken i
      rw [held] at before
      have undone := RwLock.release_of_acquire before
      intro j
      rcases eq_or_ne j i with rfl | ne
      · rw [Function.update_self, Function.update_self]
        exact Option.some.inj (released.symm.trans undone)
      · rw [Function.update_of_ne ne, Function.update_of_ne ne]
        exact taken j

end Tables
