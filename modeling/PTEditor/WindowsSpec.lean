import PTEditor.Library.PteSpec
import PTEditor.Translation
import PTEditor.WindowsLibrary

/-!
# The library and the driver of Windows

What each request of the library does on the machine, and from it what the calls of the library
do.  They store a word only where the kernel has a virtual address for it
(`WindowsHost.stored`), and every `GET_CR3` leaves a reference on the process that it finds
(`WindowsHost.looked`).
-/

namespace PTEditor

namespace Windows

open ByteMem

/-! ## Requests -/

section Requests

variable (host : WindowsHost) (cpu : Nat) (machine : Machine)

/-- What a request returns is the start of the buffer that the dispatcher leaves. -/
theorem deviceHandler_of_run {request : DeviceIoControl} {returnLength : Nat}
    {done : RequestState}
    (ran : Prog.run (driverHandler host cpu) (dispatchDeviceCtl request.ioControlCode)
      { machine, buffer := host.pool.writeBytes 0 request.input } =
        some (.returning returnLength, done)) :
    deviceHandler host cpu request machine =
      some (done.buffer.readBytes 0 (min returnLength request.outputLength), done.machine) := by
  rw [deviceHandler, ran]
  rfl

/-- The two words of a buffer that starts with them. -/
theorem read_buffer (first second : Word) :
    (host.pool.writeBytes 0 (bytesOfWord first ++ bytesOfWord second)).read 0 = first ∧
      (host.pool.writeBytes 0 (bytesOfWord first ++ bytesOfWord second)).read 8 = second := by
  let buffer := host.pool.writeBytes 0 (bytesOfWord first ++ bytesOfWord second)
  have back : buffer.readBytes 0 16 = bytesOfWord first ++ bytesOfWord second :=
    readBytes_writeBytes host.pool 0 (by simp)
  have split : buffer.readBytes 0 16 = buffer.readBytes 0 8 ++ buffer.readBytes 8 8 :=
    buffer.readBytes_add 0 8 8
  obtain ⟨low, high⟩ := List.append_inj (split.symm.trans back) (by simp)
  exact ⟨(congrArg wordOfBytes low).trans (wordOfBytes_bytesOfWord first),
    (congrArg wordOfBytes high).trans (wordOfBytes_bytesOfWord second)⟩

/-- The word in the buffer of a request with one word. -/
theorem buffer_word (word : Word) : (host.pool.writeBytes 0 (bytesOfWord word)).read 0 = word :=
  (buffer_read host (bytesOfWord word) rfl).trans (wordOfBytes_bytesOfWord word)

theorem overwritten_of_length {output : List (BitVec 8)} (length : output.length = 8)
    (word : Word) : overwritten word output = wordOfBytes output := by
  rw [overwritten, length]
  exact congrArg wordOfBytes (List.append_nil output)

/-- The memory after a word is stored through the kernel's mapping of a physical address, which
is not stored when there is none. -/
def WindowsHost.stored (host : WindowsHost) (mem : ByteMem) (address value : Word) : ByteMem :=
  if host.virtualForPhysical address ≠ 0 then
    mem.write (host.physicalForVirtual (host.virtualForPhysical address)) value
  else
    mem

/-- The machine after a process was looked up. -/
def WindowsHost.looked (host : WindowsHost) (machine : Machine) (pid : Word) : Machine :=
  match host.processById pid with
  | some process =>
      { machine with references := referenced machine.references process }
  | none => machine

/-- The caller runs on its own page tables. -/
def WindowsHost.OwnTables (host : WindowsHost) (machine : Machine) : Prop :=
  machine.cr3 = host.directoryBase host.caller

/-- What `GET_CR3` returns for a pid. -/
def WindowsHost.cr3 (host : WindowsHost) (pid : Word) : Word :=
  match host.processById pid with
  | some process => host.directoryBase process
  | none => 0

/-- The paging root of a process, 0 if there is none. -/
def WindowsHost.pagingRoot (host : WindowsHost) (pid : Word) : Word := host.cr3 pid &&& ~~~0xfff#64

theorem run_pteditPhysReadPread (address : Word) :
    Prog.run (deviceHandler host cpu) (pteditPhysReadPread address) machine =
      some (machine.mem.read address, machine) := by
  let buffer := host.pool.writeBytes 0 (bytesOfWord address)
  have ran : Prog.run (driverHandler host cpu) (dispatchDeviceCtl pteditorReadPhysVal)
      { machine, buffer } = some (.returning 8,
        { machine, buffer := buffer.writeBytes 0 (machine.mem.readBytes (buffer.read 0) 8) }) := rfl
  have asked : buffer.read 0 = address := buffer_word host address
  rw [asked] at ran
  have answer : deviceHandler host cpu
      { ioControlCode := pteditorReadPhysVal, input := bytesOfWord address, outputLength := 8 }
      machine = some (machine.mem.readBytes address 8, machine) := by
    rw [deviceHandler_of_run host cpu machine ran]
    exact congrArg (fun output => some (output, machine))
      (readBytes_writeBytes_eight buffer (length_readBytes _ _ _))
  refine (Prog.run_bind_of_some ((Prog.run_perform _ _).trans answer)).trans ?_
  exact congrArg (fun value => some (value, machine))
    (overwritten_of_length (length_readBytes _ _ _) 0)

theorem run_pteditPhysWritePwrite (address value : Word) :
    Prog.run (deviceHandler host cpu) (pteditPhysWritePwrite address value) machine =
      some ((), { machine with mem := host.stored machine.mem address value }) := by
  let buffer := host.pool.writeBytes 0 (bytesOfWord address ++ bytesOfWord value)
  obtain ⟨first, second⟩ : buffer.read 0 = address ∧ buffer.read 8 = value :=
    read_buffer host address value
  have wrote : Prog.run (driverHandler host cpu) DispatchDeviceCtl.writePhysVal
      { machine, buffer } = some (0,
        { machine := { machine with mem := host.stored machine.mem (buffer.read 0) (buffer.read 8) }
          buffer }) := by
    unfold WindowsHost.stored
    change Prog.run _ (if host.virtualForPhysical (buffer.read 0) ≠ 0 then
      (do DriverProg.storeVirtual (host.virtualForPhysical (buffer.read 0)) (buffer.read 8); pure 0)
      else pure 0) _ = _
    by_cases mapped : host.virtualForPhysical (buffer.read 0) ≠ 0
    · rw [if_pos mapped, if_pos mapped]
      rfl
    · rw [if_neg mapped, if_neg mapped]
      rfl
  have ran : Prog.run (driverHandler host cpu) (dispatchDeviceCtl pteditorWritePhysVal)
      { machine, buffer } = some (.returning 0, _) := Prog.run_bind_of_some wrote
  rw [first, second] at ran
  have answer := @deviceHandler_of_run host cpu machine
    { ioControlCode := pteditorWritePhysVal, input := bytesOfWord address ++ bytesOfWord value,
      outputLength := 16 } _ _ ran
  exact Prog.run_bind_of_some ((Prog.run_perform _ _).trans answer)

/-- The flush of a TLB leaves everything else as it is. -/
theorem run_pteditInvalidateTlbPid (pid address : Word) :
    Prog.run (deviceHandler host cpu) (pteditInvalidateTlbPid pid address) machine =
      some ((), machine) := rfl

variable {host machine} in
/-- While a process is attached to, its page tables are there. -/
theorem WindowsHost.OwnTables.cr3_attach (own : host.OwnTables machine) (process : Process) :
    (machine.attach host process).cr3 = host.directoryBase process := by
  unfold Machine.attach
  by_cases itself : process = host.caller
  · rw [if_pos itself, itself]
    exact own
  · rw [if_neg itself]

variable {host machine} in
/-- Detaching goes back to the page tables of the caller. -/
theorem WindowsHost.OwnTables.detach_attach (own : host.OwnTables machine) (process : Process) :
    (machine.attach host process).detach host (host.apcState process) = machine := by
  unfold Machine.attach Machine.detach WindowsHost.apcState
  by_cases itself : process = host.caller
  · rw [if_pos itself, if_pos itself]
    rfl
  · rw [if_neg itself, if_neg itself, Option.elim_some, ← own]

/-- `GET_CR3` returns the root of a process and keeps a reference on it. -/
theorem run_getCr3 (own : host.OwnTables machine) (buffer : ByteMem) :
    Prog.run (driverHandler host cpu) DispatchDeviceCtl.getCr3 { machine, buffer } =
      some (8, { machine := host.looked machine (buffer.read 0)
                 buffer := buffer.write 0 (host.cr3 (buffer.read 0)) }) := by
  unfold WindowsHost.looked WindowsHost.cr3
  cases found : host.processById (buffer.read 0) with
  | none =>
      have made : Prog.Makes (driverHandler host cpu) DispatchDeviceCtl.getCr3
          ⟨machine, buffer⟩ _ 8 _ :=
        (Prog.makes_perform rfl).bind ((makes_lookup_of_none found).bind ⟨rfl, rfl⟩)
      exact made.run
  | some process =>
      let start : Machine :=
        { machine with references := referenced machine.references process }
      have here : host.OwnTables start := own
      have made : Prog.Makes (driverHandler host cpu) DispatchDeviceCtl.getCr3
          ⟨machine, buffer⟩ _ 8 _ :=
        (Prog.makes_perform rfl).bind ((makes_lookup found).bind ⟨rfl, rfl⟩)
      rw [made.run]
      change some (8, RequestState.mk
        ((start.attach host process).detach host (host.apcState process))
        (buffer.write 0 (start.attach host process).cr3)) = _
      rw [here.detach_attach, here.cr3_attach]

theorem run_pteditGetPagingRoot (own : host.OwnTables machine) (lib : Lib) (pid : Word) :
    Prog.run (deviceHandler host cpu) (pteditGetPagingRoot lib pid) machine =
      some (host.pagingRoot (lib.named pid), host.looked machine (lib.named pid)) := by
  let buffer := host.pool.writeBytes 0 (bytesOfWord (lib.named pid))
  have asked : buffer.read 0 = lib.named pid := buffer_word host (lib.named pid)
  have found := run_getCr3 host cpu machine own buffer
  rw [asked] at found
  have ran : Prog.run (driverHandler host cpu) (dispatchDeviceCtl pteditorGetCr3)
      { machine, buffer } = some (.returning 8, _) := Prog.run_bind_of_some found
  have answer := @deviceHandler_of_run host cpu machine
    { ioControlCode := pteditorGetCr3, input := bytesOfWord (lib.named pid), outputLength := 8 }
    _ _ ran
  have whole : (buffer.write 0 (host.cr3 (lib.named pid))).readBytes 0 8 =
      bytesOfWord (host.cr3 (lib.named pid)) := readBytes_writeBytes_eight buffer rfl
  rw [show min 8 8 = 8 from rfl, whole] at answer
  refine (Prog.run_bind_of_some ((Prog.run_perform _ _).trans answer)).trans ?_
  have word : overwritten 0 (bytesOfWord (host.cr3 (lib.named pid))) =
      host.cr3 (lib.named pid) := wordOfBytes_bytesOfWord _
  exact congrArg (fun cr3 => some (cr3 &&& ~~~0xfff#64, host.looked machine (lib.named pid))) word

end Requests

/-! ## Calls -/

section Calls

variable {host : WindowsHost} {cpu : Nat} {machine : Machine} {lib : Lib}

/-- The library after `ptedit_init`. -/
def WindowsHost.library (host : WindowsHost) (currentProcessId : Word) : Lib where
  pagingRoot := host.pagingRoot currentProcessId
  pagingDefinition := .x86_64
  currentProcessId

theorem run_pteditUseImplementation (own : host.OwnTables machine) :
    Prog.run (deviceHandler host cpu) (pteditUseImplementation lib pteditImplUserPread) machine =
      some ({ lib with pagingRoot := host.pagingRoot lib.currentProcessId },
        host.looked machine lib.currentProcessId) := by
  have root := run_pteditGetPagingRoot host cpu machine own lib 0
  have current : lib.named 0 = lib.currentProcessId := if_pos rfl
  rw [current] at root
  rw [pteditUseImplementation, if_pos rfl, Prog.run_bind_of_some root]
  rfl

theorem run_pteditInit (own : host.OwnTables machine) (currentProcessId : Word) :
    Prog.run (deviceHandler host cpu) (pteditInit currentProcessId) machine =
      some (host.library currentProcessId, host.looked machine currentProcessId) :=
  Prog.run_bind_of_some (run_pteditUseImplementation own)

/-- The library's paging root is that of the calling process. -/
structure Ready (host : WindowsHost) (lib : Lib) : Prop where
  root : lib.pagingRoot = host.pagingRoot lib.currentProcessId
  definition : lib.pagingDefinition = .x86_64

theorem ready_library (currentProcessId : Word) : Ready host (host.library currentProcessId) :=
  ⟨rfl, rfl⟩

/-- The pids that one walk looks up: that of another process, if it names one. -/
def lookups (pid : Word) : List Word := if pid = 0 then [] else [pid]

/-- The machine after some lookups. -/
def WindowsHost.afterLookups (host : WindowsHost) (machine : Machine) (pids : List Word) :
    Machine :=
  pids.foldl host.looked machine

theorem afterLookups_append (first second : List Word) :
    host.afterLookups machine (first ++ second) =
      host.afterLookups (host.afterLookups machine first) second := List.foldl_append

theorem looked_withMem (mem : ByteMem) (pid : Word) :
    host.looked { machine with mem } pid = { host.looked machine pid with mem } := by
  unfold WindowsHost.looked
  cases host.processById pid <;> rfl

theorem mem_looked (pid : Word) : (host.looked machine pid).mem = machine.mem := by
  unfold WindowsHost.looked
  cases host.processById pid <;> rfl

/-- A lookup does not touch memory. -/
theorem afterLookups_withMem (mem : ByteMem) (pids : List Word) :
    host.afterLookups { machine with mem } pids = { host.afterLookups machine pids with mem } := by
  induction pids generalizing machine with
  | nil => rfl
  | cons pid rest ih =>
      have first : host.looked { machine with mem } pid = _ := looked_withMem mem pid
      change host.afterLookups (host.looked { machine with mem } pid) rest = _
      rw [first]
      exact ih

theorem mem_afterLookups (pids : List Word) :
    (host.afterLookups machine pids).mem = machine.mem := by
  induction pids generalizing machine with
  | nil => rfl
  | cons pid rest ih => exact (@ih (host.looked machine pid)).trans (mem_looked pid)

theorem ia32Pat_afterLookups (pids : List Word) :
    (host.afterLookups machine pids).ia32Pat = machine.ia32Pat := by
  induction pids generalizing machine with
  | nil => rfl
  | cons pid rest ih =>
      refine (@ih (host.looked machine pid)).trans ?_
      unfold WindowsHost.looked
      cases host.processById pid <;> rfl

/-- A lookup leaves the caller on its own tables. -/
theorem WindowsHost.OwnTables.afterLookups (own : host.OwnTables machine) (pids : List Word) :
    host.OwnTables (host.afterLookups machine pids) := by
  induction pids generalizing machine with
  | nil => exact own
  | cons pid rest ih =>
      refine ih (?_ : host.OwnTables (host.looked machine pid))
      unfold WindowsHost.looked
      cases host.processById pid <;> exact own

/-- Every lookup of a process leaves a reference on it. -/
theorem references_afterLookups (pids : List Word) (process : Process) :
    (host.afterLookups machine pids).references process = machine.references process +
      pids.countP fun pid => decide (host.processById pid = some process) := by
  induction pids generalizing machine with
  | nil => rfl
  | cons pid rest ih =>
      have tail := @ih (host.looked machine pid)
      have head : (host.looked machine pid).references process = machine.references process +
          if host.processById pid = some process then 1 else 0 := by
        unfold WindowsHost.looked
        cases host.processById pid with
        | none => simp
        | some found =>
            simp only [referenced, Option.some.injEq]
            by_cases same : process = found
            · rw [if_pos same, if_pos same.symm]
            · rw [if_neg same, if_neg (Ne.symm same), Nat.add_zero]
      rw [List.countP_cons]
      simp only [decide_eq_true_eq]
      change (host.afterLookups (host.looked machine pid) rest).references process = _
      rw [tail, head]
      omega

/-- The walk for a page, a pid with an address. -/
def WindowsHost.walk (host : WindowsHost) (lib : Lib) (mem : ByteMem) (page : Word × Word) :
    Walk where
  arch := .x86_64
  definition := lib.pagingDefinition
  root := host.pagingRoot (lib.named page.1)
  addr := page.2
  read := mem.read

theorem pagingRoot_and_not_one (pid : Word) :
    host.pagingRoot pid &&& ~~~1#64 = host.pagingRoot pid := by
  unfold WindowsHost.pagingRoot
  rw [BitVec.and_assoc]
  exact congrArg (host.cr3 pid &&& ·) (by decide)

theorem run_pteditUserRoot (own : host.OwnTables machine) (ready : Ready host lib) (pid : Word) :
    Prog.run (deviceHandler host cpu) (pteditUserRoot lib pid) machine =
      some (host.pagingRoot (lib.named pid), host.afterLookups machine (lookups pid)) := by
  have masked := @pagingRoot_and_not_one host (lib.named pid)
  unfold pteditUserRoot lookups
  unfold Lib.named at masked ⊢
  by_cases current : pid = 0
  · rw [if_pos current] at masked ⊢
    rw [if_pos current, if_pos current, ready.root]
    exact congrArg (fun root => some (root, machine)) masked
  · rw [if_neg current] at masked ⊢
    have root := run_pteditGetPagingRoot host cpu machine own lib pid
    unfold Lib.named at root
    rw [if_neg current] at root
    rw [if_neg current, if_neg current, Prog.run_bind_of_some root]
    exact congrArg (fun root => some (root, host.looked machine pid)) masked

/-- The walker reads the tables and looks up the process once. -/
theorem run_pteditResolveUser (own : host.OwnTables machine) (ready : Ready host lib)
    (page : Word × Word) :
    Prog.run (deviceHandler host cpu) (pteditResolveUser lib page.2 page.1) machine =
      some ((host.walk lib machine.mem page).resolved page.1,
        host.afterLookups machine (lookups page.1)) := by
  have reads : ∀ a, Prog.run (deviceHandler host cpu) (pteditPhysReadPread a)
      (host.afterLookups machine (lookups page.1)) =
        some (machine.mem.read a, host.afterLookups machine (lookups page.1)) := by
    intro a
    rw [run_pteditPhysReadPread, mem_afterLookups]
  have walked := (host.walk lib machine.mem page).eval_pteditWalk 0
  unfold pteditResolveUser pteditResolveUserExt
  rw [Prog.run_bind_of_some (run_pteditUserRoot own ready page.1),
    Prog.run_bind_of_some (Prog.run_translate_of_total fun a _ => reads a)]
  exact congrArg (fun entry : PteditEntry => some ({ entry with pid := page.1 },
    host.afterLookups machine (lookups page.1))) walked

/-! ### Editing -/

/-- What a store of the library does to memory. -/
abbrev WindowsHost.put (host : WindowsHost) (mem : ByteMem) (store : Word × Word) : ByteMem :=
  host.stored mem store.1 store.2

/-- One store of the updater, after others. -/
theorem run_pteditUpdateLevel {mem : ByteMem} {page : Word × Word} {vm current : PteditEntry}
    {level : Level} (done : List (Word × Word)) :
    Prog.run (deviceHandler host cpu)
        (pteditUpdateLevel lib pteditPhysWritePwrite (host.pagingRoot (lib.named page.1)) page.2 vm
          current level)
        { machine with mem := done.foldl host.put mem } =
      some ((), { machine with
        mem := (done ++ levelUpdate (host.walk lib mem page) vm current level).foldl
          host.put mem }) := by
  unfold pteditUpdateLevel levelUpdate
  by_cases selected : Selected lib.pagingDefinition vm current level
  · have here : Selected (host.walk lib mem page).definition vm current level := selected
    rw [if_pos selected, if_pos here, run_pteditPhysWritePwrite, List.foldl_append]
    rfl
  · have nowhere : ¬ Selected (host.walk lib mem page).definition vm current level := selected
    rw [if_neg selected, if_neg nowhere, List.append_nil]
    rfl

/-- The updater walks afresh and makes its stores; it looks up the process twice. -/
theorem run_pteditUpdateUserExt (own : host.OwnTables machine) (ready : Ready host lib)
    {page : Word × Word} {vm : PteditEntry}
    (root : host.pagingRoot (lib.named page.1) ≠ 0) :
    Prog.run (deviceHandler host cpu)
        (pteditUpdateUserExt lib page.2 page.1 vm pteditPhysWritePwrite) machine =
      some ((), { host.afterLookups machine (lookups page.1 ++ lookups page.1) with
        mem := ((host.walk lib machine.mem page).stores vm).foldl host.put machine.mem }) := by
  let current := (host.walk lib machine.mem page).resolved page.1
  let after := host.afterLookups machine (lookups page.1 ++ lookups page.1)
  have fits : (host.walk lib machine.mem page).definition.Fits := by
    change lib.pagingDefinition.Fits
    rw [ready.definition]
    exact PteditPagingDefinition.x86_64_fits
  have stores : userStores (host.walk lib machine.mem page) vm current =
      (host.walk lib machine.mem page).stores vm := Walk.userStores_eq fits vm page.1
  have again := @run_pteditUserRoot host cpu (host.afterLookups machine (lookups page.1)) lib
    (own.afterLookups _) ready page.1
  rw [← afterLookups_append] at again
  have same : { after with mem := ([] : List (Word × Word)).foldl host.put machine.mem } =
      after := by
    have kept : after.mem = machine.mem := mem_afterLookups _
    change { after with mem := machine.mem } = after
    rw [← kept]
  have level := @run_pteditUpdateLevel host cpu after lib machine.mem page vm current
  have first := @level .pte []
  rw [same] at first
  rw [← stores, pteditUpdateUserExt, Prog.run_bind_of_some (run_pteditResolveUser own ready page),
    Prog.run_bind_of_some again, if_neg root, Prog.run_bind_of_some first,
    Prog.run_bind_of_some (level _), Prog.run_bind_of_some (level _),
    Prog.run_bind_of_some (level _), Prog.run_bind_of_some (level _), run_pteditInvalidateTlbPid]
  simp [userStores, updateOrder, after, current]

theorem run_pteditUpdateUser (own : host.OwnTables machine) (ready : Ready host lib)
    {page : Word × Word} {vm : PteditEntry}
    (root : host.pagingRoot (lib.named page.1) ≠ 0) :
    Prog.run (deviceHandler host cpu) (pteditUpdateUser lib page.2 page.1 vm) machine =
      some ((), { host.afterLookups machine (lookups page.1 ++ lookups page.1) with
        mem := ((host.walk lib machine.mem page).stores vm).foldl host.put machine.mem }) :=
  Prog.run_bind_of_some (run_pteditUpdateUserExt own ready root)

/-- An update of the PTE of a page with page tables. -/
theorem run_pteditUpdateUser_pteOnly (own : host.OwnTables machine) (ready : Ready host lib)
    {page : Word × Word} {vm : PteditEntry} (paged : (host.walk lib machine.mem page).Paged)
    (only : vm.PteOnly) :
    Prog.run (deviceHandler host cpu) (pteditUpdateUser lib page.2 page.1 vm) machine =
      some ((), { host.afterLookups machine (lookups page.1 ++ lookups page.1) with
        mem := host.stored machine.mem ((host.walk lib machine.mem page).slot .pte) vm.pte }) := by
  have stores : (host.walk lib machine.mem page).stores vm =
      [((host.walk lib machine.mem page).slot .pte, vm.pte)] := by
    rw [Walk.stores_of_only only]
    exact if_pos ⟨(only .pte).mpr rfl, paged.valid_pte, .inl rfl⟩
  rw [run_pteditUpdateUser own ready paged.root, stores]
  rfl

/-- An edit resolves the page once more. -/
theorem run_pteditPteEdit (own : host.OwnTables machine) (ready : Ready host lib)
    {page : Word × Word} (paged : (host.walk lib machine.mem page).Paged) (edit : Word → Word) :
    Prog.run (deviceHandler host cpu) (pteditPteEdit lib page.2 page.1 edit) machine =
      some ((), { host.afterLookups machine
          (lookups page.1 ++ (lookups page.1 ++ lookups page.1)) with
        mem := host.stored machine.mem ((host.walk lib machine.mem page).slot .pte)
          (edit (machine.mem.read ((host.walk lib machine.mem page).slot .pte))) }) := by
  have valid := paged.valid_pte
  have found := ((host.walk lib machine.mem page).valid_resolved page.1 .pte).mpr valid
  have pte : ((host.walk lib machine.mem page).resolved page.1).pte =
      machine.mem.read ((host.walk lib machine.mem page).slot .pte) := valid.pte_resolved page.1
  have same : (host.afterLookups machine (lookups page.1)).mem = machine.mem := mem_afterLookups _
  have updated := @run_pteditUpdateUser_pteOnly host cpu
    (host.afterLookups machine (lookups page.1)) lib (own.afterLookups _) ready page
    { (host.walk lib machine.mem page).resolved page.1 with
      pte := edit (machine.mem.read ((host.walk lib machine.mem page).slot .pte))
      valid := Level.pte.validMask }
  rw [same, ← afterLookups_append] at updated
  rw [pteditPteEdit, Prog.run_bind_of_some (run_pteditResolveUser own ready page),
    if_neg (not_not.mpr found), pte]
  exact updated paged (PteditEntry.pteOnly_of_valid rfl)

end Calls

end Windows

end PTEditor
