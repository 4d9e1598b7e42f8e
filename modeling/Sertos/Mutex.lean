import Sertos.Task

/-!
# Mutexes and semaphores

The functions of `sertos_mutex.c` and `sertos_sem.c` on a `System`: the kernel together with the
IPC objects.  The wait list of an object is one of the kernel's, `WaitList.mutex m` or
`WaitList.sem i`.

`sertos_mutex_lock` and `sertos_sem_take` have two critical sections when they block: the test of
the object, and the one inside `sertos_scheduler_wait_list_block` that queues the caller.
`Mutex.lockSection` and `Sem.takeSection` are the first; `Mutex.lockReturn` is what
`sertos_mutex_lock` does after the wait, outside any critical section.  Where a task is in such a
call is its `Pc`.
-/

set_option autoImplicit false

namespace Sertos

open Intrusive Scheduler

/-- `SERTOS_MUTEX_MAGIC_WORD`. -/
def mutexMagicWord : ℕ := 0x4D555458

/-- `SERTOS_SEM_MAGIC_WORD`. -/
def semMagicWord : ℕ := 0x53454D41

/-- `SertosMutex`, without its wait list. -/
structure Mutex where
  owner : Option TaskId
  /-- `lock_count`, a `uint32_t`. -/
  lockCount : ℕ
  originalOwnerPriority : ℕ
  magic : ℕ
deriving DecidableEq, Repr

/-- `SertosSemaphore`, without its wait list. -/
structure Semaphore where
  count : ℕ
  maxCount : ℕ
  magic : ℕ
deriving DecidableEq, Repr

/-- Where a task is in a call that takes more than one step. -/
inductive Pc
  /-- In no such call. -/
  | idle
  /-- In `sertos_sem_take`, between the test and the queueing. -/
  | semEnqueue (i timeout : ℕ)
  /-- In `sertos_sem_take`, in the wait. -/
  | semWait (i timeout : ℕ)
  /-- In `sertos_mutex_lock`, between the test and the queueing. -/
  | mutexEnqueue (m timeout : ℕ)
  /-- In `sertos_mutex_lock`, in the wait. -/
  | mutexWait (m timeout : ℕ)
deriving DecidableEq, Repr

/-- The kernel and the IPC objects. -/
structure System where
  kernel : Kernel
  mutexes : ℕ → Mutex
  sems : ℕ → Semaphore
  pc : TaskId → Pc

namespace System

/-- Writes one mutex. -/
def setMutex (s : System) (m : ℕ) (x : Mutex) : System :=
  { s with mutexes := Function.update s.mutexes m x }

/-- Writes one semaphore. -/
def setSem (s : System) (i : ℕ) (x : Semaphore) : System :=
  { s with sems := Function.update s.sems i x }

/-- Writes the program counter of one task. -/
def setPc (s : System) (t : TaskId) (p : Pc) : System :=
  { s with pc := Function.update s.pc t p }

section Set

variable (s : System) (m : ℕ) (x : Mutex) (t : TaskId) (p : Pc)

@[simp] theorem setMutex_mutexes_same : (s.setMutex m x).mutexes m = x := by simp [setMutex]

theorem setMutex_mutexes_of_ne {n : ℕ} (h : n ≠ m) : (s.setMutex m x).mutexes n = s.mutexes n := by
  simp [setMutex, h]

/-- Valid mutexes stay valid. -/
theorem setMutex_magic {s : System} {m : ℕ} {x : Mutex}
    (h : ∀ n, (s.mutexes n).magic = mutexMagicWord) (hx : x.magic = mutexMagicWord) (n : ℕ) :
    ((s.setMutex m x).mutexes n).magic = mutexMagicWord := by
  by_cases hn : n = m
  · rw [hn, setMutex_mutexes_same, hx]
  · rw [setMutex_mutexes_of_ne _ _ _ hn, h]

@[simp] theorem setMutex_kernel : (s.setMutex m x).kernel = s.kernel := rfl
@[simp] theorem setMutex_pc : (s.setMutex m x).pc = s.pc := rfl

@[simp] theorem setPc_pc_same : (s.setPc t p).pc t = p := by simp [setPc]

theorem setPc_pc_of_ne {u : TaskId} (h : u ≠ t) : (s.setPc t p).pc u = s.pc u := by
  simp [setPc, h]

@[simp] theorem setPc_kernel : (s.setPc t p).kernel = s.kernel := rfl
@[simp] theorem setPc_mutexes : (s.setPc t p).mutexes = s.mutexes := rfl

end Set

end System

namespace Mutex

/-- The mutex `sertos_mutex_create_static` sets up. -/
def fresh : Mutex := ⟨none, 0, 0, mutexMagicWord⟩

/-! ## Priority inheritance -/

/-- Gives a task another priority; a `READY` task is moved to the queue of that priority. -/
def changePriority (k : Kernel) (t : TaskId) (p : ℕ) : Kernel :=
  if (k.tcb t).state = .ready then
    (addReady ((removeReady k t).1.modify t fun b => { b with priority := p }) t).1
  else k.modify t fun b => { b with priority := p }

/-- `apply_priority_inheritance`. -/
def applyPriorityInheritance (k : Kernel) (owner current : TaskId) : Kernel :=
  if (k.tcb owner).priority < (k.tcb current).priority then
    changePriority k owner (k.tcb current).priority
  else k

/-- `restore_owner_priority`. -/
def restoreOwnerPriority (k : Kernel) (x : Mutex) (current : TaskId) : Kernel :=
  if (k.tcb current).priority ≠ x.originalOwnerPriority then
    changePriority k current x.originalOwnerPriority
  else k

/-! ## Locking -/

/-- The critical section of `sertos_mutex_lock`, for the current task `c`: the status it returns, or
`none` if the call goes on to block. -/
def lockSection (s : System) (m : ℕ) (c : TaskId) (timeout : ℕ) : System × Option Status :=
  let x := s.mutexes m
  match x.owner with
  | none =>
    (s.setMutex m { x with
      owner := some c
      lockCount := 1
      originalOwnerPriority := (s.kernel.tcb c).priority }, some .ok)
  | some o =>
    if o = c then (s.setMutex m { x with lockCount := (x.lockCount + 1) % 2 ^ 32 }, some .ok)
    else
      let s := { s with kernel := applyPriorityInheritance s.kernel o c }
      if timeout = noWait then (s, some .errorTimeout) else (s, none)

/-- The rest of `sertos_mutex_lock` once the wait of the task `c` has returned `status`. -/
def lockReturn (s : System) (m : ℕ) (c : TaskId) (status : Status) : System :=
  if status = .ok then
    s.setMutex m { s.mutexes m with
      owner := some c
      lockCount := 1
      originalOwnerPriority := (s.kernel.tcb c).basePriority }
  else s

/-- `sertos_mutex_lock` up to its blocking point: the status it returns, or `none` if the caller is
in the wait. -/
def lock (s : System) (m : ℕ) (timeout : ℕ) : System × Option Status :=
  if (s.mutexes m).magic ≠ mutexMagicWord then (s, some .errorInvalidParam)
  else match s.kernel.currentTcb with
    | none => (s, some .errorNotInitialized)
    | some c =>
      match lockSection s m c timeout with
      | (s, some status) => (s, some status)
      | (s, none) =>
        match waitListBlock s.kernel (.mutex m) timeout with
        | (k, some status) => ({ s with kernel := k }, some status)
        | (k, none) => (({ s with kernel := k } : System).setPc c (.mutexWait m timeout), none)

/-- The end of `sertos_mutex_lock`, run by the task `c` when it runs again after the wait. -/
def lockResume (s : System) (m : ℕ) (c : TaskId) (timeout : ℕ) : System × Status :=
  let status := waitListBlockStatus s.kernel c timeout
  ((lockReturn s m c status).setPc c .idle, status)

/-! ## Unlocking -/

/-- `lock_count--` on a `uint32_t`. -/
def decrement (n : ℕ) : ℕ := if n = 0 then 0xFFFFFFFF else n - 1

/-- The critical section of `sertos_mutex_unlock`, for the owner `c`, and whether it was a full
release. -/
def unlockSection (s : System) (m : ℕ) (c : TaskId) : System × Bool :=
  let x := s.mutexes m
  let lockCount := decrement x.lockCount
  if 0 < lockCount then (s.setMutex m { x with lockCount := lockCount }, false)
  else
    match waitListUnblockHighest (restoreOwnerPriority s.kernel x c) (.mutex m) with
    | (k, some nextOwner) =>
      (({ s with kernel := k } : System).setMutex m { x with
        owner := some nextOwner
        lockCount := 1
        originalOwnerPriority := (k.tcb nextOwner).basePriority }, true)
    | (k, none) =>
      (({ s with kernel := k } : System).setMutex m { x with
        owner := none
        lockCount := lockCount }, true)

/-- `sertos_mutex_unlock`. -/
def unlock (s : System) (m : ℕ) : System × Status :=
  if (s.mutexes m).magic ≠ mutexMagicWord then (s, .errorInvalidParam)
  else match s.kernel.currentTcb with
    | none => (s, .errorInvalidParam)
    | some c =>
      if (s.mutexes m).owner ≠ some c then (s, .errorInvalidParam)
      else
        match unlockSection s m c with
        | (s, false) => (s, .ok)
        | (s, true) =>
          if s.kernel.isRunning then ({ s with kernel := reschedule s.kernel }, .ok) else (s, .ok)

/-! ## Deletion -/

/-- The owner of `x`, if it has one, gets its priority back. -/
def restoreOwner (k : Kernel) (x : Mutex) : Kernel :=
  match x.owner with
  | some o => restoreOwnerPriority k x o
  | none => k

/-- The critical section of `sertos_mutex_delete`. -/
def deleteSection (s : System) (m : ℕ) : System :=
  let k := restoreOwner s.kernel (s.mutexes m)
  let s := s.setMutex m { s.mutexes m with magic := 0 }
  { s with kernel := unblockAll k (.mutex m) }

/-- `sertos_mutex_delete`.  What a pool that gets the memory back does with it is not modelled. -/
def delete (s : System) (m : ℕ) : System × Status :=
  if (s.mutexes m).magic ≠ mutexMagicWord then (s, .errorInvalidParam)
  else
    let s := deleteSection s m
    ({ s with kernel := rescheduleIfRunning s.kernel }, .ok)

end Mutex

namespace Sem

/-- `sertos_sem_create_counting_static`. -/
def createCountingStatic (initialCount maxCount : ℕ) : Option Semaphore × Status :=
  if maxCount = 0 ∨ maxCount < initialCount then (none, .errorInvalidParam)
  else (some ⟨initialCount, maxCount, semMagicWord⟩, .ok)

/-- The critical section of `sertos_sem_take`: the status it returns, or `none` if the call goes on
to block. -/
def takeSection (s : System) (i timeout : ℕ) : System × Option Status :=
  let x := s.sems i
  if 0 < x.count then (s.setSem i { x with count := x.count - 1 }, some .ok)
  else if timeout = noWait then (s, some .errorTimeout)
  else (s, none)

/-- `sertos_sem_take` up to its blocking point: the status it returns, or `none` if the caller is in
the wait. -/
def take (s : System) (i timeout : ℕ) : System × Option Status :=
  if (s.sems i).magic ≠ semMagicWord then (s, some .errorInvalidParam)
  else match takeSection s i timeout with
    | (s, some status) => (s, some status)
    | (s, none) =>
      let r := waitListBlock s.kernel (.sem i) timeout
      ({ s with kernel := r.1 }, r.2)

/-- The critical section that `sertos_sem_give` and `sertos_sem_give_from_isr` share, its status,
and the task it unblocked. -/
def giveSection (s : System) (i : ℕ) : System × Status × Option TaskId :=
  let x := s.sems i
  match waitListUnblockHighest s.kernel (.sem i) with
  | (k, some unblocked) => ({ s with kernel := k }, .ok, some unblocked)
  | (_, none) =>
    if x.count < x.maxCount then (s.setSem i { x with count := x.count + 1 }, .ok, none)
    else (s, .errorResourceBusy, none)

/-- `sertos_sem_give`. -/
def give (s : System) (i : ℕ) : System × Status :=
  if (s.sems i).magic ≠ semMagicWord then (s, .errorInvalidParam)
  else
    match giveSection s i with
    | (s, status, some _) =>
      if s.kernel.isRunning then ({ s with kernel := reschedule s.kernel }, status) else (s, status)
    | (s, status, none) => (s, status)

/-- `sertos_sem_give_from_isr`, with its `out_higher_prio_woken`. -/
def giveFromIsr (s : System) (i : ℕ) : System × Status × Bool :=
  if (s.sems i).magic ≠ semMagicWord then (s, .errorInvalidParam, false)
  else
    match giveSection s i with
    | (s, status, some unblocked) =>
      (s, status, match s.kernel.currentTcb with
        | some c => (s.kernel.tcb c).priority < (s.kernel.tcb unblocked).priority
        | none => false)
    | (s, status, none) => (s, status, false)

/-- The critical section of `sertos_sem_delete`. -/
def deleteSection (s : System) (i : ℕ) : System :=
  let s := s.setSem i { s.sems i with magic := 0 }
  { s with kernel := unblockAll s.kernel (.sem i) }

/-- `sertos_sem_delete`. -/
def delete (s : System) (i : ℕ) : System × Status :=
  if (s.sems i).magic ≠ semMagicWord then (s, .errorInvalidParam)
  else
    let s := deleteSection s i
    ({ s with kernel := rescheduleIfRunning s.kernel }, .ok)

end Sem

end Sertos
