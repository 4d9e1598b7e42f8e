import Sertos.MutexCalls
import Sertos.Representation

/-!
# Suspending, resuming and deleting tasks, and changing their priority

`sertos_task_suspend`, `sertos_task_resume`, `sertos_task_delete` and `sertos_task_set_priority`.
The first three consult the table of state transitions, and all four look at the *state* of the task
only: `READY` means that there is a node to take out of a ready queue, any other state that there is
none.

The `magic` words of the control blocks are not fields of `Tcb`.  Creation writes them and nothing
clears them, so they are kept beside the kernel (`Tasks.magic`).  What a pool that gets the memory
of a deleted task back does with it is not modelled.

The steps of a run (`TaskOp`) are whole calls: those of the scheduler's interface, which include all
that the semaphores, queues and other objects do to the lists, those of the mutexes with their
deletion, a context switch on its own, and the calls of this file.  The scheduler may be locked at
any of them.  `TaskOp.InOrder` is the condition under which the lists stay right.
-/

set_option autoImplicit false

namespace Sertos

open Intrusive Lts Scheduler

/-- `sertos_scheduler_unregister_task`.  The links of `registry_node` are `NULL` exactly if the task
is not in the registry: creation and this function clear them. -/
def Scheduler.unregisterTask (k : Kernel) (t : TaskId) : Kernel :=
  if k.Live t then { k with taskRegistry := k.taskRegistry.remove t } else k

namespace Task

/-- `SERTOS_TASK_MAGIC_WORD`. -/
def magicWord : ℕ := 0x54434221

/-- `s_task_transitions`, without the event numbers, which nothing reads. -/
def transitions : List (TaskState × TaskState) :=
  [(.ready, .running), (.running, .ready), (.running, .blocked), (.blocked, .ready),
    (.ready, .suspended), (.running, .suspended), (.blocked, .suspended), (.suspended, .ready),
    (.ready, .terminated), (.running, .terminated), (.blocked, .terminated),
    (.suspended, .terminated)]

/-- `sertos_task_is_valid_transition`. -/
def isValidTransition (before after : TaskState) : Bool :=
  before ≠ after && transitions.any fun e => e.1 = before && e.2 = after

/-- The test with which `sertos_task_suspend`, `sertos_task_resume` and `sertos_task_delete`
begin. -/
def accepts (k : Kernel) (magic : TaskId → ℕ) (t : TaskId) (after : TaskState) : Bool :=
  magic t = magicWord && isValidTransition (k.tcb t).state after

/-- Takes a `READY` task out of its queue. -/
def withdraw (k : Kernel) (t : TaskId) : Kernel :=
  if (k.tcb t).state = .ready then (removeReady k t).1 else k

/-- The critical section of `sertos_task_suspend`. -/
def suspendSection (k : Kernel) (t : TaskId) : Kernel :=
  (withdraw k t).modify t fun b => { b with state := .suspended }

/-- The critical section of `sertos_task_delete`. -/
def deleteSection (k : Kernel) (t : TaskId) : Kernel :=
  (unregisterTask (withdraw k t) t).modify t fun b => { b with state := .terminated }

/-- `sertos_task_suspend`; the handle `none` stands for the current task. -/
def suspend (k : Kernel) (magic : TaskId → ℕ) (handle : Option TaskId) : Kernel × Status :=
  match handle.or k.currentTcb with
  | none => (k, .errorInvalidParam)
  | some t =>
    if accepts k magic t .suspended then
      let isCurrent := k.currentTcb = some t
      let k := suspendSection k t
      (if isCurrent ∧ k.isRunning then yield k else k, .ok)
    else (k, .errorInvalidParam)

/-- `sertos_task_delete`; the handle `none` stands for the current task. -/
def delete (k : Kernel) (magic : TaskId → ℕ) (handle : Option TaskId) : Kernel × Status :=
  match handle.or k.currentTcb with
  | none => (k, .errorInvalidParam)
  | some t =>
    if accepts k magic t .terminated then
      let isCurrent := k.currentTcb = some t
      let k := deleteSection k t
      (if isCurrent ∧ k.isRunning then yield k else k, .ok)
    else (k, .errorInvalidParam)

/-- `sertos_task_resume`. -/
def resume (k : Kernel) (magic : TaskId → ℕ) (handle : Option TaskId) : Kernel × Status :=
  match handle with
  | none => (k, .errorInvalidParam)
  | some t =>
    if accepts k magic t .ready then
      let r := addReady k t
      if r.2 = .ok ∧ r.1.isRunning then (reschedule r.1, r.2) else r
    else (k, .errorInvalidParam)

/-- The critical section of `sertos_task_set_priority`. -/
def setPrioritySection (k : Kernel) (t : TaskId) (newPriority : ℕ) : Kernel :=
  let wasReady := (k.tcb t).state = .ready
  let k := if wasReady then (removeReady k t).1 else k
  let k := k.modify t fun b => { b with priority := newPriority, basePriority := newPriority }
  if wasReady then (addReady k t).1 else k

/-- `sertos_task_set_priority`; the handle `none` stands for the current task. -/
def setPriority (k : Kernel) (magic : TaskId → ℕ) (handle : Option TaskId) (newPriority : ℕ) :
    Kernel × Status :=
  if maxPriorities ≤ newPriority then (k, .errorInvalidParam)
  else match handle.or k.currentTcb with
    | none => (k, .errorInvalidParam)
    | some t =>
      if magic t ≠ magicWord then (k, .errorInvalidParam)
      else
        let k := setPrioritySection k t newPriority
        (if k.isRunning then reschedule k else k, .ok)

variable {k : Kernel} {magic : TaskId → ℕ} {handle : Option TaskId} {t : TaskId} {b : TaskState}
  {p : ℕ}

/-! ## The table -/

theorem isValidTransition_suspended :
    isValidTransition b .suspended = true ↔ b.isReady = true ∨ b = .blocked := by
  cases b <;> decide

theorem isValidTransition_ready :
    isValidTransition b .ready = true ↔ b = .running ∨ b = .blocked ∨ b = .suspended := by
  cases b <;> decide

theorem isValidTransition_terminated :
    isValidTransition b .terminated = true ↔ b ≠ .terminated := by
  cases b <;> decide

theorem accepts_iff {after : TaskState} : accepts k magic t after = true ↔
    magic t = magicWord ∧ isValidTransition (k.tcb t).state after = true := by
  simp [accepts]

/-! ## The calls either fail or do their work -/

theorem suspend_cases (k : Kernel) (magic : TaskId → ℕ) (handle : Option TaskId) :
    ((suspend k magic handle).2 ≠ .ok ∧ (suspend k magic handle).1 = k) ∨
    ∃ t, handle.or k.currentTcb = some t ∧ accepts k magic t .suspended = true ∧
      suspend k magic handle =
        (if k.currentTcb = some t ∧ (suspendSection k t).isRunning then yield (suspendSection k t)
          else suspendSection k t, .ok) := by
  rw [suspend]
  cases handle.or k.currentTcb with
  | none => exact Or.inl (by simp)
  | some t =>
    by_cases ha : accepts k magic t .suspended = true
    · exact Or.inr ⟨t, rfl, ha, by simp [ha]⟩
    · exact Or.inl (by simp [ha])

theorem delete_cases (k : Kernel) (magic : TaskId → ℕ) (handle : Option TaskId) :
    ((delete k magic handle).2 ≠ .ok ∧ (delete k magic handle).1 = k) ∨
    ∃ t, handle.or k.currentTcb = some t ∧ accepts k magic t .terminated = true ∧
      delete k magic handle =
        (if k.currentTcb = some t ∧ (deleteSection k t).isRunning then yield (deleteSection k t)
          else deleteSection k t, .ok) := by
  rw [delete]
  cases handle.or k.currentTcb with
  | none => exact Or.inl (by simp)
  | some t =>
    by_cases ha : accepts k magic t .terminated = true
    · exact Or.inr ⟨t, rfl, ha, by simp [ha]⟩
    · exact Or.inl (by simp [ha])

theorem suspend_of_ok (ht : handle.or k.currentTcb = some t)
    (hok : (suspend k magic handle).2 = .ok) : accepts k magic t .suspended = true ∧
      suspend k magic handle =
        (if k.currentTcb = some t ∧ (suspendSection k t).isRunning then yield (suspendSection k t)
          else suspendSection k t, .ok) := by
  rcases suspend_cases k magic handle with ⟨hne, -⟩ | ⟨u, hu, haccepts, e⟩
  · exact absurd hok hne
  · obtain rfl := Option.some_inj.1 (ht.symm.trans hu)
    exact ⟨haccepts, e⟩

theorem delete_of_ok (ht : handle.or k.currentTcb = some t)
    (hok : (delete k magic handle).2 = .ok) : accepts k magic t .terminated = true ∧
      delete k magic handle =
        (if k.currentTcb = some t ∧ (deleteSection k t).isRunning then yield (deleteSection k t)
          else deleteSection k t, .ok) := by
  rcases delete_cases k magic handle with ⟨hne, -⟩ | ⟨u, hu, haccepts, e⟩
  · exact absurd hok hne
  · obtain rfl := Option.some_inj.1 (ht.symm.trans hu)
    exact ⟨haccepts, e⟩

theorem resume_of_accepts (ha : accepts k magic t .ready = true)
    (hp : (k.tcb t).priority < maxPriorities) :
    resume k magic (some t) =
      (if (addReady k t).1.isRunning then reschedule (addReady k t).1 else (addReady k t).1,
        .ok) := by
  simp only [resume, ha, if_true, addReady_status hp, true_and]
  split
  · rfl
  · rw [← addReady_status hp]

theorem resume_cases (k : Kernel) (magic : TaskId → ℕ) (handle : Option TaskId) :
    ((resume k magic handle).2 ≠ .ok ∧ (resume k magic handle).1 = k) ∨
    ∃ t, handle = some t ∧ accepts k magic t .ready = true ∧ (k.tcb t).priority < maxPriorities ∧
      resume k magic handle =
        (if (addReady k t).1.isRunning then reschedule (addReady k t).1 else (addReady k t).1,
          .ok) := by
  cases handle with
  | none => exact Or.inl (by simp [resume])
  | some t =>
    by_cases ha : accepts k magic t .ready = true
    · by_cases hp : (k.tcb t).priority < maxPriorities
      · exact Or.inr ⟨t, rfl, ha, hp, resume_of_accepts ha hp⟩
      · exact Or.inl (by simp [resume, ha, addReady, Nat.not_lt.1 hp])
    · exact Or.inl (by simp [resume, ha])

theorem setPriority_cases (k : Kernel) (magic : TaskId → ℕ) (handle : Option TaskId) (p : ℕ) :
    ((setPriority k magic handle p).2 ≠ .ok ∧ (setPriority k magic handle p).1 = k) ∨
    ∃ t, handle.or k.currentTcb = some t ∧ magic t = magicWord ∧ p < maxPriorities ∧
      setPriority k magic handle p = (reschedule (setPrioritySection k t p), .ok) := by
  rw [setPriority]
  by_cases hp : maxPriorities ≤ p
  · exact Or.inl (by simp [hp])
  · rw [if_neg hp]
    cases handle.or k.currentTcb with
    | none => exact Or.inl (by simp)
    | some t =>
      by_cases hm : magic t = magicWord
      · refine Or.inr ⟨t, rfl, hm, Nat.not_le.1 hp, ?_⟩
        by_cases hrun : (setPrioritySection k t p).isRunning = true
        · simp [hm, hrun]
        · simp [hm, hrun, reschedule]
      · exact Or.inl (by simp [hm])

theorem setPriority_of_valid (ht : handle.or k.currentTcb = some t) (hm : magic t = magicWord)
    (hp : p < maxPriorities) :
    setPriority k magic handle p = (reschedule (setPrioritySection k t p), .ok) := by
  have hne : ¬ maxPriorities ≤ p := Nat.not_le.2 hp
  by_cases hrun : (setPrioritySection k t p).isRunning = true
  · simp [setPriority, hne, ht, hm, hrun]
  · simp [setPriority, hne, ht, hm, hrun, reschedule]

/-- A task that is not `READY` stays where it is. -/
theorem setPrioritySection_of_ne_ready (hs : (k.tcb t).state ≠ .ready) :
    setPrioritySection k t p =
      k.modify t fun b => { b with priority := p, basePriority := p } := by
  simp [setPrioritySection, hs]

/-- The change writes the ready queues, their bitmap and the control block. -/
theorem setPrioritySection_frame :
    setPrioritySection k t p = { k with
      readyBitmap := (setPrioritySection k t p).readyBitmap
      stateLists := (setPrioritySection k t p).stateLists
      tcb := (setPrioritySection k t p).tcb } := by
  simp only [setPrioritySection]
  split
  · rw [addReady_frame, removeReady_frame]
    rfl
  · rfl

end Task

/-! ## Runs -/

/-- The kernel and the mutexes, with the magic words of the control blocks. -/
structure Tasks where
  system : System
  magic : TaskId → ℕ

/-- The call creates a task. -/
def Api.Creates : Api → Prop
  | .sched (.create _ _) => True
  | _ => False

instance : DecidablePred Api.Creates
  | .sched (.create _ _) => .isTrue trivial
  | .sched (.start _) | .sched .tick | .sched .yield | .sched (.delay _) | .sched (.block _ _)
  | .sched (.unblock _) | .sched .reschedule | .sched .lock | .sched .unlock
  | .dispatch _ | .lock _ _ | .resume | .unlock _ => .isFalse id

/-- A call under the scheduling of the kernel itself.  Tasks are created by `TaskOp.create`, and the
Idle task does not wait for a mutex. -/
def Api.Scheduled (s : System) (a : Api) : Prop :=
  a.Allowed s ∧ ¬ a.Creates ∧ match a with
    | .dispatch _ => False
    | .lock _ timeout => timeout = noWait ∨ s.kernel.currentTcb ≠ some idleTcb
    | _ => True

instance (s : System) : DecidablePred (Api.Scheduled s)
  | .dispatch _ => .isFalse fun h => h.2.2
  | .lock m timeout => inferInstanceAs (Decidable ((Api.lock m timeout).Allowed s ∧
      ¬ (Api.lock m timeout).Creates ∧ (timeout = noWait ∨ s.kernel.currentTcb ≠ some idleTcb)))
  | .sched a => inferInstanceAs (Decidable ((Api.sched a).Allowed s ∧ ¬ (Api.sched a).Creates ∧ True))
  | .resume => inferInstanceAs (Decidable (Api.resume.Allowed s ∧ ¬ Api.resume.Creates ∧ True))
  | .unlock m =>
    inferInstanceAs (Decidable ((Api.unlock m).Allowed s ∧ ¬ (Api.unlock m).Creates ∧ True))

/-- The current task `c` unlocks `m`, which has not been deleted, for the last time. -/
def System.Releases (s : System) (m : ℕ) (c : TaskId) : Prop :=
  (s.mutexes m).magic = mutexMagicWord ∧ s.FullRelease m c

/-- One call; a task is created by `create` only. -/
inductive TaskOp
  /-- A call of the scheduler's interface or of a mutex. -/
  | api (a : Api)
  | create (config : TaskConfig) (t : TaskId)
  /-- A context switch that no call has asked for. -/
  | switch
  | suspend (handle : Option TaskId)
  | resume (handle : Option TaskId)
  | delete (handle : Option TaskId)
  | setPriority (handle : Option TaskId) (newPriority : ℕ)
  /-- `sertos_mutex_delete`. -/
  | deleteMutex (m : ℕ)
deriving DecidableEq, Repr

namespace Tasks

def kernel (s : Tasks) : Kernel := s.system.kernel

/-- Writes the kernel. -/
def setKernel (s : Tasks) (k : Kernel) : Tasks := { s with system := { s.system with kernel := k } }

@[simp] theorem setKernel_kernel (s : Tasks) (k : Kernel) : (s.setKernel k).kernel = k := rfl
@[simp] theorem setKernel_magic (s : Tasks) (k : Kernel) : (s.setKernel k).magic = s.magic := rfl

/-- After the initialisation the Idle task is the only one; control blocks that have not been
created are zero. -/
def init (k : Kernel) (sems : ℕ → Semaphore) : Tasks :=
  ⟨System.init k sems, Function.update (fun _ => 0) idleTcb Task.magicWord⟩

/-- The system before any task is created. -/
def fresh : Tasks := init (initWithConfig bss none 0).1 fun _ => ⟨0, 1, semMagicWord⟩

/-- Task 1 runs. -/
def oneTask : List TaskOp := [.create (.ofPriority 1) 1, .api (.sched (.start .ok))]

end Tasks

namespace TaskOp

/-- The state change of a call.  A new task starts at its entry function. -/
def run (s : Tasks) : TaskOp → Tasks
  | .api a => { s with system := a.run s.system }
  | .create config t =>
    let r := Task.createStatic s.kernel config t
    if r.2 = .ok then
      { system := { s.system with kernel := r.1 }.setPc t .idle
        magic := Function.update s.magic t Task.magicWord }
    else s.setKernel r.1
  | .switch => s.setKernel (performSwitch s.kernel)
  | .suspend handle => s.setKernel (Task.suspend s.kernel s.magic handle).1
  | .resume handle => s.setKernel (Task.resume s.kernel s.magic handle).1
  | .delete handle => s.setKernel (Task.delete s.kernel s.magic handle).1
  | .setPriority handle p => s.setKernel (Task.setPriority s.kernel s.magic handle p).1
  | .deleteMutex m => { s with system := (Mutex.delete s.system m).1 }

/-- The calls that can come next.  The Idle task is neither suspended nor deleted. -/
def Allowed (s : Tasks) : TaskOp → Prop
  | .api a => a.Scheduled s.system
  | .create _ t => ¬ s.kernel.Live t
  | .suspend handle | .delete handle => handle.or s.kernel.currentTcb ≠ some idleTcb
  | .switch | .resume _ | .setPriority _ _ | .deleteMutex _ => True

instance (s : Tasks) : DecidablePred (Allowed s)
  | .api a => inferInstanceAs (Decidable (a.Scheduled s.system))
  | .create _ t => inferInstanceAs (Decidable (¬ s.kernel.Live t))
  | .suspend handle | .delete handle =>
    inferInstanceAs (Decidable (handle.or s.kernel.currentTcb ≠ some idleTcb))
  | .switch | .resume _ | .setPriority _ _ | .deleteMutex _ => .isTrue trivial

/-- One step of a run. -/
abbrev Step : Tasks → TaskOp → Tasks → Prop := Guarded Allowed run

/-! ### Calls in order -/

/-- The call leaves each task in the lists that its state stands for: no task is suspended, resumed
or deleted while it is `RUNNING` or `BLOCKED`, and no `RUNNING` task is given another priority,
neither by `sertos_task_set_priority` nor when a mutex that it owns is deleted. -/
def KeepsLists (s : Tasks) : TaskOp → Prop
  | .suspend handle | .delete handle => ∀ t, handle.or s.kernel.currentTcb = some t →
    s.magic t = Task.magicWord →
      (s.kernel.tcb t).state ≠ .running ∧ (s.kernel.tcb t).state ≠ .blocked
  | .resume handle => ∀ t, handle = some t → s.magic t = Task.magicWord →
    (s.kernel.tcb t).state ≠ .running ∧ (s.kernel.tcb t).state ≠ .blocked
  | .setPriority handle p => p < maxPriorities → ∀ t, handle.or s.kernel.currentTcb = some t →
    s.magic t = Task.magicWord →
      ((s.kernel.tcb t).state ≠ .running ∨ p = (s.kernel.tcb t).priority)
  | .deleteMutex m => (s.system.mutexes m).magic = mutexMagicWord →
    ∀ o, (s.system.mutexes m).owner = some o → ((s.kernel.tcb o).state ≠ .running ∨
      (s.system.mutexes m).originalOwnerPriority = (s.kernel.tcb o).priority)
  | .api _ | .create _ _ | .switch => True

/-- No mutex release gives back an inherited priority: a task that releases a mutex for the last
time has the priority recorded in the mutex. -/
def NothingInherited (s : Tasks) : TaskOp → Prop
  | .api (.unlock m) => ∀ c, s.system.Releases m c →
    s.system.priority c = (s.system.mutexes m).originalOwnerPriority
  | _ => True

/-- If the call makes its caller wait, the scheduler is unlocked. -/
def BlocksUnlocked (s : Tasks) : TaskOp → Prop
  | .api (.sched a) => a.BlocksUnlocked s.kernel
  | .api (.lock m timeout) => (Mutex.lock s.system m timeout).2 = none → s.kernel.lockNesting = 0
  | _ => True

/-- The call keeps the lists and the control blocks in order. -/
def InOrder (s : Tasks) (a : TaskOp) : Prop :=
  a.KeepsLists s ∧ a.NothingInherited s ∧ a.BlocksUnlocked s

/-- The task that is meant, if there is one, satisfies `p`. -/
def decidableHandle (o : Option TaskId) (p : TaskId → Prop) [DecidablePred p] :
    Decidable (∀ t, o = some t → p t) :=
  match o with
  | none => .isTrue fun _ h => absurd h (by simp)
  | some t => decidable_of_iff (p t) ⟨fun h _ e => Option.some_inj.1 e ▸ h, fun h => h t rfl⟩

instance (s : Tasks) : DecidablePred (KeepsLists s)
  | .suspend handle | .delete handle =>
    decidableHandle (handle.or s.kernel.currentTcb) fun t => s.magic t = Task.magicWord →
      (s.kernel.tcb t).state ≠ .running ∧ (s.kernel.tcb t).state ≠ .blocked
  | .resume handle => decidableHandle handle fun t => s.magic t = Task.magicWord →
      (s.kernel.tcb t).state ≠ .running ∧ (s.kernel.tcb t).state ≠ .blocked
  | .setPriority handle p =>
    @instDecidableForall _ _ inferInstance (decidableHandle (handle.or s.kernel.currentTcb) fun t =>
      s.magic t = Task.magicWord →
        ((s.kernel.tcb t).state ≠ .running ∨ p = (s.kernel.tcb t).priority))
  | .deleteMutex m =>
    @instDecidableForall _ _ inferInstance (decidableHandle (s.system.mutexes m).owner fun o =>
      ((s.kernel.tcb o).state ≠ .running ∨
        (s.system.mutexes m).originalOwnerPriority = (s.kernel.tcb o).priority))
  | .api _ | .create _ _ | .switch => .isTrue trivial

instance (s : Tasks) : DecidablePred (NothingInherited s)
  | .api (.unlock m) =>
    @decidable_of_iff _ _
      ⟨fun h c hr => h c hr.2.1 ⟨hr.1, hr.2.2⟩, fun h c hc hr => h c ⟨hr.1, hc, hr.2⟩⟩
      (decidableHandle s.kernel.currentTcb fun c =>
        (s.system.mutexes m).magic = mutexMagicWord ∧ (s.system.mutexes m).owner = some c ∧
            (s.system.mutexes m).lockCount = 1 →
          s.system.priority c = (s.system.mutexes m).originalOwnerPriority)
  | .api (.sched _) | .api (.dispatch _) | .api (.lock _ _) | .api .resume | .create _ _ | .switch
  | .suspend _ | .resume _ | .delete _ | .setPriority _ _ | .deleteMutex _ => .isTrue trivial

instance (s : Tasks) : DecidablePred (BlocksUnlocked s)
  | .api (.sched a) => inferInstanceAs (Decidable (a.BlocksUnlocked s.kernel))
  | .api (.lock m timeout) => inferInstanceAs (Decidable
      ((Mutex.lock s.system m timeout).2 = none → s.kernel.lockNesting = 0))
  | .api (.dispatch _) | .api .resume | .api (.unlock _) | .create _ _ | .switch | .suspend _
  | .resume _ | .delete _ | .setPriority _ _ | .deleteMutex _ => .isTrue trivial

instance (s : Tasks) : DecidablePred (InOrder s) := fun a =>
  inferInstanceAs (Decidable (a.KeepsLists s ∧ a.NothingInherited s ∧ a.BlocksUnlocked s))

/-- One step of a run whose calls are in order. -/
abbrev OrderStep : Tasks → TaskOp → Tasks → Prop :=
  Guarded (fun s a => a.Allowed s ∧ a.InOrder s) run

end TaskOp

end Sertos
