import Sertos.Interleaving
import Sertos.QueueWakeUps

/-!
# Deleting an object that tasks wait for

`sertos_sem_delete`, `sertos_mutex_delete` and `sertos_queue_delete` clear the magic word and wake
all waiters, through the same function as a give, a release or a send.  What a waiter does then is
the end of five different calls, and none of them looks at the magic word again: a take returns the
status of the wait, a lock makes its caller the owner, and the calls of a queue go back to the test
of their loop.

The steps here are those of all three kinds of objects together (`Ipc.Op`), in any order and without
any restriction, so the runs of the real system are among them.
-/

set_option autoImplicit false

namespace Sertos

open Intrusive Lts Scheduler

/-- The kernel, the semaphores and mutexes, and one queue. -/
structure Ipc where
  system : System
  queue : Queue
  /-- The call of the queue a task is waiting in, if it is. -/
  call : TaskId → Option QueueCall

/-- A wait without a timeout, by the call it is in. -/
inductive Waiter
  | semTake (i : ℕ)
  | mutexLock (m : ℕ)
  /-- `sertos_queue_send`, `sertos_queue_receive` or `sertos_queue_peek`. -/
  | queue (a : QueueCall)
deriving DecidableEq, Repr

/-- The status with which the call has returned. -/
def QueueReply.status : QueueReply → Option Status
  | .waits => none
  | .returns status _ => some status

/-- The list on which the caller waits. -/
def Waiter.waitList : Waiter → WaitList
  | .semTake i => .sem i
  | .mutexLock m => .mutex m
  | .queue a => a.waitList

namespace Ipc

def kernel (s : Ipc) : Kernel := s.system.kernel

/-- The part that the functions of the queue work on. -/
def queueSystem (s : Ipc) : QueueSystem := ⟨s.system.kernel, s.queue, s.call⟩

/-- Puts that part back. -/
def setQueueSystem (s : Ipc) (r : QueueSystem) : Ipc :=
  ⟨{ s.system with kernel := r.kernel }, r.queue, r.call⟩

/-- The task is in the wait. -/
def InWait (s : Ipc) (t : TaskId) : Waiter → Prop
  | .semTake i => s.system.pc t = .semWait i waitForever
  | .mutexLock m => s.system.pc t = .mutexWait m waitForever
  | .queue a => s.call t = some a ∧ a.timeout = waitForever

/-- Deletes the object that is waited for. -/
def delete (s : Ipc) : Waiter → Ipc × Status
  | .semTake i => let r := Sem.delete s.system i; ({ s with system := r.1 }, r.2)
  | .mutexLock m => let r := Mutex.delete s.system m; ({ s with system := r.1 }, r.2)
  | .queue _ => let r := s.queueSystem.delete; (s.setQueueSystem r.1, r.2)

/-- The task comes back from its wait: the status its call returns, or `none` if the call waits
again. -/
def resume (s : Ipc) (t : TaskId) : Waiter → Ipc × Option Status
  | .semTake _ =>
    ({ s with system := s.system.setPc t .idle }, some (waitListBlockStatus s.kernel t waitForever))
  | .mutexLock m =>
    let r := Mutex.lockResume s.system m t waitForever
    ({ s with system := r.1 }, some r.2)
  | .queue a =>
    let r := s.queueSystem.resume t a
    (s.setQueueSystem r.1, r.2.status)

/-- The object that is waited for is the same. -/
def SameObject (s s' : Ipc) : Waiter → Prop
  | .semTake i => s'.system.sems i = s.system.sems i
  | .mutexLock m => s'.system.mutexes m = s.system.mutexes m
  | .queue _ => s'.queue = s.queue

/-- One step of any object, or a deletion. -/
inductive Op
  | atomic (a : Atomic)
  | queue (op : QueueOp)
  | delete (w : Waiter)
deriving DecidableEq, Repr

/-- The state change of a step. -/
def run (s : Ipc) : Op → Ipc
  | .atomic a => { s with system := a.run s.system }
  | .queue op => s.setQueueSystem (op.run s.queueSystem)
  | .delete w => (s.delete w).1

/-- Any step may come next. -/
abbrev Step : Ipc → Op → Ipc → Prop := Guarded (fun _ _ => True) run

/-- The scheduler runs the task, which goes on with its call. -/
structure Resumes (s : Ipc) (t : TaskId) (w : Waiter) : Prop where
  running : s.kernel.isRunning = true
  current : s.kernel.currentTcb = some t
  inWait : s.InWait t w

/-- The wait of `t` ends as it should when the object is deleted: whenever `t` goes on afterwards,
its call returns an error and leaves the object alone. -/
def DeletionNoticed (s : Ipc) (t : TaskId) (w : Waiter) : Prop :=
  ∀ ops s', Trace Step (s.delete w).1 ops s' → s'.Resumes t w →
    ∃ status, status ≠ .ok ∧ (s'.resume t w).2 = some status ∧ SameObject s' (s'.resume t w).1 w

variable {s : Ipc} {t : TaskId} {w : Waiter}

/-! ## The woken waiter -/

/-- The loop of a call without a timeout, in a running system, ends in success or in a wait. -/
theorem proceed_status {r : QueueSystem} {a : QueueCall} (hrun : r.kernel.isRunning = true)
    (hc : r.kernel.currentTcb = some t) (ha : a.timeout = waitForever) {status : Status}
    (h : (r.proceed a).2.status = some status) : status = .ok := by
  rw [QueueSystem.proceed] at h
  split at h
  · exact (Option.some_inj.1 h).symm
  · have hne : a.timeout ≠ noWait := by rw [ha]; decide
    simp only [hne, if_false, hrun, hc] at h
    exact absurd h (by simp [QueueReply.status])

/-- **No waiter notices.**  A call that waits without a timeout returns `OK`, if it returns. -/
theorem Resumes.status_eq_ok (h : s.Resumes t w) {status : Status}
    (hstatus : (s.resume t w).2 = some status) : status = .ok := by
  cases w with
  | semTake i =>
    rw [resume, waitListBlockStatus_forever] at hstatus
    exact (Option.some_inj.1 hstatus).symm
  | mutexLock m =>
    simp only [resume, Mutex.lockResume, waitListBlockStatus_forever] at hstatus
    exact (Option.some_inj.1 hstatus).symm
  | queue a =>
    obtain ⟨-, ha⟩ := h.inWait
    simp only [resume, QueueSystem.resume, ha, waitListBlockStatus_forever, ne_eq, not_true,
      if_false] at hstatus
    exact proceed_status h.running h.current ha hstatus

/-- A lock makes its caller the owner of the deleted mutex. -/
theorem resume_mutexLock_owner (s : Ipc) (t : TaskId) (m : ℕ) :
    ((s.resume t (.mutexLock m)).1.system.mutexes m).owner = some t := by
  simp [resume, Mutex.lockResume, Mutex.lockReturn, waitListBlockStatus_forever]

/-! ## The deletion -/

theorem unblockAll_isRunning (k : Kernel) (W : WaitList) :
    (unblockAll k W).isRunning = k.isRunning :=
  unblockAll_induction (motive := fun k' => k'.isRunning = k.isRunning) W rfl fun k' h => by
    rw [unblockHighest_frame]
    exact h

theorem rescheduleIfRunning_isRunning (k : Kernel) :
    (rescheduleIfRunning k).isRunning = k.isRunning := by
  rw [rescheduleIfRunning]
  split
  · rw [reschedule_frame]
  · rfl

/-- What a delete does to the kernel, for each kind of object. -/
theorem delete_kernel (h : (s.delete w).2 = .ok) :
    ∃ k, (s.delete w).1.kernel = rescheduleIfRunning k ∧
      k.isRunning = s.kernel.isRunning ∧
      (s.kernel.Usable w.waitList → k.Usable w.waitList ∧ (k.waitLists w.waitList).nodes = []) := by
  cases w with
  | semTake i =>
    simp only [delete, Sem.delete] at h ⊢
    split_ifs at h ⊢
    refine ⟨_, rfl, unblockAll_isRunning _ _, fun hu => ?_⟩
    exact ⟨(Kernel.Shrinks.unblockAll hu).1, hu.unblockAll⟩
  | mutexLock m =>
    simp only [delete, Mutex.delete] at h ⊢
    split_ifs at h ⊢
    have hrestored : Kernel.Shrinks (.mutex m) s.kernel
        (Mutex.restoreOwner s.kernel (s.system.mutexes m)) := .restoreOwner _
    refine ⟨_, rfl, ?_, fun hu => ?_⟩
    · rw [Mutex.deleteSection, unblockAll_isRunning]
      rcases Mutex.restoreOwner_cases (k := s.kernel) (s.system.mutexes m) with e | ⟨o, -, -, e⟩
      · exact congrArg Kernel.isRunning e
      · refine (congrArg Kernel.isRunning e).trans ?_
        rw [Mutex.changePriority_frame]
    · exact ⟨(Kernel.Shrinks.unblockAll (hrestored hu).1).1, (hrestored hu).1.unblockAll⟩
  | queue a =>
    simp only [delete, QueueSystem.delete] at h ⊢
    split_ifs at h ⊢
    refine ⟨_, rfl, ?_, fun hu => ?_⟩
    · rw [unblockAll_isRunning, unblockAll_isRunning]; rfl
    · rw [Waiter.waitList] at hu ⊢
      have hsend : (unblockAll s.kernel Queue.waitSend).Usable a.waitList :=
        (Kernel.Shrinks.unblockAll hu).1
      refine ⟨(Kernel.Shrinks.unblockAll hsend).1, ?_⟩
      have hsides : a.waitList = Queue.waitSend ∨ a.waitList = Queue.waitRecv := by
        cases a <;> simp [QueueCall.waitList]
      rcases hsides with e | e
      · have hnil : ((unblockAll s.kernel Queue.waitSend).waitLists a.waitList).nodes = [] := by
          rw [e] at hu ⊢
          exact hu.unblockAll
        have hsub := (Kernel.Shrinks.unblockAll (V := Queue.waitRecv) hsend).2
        rw [hnil] at hsub
        exact List.subset_nil.1 hsub
      · rw [e] at hsend ⊢
        exact hsend.unblockAll

theorem delete_inWait : (s.delete w).1.InWait t w ↔ s.InWait t w := by
  cases w with
  | semTake i =>
    simp only [delete, Sem.delete]
    split_ifs <;> rfl
  | mutexLock m =>
    simp only [delete, Mutex.delete]
    split_ifs <;> rfl
  | queue a =>
    simp only [delete, QueueSystem.delete]
    split_ifs <;> rfl

/-- **Deletion is never noticed.**  Whatever object is deleted under a task that waits without a
timeout: the wait list is empty afterwards, the task can go on, and whenever it does, its call
returns `OK` or goes back to waiting for the deleted object.  A lock even makes the task the owner
of the deleted mutex. -/
theorem deletion_never_noticed (hrun : s.kernel.isRunning = true) (hwait : s.InWait t w)
    (hdelete : (s.delete w).2 = .ok) :
    ¬ s.DeletionNoticed t w ∧
    (s.kernel.Usable w.waitList → ((s.delete w).1.kernel.waitLists w.waitList).nodes = []) ∧
    ∀ ops s', Trace Step (s.delete w).1 ops s' → s'.Resumes t w →
      (∀ status, (s'.resume t w).2 = some status → status = .ok) ∧
      ∀ m, w = .mutexLock m → ((s'.resume t w).1.system.mutexes m).owner = some t := by
  obtain ⟨k, hk, hkrun, hdrained⟩ := delete_kernel hdelete
  refine ⟨fun hnoticed => ?_, fun hu => ?_, fun ops s' _ h => ?_⟩
  · have hgo : Trace Step (s.delete w).1 [.atomic (.dispatch t)] _ := .single ⟨trivial, rfl⟩
    have hresumes : (run (s.delete w).1 (.atomic (.dispatch t))).Resumes t w := by
      refine ⟨?_, rfl, ?_⟩
      · show (s.delete w).1.kernel.isRunning = true
        rw [hk, rescheduleIfRunning_isRunning, hkrun, hrun]
      · have := delete_inWait.2 hwait
        cases w <;> exact this
    obtain ⟨status, hne, hstatus, -⟩ := hnoticed _ _ hgo hresumes
    exact hne (hresumes.status_eq_ok hstatus)
  · obtain ⟨husable, hnil⟩ := hdrained hu
    have hsub := (Kernel.Shrinks.rescheduleIfRunning husable).2
    rw [hk]
    rw [hnil] at hsub
    exact List.subset_nil.1 hsub
  · refine ⟨fun status => h.status_eq_ok, ?_⟩
    rintro m rfl
    exact resume_mutexLock_owner s' t m

/-- A system with a semaphore without a token, before any task is created. -/
def started : Ipc :=
  ⟨System.init (initWithConfig bss none 0).1 fun _ => ⟨0, 1, semMagicWord⟩, Queue.threeByteQueue,
    fun _ => none⟩

/-- Task 1 waits for mutex 0, which the Idle task has locked. -/
def mutexWaiter : Ipc :=
  ([.kernel (.start .ok), .mutexLock 0 waitForever, .kernel (.critical (.create (.ofPriority 1) 1)),
    .kernel .switchContext, .mutexLock 0 waitForever, .enqueue,
    .kernel .switchContext].map Op.atomic).foldl run started

theorem deletion_never_noticed_mutex :
    mutexWaiter.kernel.isRunning = true ∧ mutexWaiter.InWait 1 (.mutexLock 0) ∧
      (mutexWaiter.delete (.mutexLock 0)).2 = .ok ∧
        ¬ mutexWaiter.DeletionNoticed 1 (.mutexLock 0) := by
  have hrun : mutexWaiter.kernel.isRunning = true := by decide +kernel
  have hwait : mutexWaiter.InWait 1 (.mutexLock 0) := show _ = _ by decide +kernel
  have hdelete : (mutexWaiter.delete (.mutexLock 0)).2 = .ok := by decide +kernel
  exact ⟨hrun, hwait, hdelete, (deletion_never_noticed hrun hwait hdelete).1⟩

/-- Task 1 waits for semaphore 0. -/
def semWaiter : Ipc :=
  ([.kernel (.critical (.create (.ofPriority 1) 1)), .kernel (.start .ok), .semTake 0 waitForever,
    .enqueue, .kernel .switchContext].map Op.atomic).foldl run started

/-- **A take that returns `OK` without a token.**  After the delete task 1 runs again, and its call
returns `OK`. -/
theorem deleted_sem_taken :
    semWaiter.InWait 1 (.semTake 0) ∧ (semWaiter.kernel.waitLists (.sem 0)).nodes = [1] ∧
      (semWaiter.system.sems 0).count = 0 ∧ (semWaiter.delete (.semTake 0)).2 = .ok ∧
      (semWaiter.delete (.semTake 0)).1.Resumes 1 (.semTake 0) ∧
      ((semWaiter.delete (.semTake 0)).1.resume 1 (.semTake 0)).2 = some .ok ∧
      ¬ semWaiter.DeletionNoticed 1 (.semTake 0) := by
  have hwait : semWaiter.InWait 1 (.semTake 0) := show _ = _ by decide +kernel
  have hresumes : (semWaiter.delete (.semTake 0)).1.Resumes 1 (.semTake 0) :=
    ⟨by decide +kernel, by decide +kernel, delete_inWait.2 hwait⟩
  have hok : ((semWaiter.delete (.semTake 0)).1.resume 1 (.semTake 0)).2 = some .ok := by
    decide +kernel
  refine ⟨hwait, by decide +kernel, by decide +kernel, by decide +kernel, hresumes, hok,
    fun hnoticed => ?_⟩
  obtain ⟨status, hne, hstatus, -⟩ := hnoticed [] _ (.nil _) hresumes
  exact hne (hresumes.status_eq_ok hstatus)

end Ipc

end Sertos
