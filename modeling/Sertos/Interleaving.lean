import Sertos.BlockingWindow
import Sertos.Frames

/-!
# Interleavings of critical sections

One step of this machine is one critical section of a semaphore or mutex call, the write that
`sertos_mutex_lock` makes after its wait, or any critical section of the scheduler itself.  Calls
are made by the current task; who that is can change at any step, by the scheduler's own switches
or by `dispatch`, which lets any task run.  So a statement about every run of this machine is one
about every interleaving, whatever the scheduling.
-/

set_option autoImplicit false

namespace Sertos

open Intrusive Lts Scheduler

namespace System

/-- Where the current task is in its call. -/
def currentPc (s : System) : Option Pc := s.kernel.currentTcb.map s.pc

/-- The current task, if there is one, is in no call. -/
def InNoCall (s : System) : Prop := s.currentPc = none ∨ s.currentPc = some .idle

instance (s : System) : Decidable s.InNoCall :=
  inferInstanceAs (Decidable (s.currentPc = none ∨ s.currentPc = some .idle))

theorem currentPc_eq {s : System} {c : TaskId} (hc : s.kernel.currentTcb = some c) :
    s.currentPc = some (s.pc c) := by
  simp [System.currentPc, hc]

/-- A step of the current task is the step of some task. -/
theorem exists_current {s : System} {p : Pc} (h : s.currentPc = some p) :
    ∃ c, s.kernel.currentTcb = some c ∧ s.pc c = p := by
  rw [System.currentPc, Option.map_eq_some_iff] at h
  exact h

/-- The tasks waiting for a mutex, in the order in which they will get it. -/
def waiters (s : System) (m : ℕ) : List TaskId := (s.kernel.waitLists (.mutex m)).nodes

/-- The system after the scheduler and all IPC objects have been initialised: `sems` are the
semaphores, and no task is in a call. -/
def init (k : Kernel) (sems : ℕ → Semaphore) : System where
  kernel := k
  mutexes := fun _ => Mutex.fresh
  sems := sems
  pc := fun _ => .idle

end System

/-- The wait list is not one of a semaphore or a mutex. -/
def WaitList.IsOther : WaitList → Prop
  | .other _ => True
  | _ => False

instance : DecidablePred WaitList.IsOther
  | .other _ => .isTrue trivial
  | .sem _ | .mutex _ => .isFalse id

/-- One atomic step. -/
inductive Atomic
  /-- A critical section of the scheduler. -/
  | kernel (a : Section)
  /-- The processor is given to `t`. -/
  | dispatch (t : TaskId)
  /-- The test of `sertos_sem_take`. -/
  | semTake (i timeout : ℕ)
  /-- `sertos_sem_give` up to its reschedule. -/
  | semGive (i : ℕ)
  | semGiveFromIsr (i : ℕ)
  /-- The test of `sertos_mutex_lock`. -/
  | mutexLock (m timeout : ℕ)
  /-- `sertos_mutex_unlock` up to its reschedule. -/
  | mutexUnlock (m : ℕ)
  /-- The critical section of `sertos_scheduler_wait_list_block`, reached from a test that
  failed. -/
  | enqueue
  /-- The current task comes back from its wait. -/
  | resume
deriving DecidableEq, Repr

namespace Atomic

/-- The critical section of `sertos_scheduler_wait_list_block` for the task `c`, on its way from the
failed test of its call to the wait.  Without a running scheduler the call returns an error. -/
def enqueueOn (s : System) (c : TaskId) (W : WaitList) (timeout : ℕ) (wait : Pc) : System :=
  if s.kernel.isRunning then
    ({ s with kernel := waitListBlockSection s.kernel c W timeout } : System).setPc c wait
  else s.setPc c .idle

/-- The step of the current task `c`. -/
def runTask (s : System) (c : TaskId) : Atomic → System
  | .semTake i timeout =>
    if (s.sems i).magic ≠ semMagicWord then s
    else match Sem.takeSection s i timeout with
      | (s, some _) => s
      | (s, none) => s.setPc c (.semEnqueue i timeout)
  | .mutexLock m timeout =>
    if (s.mutexes m).magic ≠ mutexMagicWord then s
    else match Mutex.lockSection s m c timeout with
      | (s, some _) => s
      | (s, none) => s.setPc c (.mutexEnqueue m timeout)
  | .mutexUnlock m =>
    if (s.mutexes m).magic ≠ mutexMagicWord ∨ (s.mutexes m).owner ≠ some c then s
    else (Mutex.unlockSection s m c).1
  | .enqueue => match s.pc c with
    | .semEnqueue i timeout => enqueueOn s c (.sem i) timeout (.semWait i timeout)
    | .mutexEnqueue m timeout => enqueueOn s c (.mutex m) timeout (.mutexWait m timeout)
    | _ => s
  | .resume => match s.pc c with
    | .semWait _ _ => s.setPc c .idle
    | .mutexWait m timeout => (Mutex.lockResume s m c timeout).1
    | _ => s
  | _ => s

/-- The state change of a step. -/
def run (s : System) : Atomic → System
  | .kernel a => { s with kernel := a.run s.kernel }
  | .dispatch t => { s with kernel := { s.kernel with currentTcb := some t } }
  | .semGive i => if (s.sems i).magic ≠ semMagicWord then s else (Sem.giveSection s i).1
  | .semGiveFromIsr i => (Sem.giveFromIsr s i).1
  | a => match s.kernel.currentTcb with
    | some c => runTask s c a
    | none => s

/-- The step is one of the current task. -/
def ByTask : Atomic → Prop
  | .semTake _ _ | .mutexLock _ _ | .mutexUnlock _ | .enqueue | .resume => True
  | _ => False

theorem run_byTask (s : System) {a : Atomic} (ha : a.ByTask) :
    s.kernel.currentTcb = none ∧ run s a = s ∨
      ∃ c, s.kernel.currentTcb = some c ∧ run s a = runTask s c a := by
  cases hc : s.kernel.currentTcb with
  | none =>
    refine Or.inl ⟨rfl, ?_⟩
    cases a <;> first | exact ha.elim | simp only [run, hc]
  | some c =>
    refine Or.inr ⟨c, rfl, ?_⟩
    cases a <;> first | exact ha.elim | simp only [run, hc]

/-- The scheduler's sections: those that block or wake do so on other wait lists, and the current
task makes a call of its own only when it is in no other call. -/
def AllowedSection (s : System) : Section → Prop
  | .critical (.block W _) => W.IsOther ∧ s.InNoCall
  | .critical (.unblock W) => W.IsOther
  | .critical .yield | .critical (.delay _) => s.InNoCall
  | _ => True

/-- The steps that can come next: the current task makes a new call only when its last one has
returned, and goes on with a call only where it is in it. -/
def Allowed (s : System) : Atomic → Prop
  | .kernel a => a.Allowed s.kernel ∧ AllowedSection s a
  | .dispatch _ | .semGive _ | .semGiveFromIsr _ => True
  | .semTake _ _ | .mutexLock _ _ | .mutexUnlock _ => s.currentPc = some .idle
  | .enqueue => match s.currentPc with
    | some (.semEnqueue _ _) | some (.mutexEnqueue _ _) => True
    | _ => False
  | .resume => match s.currentPc with
    | some (.semWait _ _) | some (.mutexWait _ _) => True
    | _ => False

instance (s : System) : DecidablePred (AllowedSection s)
  | .critical (.block W _) => inferInstanceAs (Decidable (W.IsOther ∧ s.InNoCall))
  | .critical (.unblock W) => inferInstanceAs (Decidable W.IsOther)
  | .critical .yield | .critical (.delay _) => inferInstanceAs (Decidable s.InNoCall)
  | .critical (.create _ _) | .critical (.start _) | .critical .tick | .critical .reschedule
  | .critical .lock | .critical .unlock | .start _ | .switchContext
  | .performSwitch => .isTrue trivial

instance (s : System) : DecidablePred (Allowed s) := fun a => by
  cases a <;> unfold Allowed
  case enqueue => rcases s.currentPc with _ | (_ | _ | _ | _ | _) <;> infer_instance
  case resume => rcases s.currentPc with _ | (_ | _ | _ | _ | _) <;> infer_instance
  all_goals infer_instance

/-- One step of an interleaving. -/
abbrev Step : System → Atomic → System → Prop := Guarded Atomic.Allowed Atomic.run

end Atomic

end Sertos
