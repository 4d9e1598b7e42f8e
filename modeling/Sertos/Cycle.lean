import Sertos.Retirement

/-!
# The tasks of the scheduling cycle

With tasks that are suspended or deleted, not every task the registry holds is in the scheduling
cycle, and the representation invariant cannot hold of all of them.  It holds of the others.  The
functions of the scheduler never read the registry (`Call.run_among`), so the kernel can be looked
at as if the tasks of the cycle were all there are (`Kernel.among`).

A task comes into the cycle as `Joined` says, whether it is created or resumed, and goes out of it
as `Left` says, whether it is suspended or deleted.
-/

set_option autoImplicit false

namespace Sertos

open Intrusive Lts Scheduler

namespace Kernel

/-! ## A smaller registry -/

/-- The kernel as it would be if the tasks of `r` were all the tasks there are. -/
def among (k : Kernel) (r : LinkedList TaskId) : Kernel := { k with taskRegistry := r }

section Among

variable (k : Kernel) (r : LinkedList TaskId) (t u c : TaskId) (W : WaitList)

@[simp] theorem among_tcb : (k.among r).tcb = k.tcb := rfl
@[simp] theorem among_stateLists : (k.among r).stateLists = k.stateLists := rfl
@[simp] theorem among_waitLists : (k.among r).waitLists = k.waitLists := rfl
@[simp] theorem among_readyQueue (p : ℕ) : (k.among r).readyQueue p = k.readyQueue p := rfl
@[simp] theorem among_currentTcb : (k.among r).currentTcb = k.currentTcb := rfl
@[simp] theorem among_isRunning : (k.among r).isRunning = k.isRunning := rfl
@[simp] theorem among_lockNesting : (k.among r).lockNesting = k.lockNesting := rfl
@[simp] theorem among_reschedulePending : (k.among r).reschedulePending = k.reschedulePending := rfl
@[simp] theorem among_timeSlicingEnabled :
    (k.among r).timeSlicingEnabled = k.timeSlicingEnabled := rfl

theorem selectNextTask_among : selectNextTask (k.among r) = selectNextTask k := rfl

theorem modify_among (f : Tcb → Tcb) : (k.among r).modify t f = (k.modify t f).among r := rfl

theorem removeDirect_among (L : StateList) :
    (k.among r).removeDirect L t = (k.removeDirect L t).among r := rfl

theorem addReady_among : (addReady (k.among r) t).1 = (addReady k t).1.among r := by
  rw [addReady, addReady, among_tcb]
  simp only
  split <;> rfl

theorem removeReady_among : (removeReady (k.among r) t).1 = (removeReady k t).1.among r := by
  rw [removeReady, removeReady, among_tcb]
  simp only
  rw [removeDirect_among, among_readyQueue]
  split_ifs <;> rfl

theorem dispatch_among : dispatch (k.among r) t = (dispatch k t).among r := by
  have hpre : preempt (k.among r) = (preempt k).among r := by
    rw [preempt, preempt, among_tcb, among_currentTcb]
    split
    · split <;> rfl
    · rfl
  rw [dispatch, dispatch, hpre]
  rfl

theorem performSwitch_among : performSwitch (k.among r) = (performSwitch k).among r := by
  rw [performSwitch, performSwitch, selectNextTask_among]
  split
  · rfl
  · rw [dispatch_among]

theorem switchContext_among : switchContext (k.among r) = (switchContext k).among r := by
  rw [switchContext, switchContext, performSwitch_among, selectNextTask_among, among_lockNesting,
    among_currentTcb]
  split
  · rfl
  · split
    · rfl
    · split <;> rfl

theorem reschedule_among : reschedule (k.among r) = (reschedule k).among r := by
  rw [reschedule, reschedule, switchContext_among, selectNextTask_among, among_isRunning, among_tcb,
    among_currentTcb]
  split
  · split
    · rfl
    · rfl
    · split <;> rfl
  · rfl

theorem processTimeSlicing_among :
    processTimeSlicing (k.among r) = (processTimeSlicing k).among r := by
  rw [processTimeSlicing, processTimeSlicing, among_timeSlicingEnabled, among_currentTcb]
  split
  · rw [among_tcb]
    simp only
    rw [among_readyQueue]
    split <;> rfl
  · rfl

theorem waitListRemove_among : waitListRemove (k.among r) W t = (waitListRemove k W t).among r := by
  rw [waitListRemove, waitListRemove, among_tcb]
  split <;> rfl

theorem unblockHighest_among :
    (waitListUnblockHighest (k.among r) W).1 = (waitListUnblockHighest k W).1.among r := by
  rw [waitListUnblockHighest, waitListUnblockHighest, among_waitLists]
  split
  · rfl
  · rw [waitListRemove_among]
    simp only
    rw [among_tcb, ← addReady_among]
    split <;> rfl

theorem processDelayedTask_among :
    processDelayedTask (k.among r) t =
      ((processDelayedTask k t).1.among r, (processDelayedTask k t).2) := by
  have hcount : (if 0 < (k.tcb t).delayTicks then
      (k.among r).modify t fun b => { b with delayTicks := b.delayTicks - 1 } else k.among r) =
      (if 0 < (k.tcb t).delayTicks then
        k.modify t fun b => { b with delayTicks := b.delayTicks - 1 } else k).among r := by
    split <;> rfl
  rw [processDelayedTask, processDelayedTask]
  simp only
  rw [among_tcb, hcount]
  generalize (if 0 < (k.tcb t).delayTicks then
    k.modify t fun b => { b with delayTicks := b.delayTicks - 1 } else k) = x
  rw [among_tcb]
  split
  · simp only
    rw [removeDirect_among, among_tcb]
    split
    · rw [waitListRemove_among, modify_among, addReady_among]
    · rw [addReady_among]
  · rfl

theorem processDelayedFrom_among (b : Bool) (l : List TaskId) :
    processDelayedFrom (k.among r) b l =
      ((processDelayedFrom k b l).1.among r, (processDelayedFrom k b l).2) := by
  induction l generalizing k b with
  | nil => rfl
  | cons t l ih => simp only [processDelayedFrom, processDelayedTask_among, ih]

theorem tickSection_among :
    tickSection (k.among r) = ((tickSection k).1.among r, (tickSection k).2) := by
  rw [tickSection, tickSection, processDelayedTasks, processDelayedTasks]
  simp only
  rw [show ({ k.among r with systemTicks := (k.among r).systemTicks + 1 } : Kernel)
    = ({ k with systemTicks := k.systemTicks + 1 } : Kernel).among r from rfl,
    processDelayedFrom_among, processTimeSlicing_among]
  rfl

theorem delaySection_among (n : ℕ) :
    delaySection (k.among r) c n = (delaySection k c n).among r := by
  rw [delaySection, delaySection, removeReady_among]
  rfl

theorem waitListBlockSection_among (timeout : ℕ) :
    waitListBlockSection (k.among r) c W timeout =
      (waitListBlockSection k c W timeout).among r := by
  rw [waitListBlockSection, waitListBlockSection, removeReady_among]
  split <;> rfl

theorem changePriority_among (p : ℕ) :
    Mutex.changePriority (k.among r) t p = (Mutex.changePriority k t p).among r := by
  rw [Mutex.changePriority, Mutex.changePriority, among_tcb]
  split
  · rw [removeReady_among, modify_among, addReady_among]
  · rfl

theorem unlockSection_among :
    unlockSection (k.among r) = ((unlockSection k).1.among r, (unlockSection k).2) := by
  rw [unlockSection, unlockSection, among_lockNesting, among_reschedulePending]
  by_cases hn : 0 < k.lockNesting
  · rw [if_pos hn, if_pos hn]
    split <;> rfl
  · rw [if_neg hn, if_neg hn]

theorem unlock_among : unlock (k.among r) = (unlock k).among r := by
  simp only [unlock, unlockSection_among, switchContext_among]
  split <;> rfl

theorem unlock_taskRegistry : (unlock k).taskRegistry = k.taskRegistry := by
  have h := unlock_among k k.taskRegistry
  rw [show k.among k.taskRegistry = k from rfl] at h
  rw [h]
  rfl

end Among

end Kernel

/-- The call neither creates a task nor takes or releases the scheduler lock. -/
def Call.Plain : Call → Prop
  | .create _ _ | .lock | .unlock => False
  | _ => True

theorem Call.Plain.not_touchesLock {a : Call} (ha : a.Plain) : ¬ a.TouchesLock := by
  cases a with
  | lock => exact ha.elim
  | unlock => exact ha.elim
  | _ => exact id

theorem Call.Plain.not_creates {a : Call} (ha : a.Plain) : ¬ (Api.sched a).Creates := by
  cases a with
  | create config t => exact ha.elim
  | _ => exact id

/-- No call of the scheduler reads the registry. -/
theorem Call.run_among (k : Kernel) (r : LinkedList TaskId) {a : Call} (ha : a.Plain) :
    a.run (k.among r) = (a.run k).among r := by
  cases a with
  | create config t => exact ha.elim
  | start tickInit =>
    simp only [run, Scheduler.start]
    split
    · rw [show ({ k.among r with isRunning := true } : Kernel)
        = ({ k with isRunning := true } : Kernel).among r from rfl, Kernel.performSwitch_among]
    · rfl
  | tick =>
    simp only [run, Scheduler.tick, Kernel.tickSection_among, Kernel.among_timeSlicingEnabled,
      Kernel.switchContext_among]
    split <;> rfl
  | yield =>
    simp only [run, Scheduler.yield, Kernel.processTimeSlicing_among, Kernel.switchContext_among]
  | delay n =>
    simp only [run, Scheduler.delay, Scheduler.yield, Kernel.processTimeSlicing_among,
      Kernel.switchContext_among, Kernel.among_isRunning, Kernel.among_currentTcb,
      Kernel.delaySection_among]
    split
    · rfl
    · split <;> rfl
  | block W timeout =>
    simp only [run, Scheduler.waitListBlock, Kernel.waitListBlockSection_among,
      Kernel.switchContext_among, Kernel.among_isRunning, Kernel.among_currentTcb]
    split <;> rfl
  | unblock W => exact Kernel.unblockHighest_among k r W
  | reschedule => exact Kernel.reschedule_among k r
  | lock => exact ha.elim
  | unlock => exact ha.elim

/-- Nor do the calls that take and release the scheduler lock. -/
theorem Call.run_among_of_not_creates (k : Kernel) (r : LinkedList TaskId) {a : Call}
    (ha : ¬ (Api.sched a).Creates) : a.run (k.among r) = (a.run k).among r := by
  cases a with
  | create config t => exact absurd trivial ha
  | lock => rfl
  | unlock => exact Kernel.unlock_among k r
  | _ => exact run_among k r trivial

/-- The critical sections of the calls do not read the registry either. -/
theorem Call.critical_among (k : Kernel) (r : LinkedList TaskId) {a : Call}
    (ha : ¬ (Api.sched a).Creates) : a.critical (k.among r) = (a.critical k).among r := by
  cases a with
  | create config t => exact absurd trivial ha
  | tick => simp only [critical, Kernel.tickSection_among]
  | yield => exact Kernel.processTimeSlicing_among k r
  | delay n =>
    simp only [critical, Kernel.processTimeSlicing_among, Kernel.among_isRunning,
      Kernel.among_currentTcb, Kernel.delaySection_among]
    split
    · rfl
    · split <;> rfl
  | block W timeout =>
    simp only [critical, Kernel.waitListBlockSection_among, Kernel.among_isRunning,
      Kernel.among_currentTcb]
    split <;> rfl
  | unblock W => exact Kernel.unblockHighest_among k r W
  | unlock => simp only [critical, Kernel.unlockSection_among]
  | start _ | reschedule | lock => rfl

theorem Call.allowed_among {k : Kernel} {r : LinkedList TaskId} {a : Call}
    (ha : ¬ (Api.sched a).Creates) : a.Allowed (k.among r) ↔ a.Allowed k := by
  cases a with
  | create config t => exact absurd trivial ha
  | _ => exact Iff.rfl

theorem Call.run_taskRegistry (k : Kernel) {a : Call} (ha : a.Plain) :
    (a.run k).taskRegistry = k.taskRegistry := by
  have h := Call.run_among k k.taskRegistry ha
  rw [show k.among k.taskRegistry = k from rfl] at h
  rw [h]
  rfl

/-! ## Leaving the cycle -/

namespace Kernel

variable {k k' : Kernel} {t u : TaskId} {r : LinkedList TaskId}

/-- `k'` is `k` without the ready task `t`: its node is taken out of its ready queue, and the task
is no longer registered. -/
structure Left (k k' : Kernel) (t : TaskId) : Prop where
  readyBitmap : k'.readyBitmap =
    if (k.readyQueue (k.tcb t).priority).nodes.erase t = [] then
      Function.update k.readyBitmap (k.tcb t).priority false
    else k.readyBitmap
  stateLists : k'.stateLists = k.stateLists.remove (.ready (k.tcb t).priority) t
  waitLists : k'.waitLists = k.waitLists
  taskRegistry : k'.taskRegistry = k.taskRegistry.remove t
  currentTcb : k'.currentTcb = k.currentTcb
  lockNesting : k'.lockNesting = k.lockNesting
  timeSlicingEnabled : k'.timeSlicingEnabled = k.timeSlicingEnabled
  tcb_of_ne : ∀ u, u ≠ t → k'.tcb u = k.tcb u

namespace Left

theorem live (hl : Left k k' t) (h : k.ListInv) : k'.Live u ↔ u ≠ t ∧ k.Live u := by
  rw [Live, hl.taskRegistry]
  exact h.registryWF.mem_remove

theorem listInv (hl : Left k k' t) (h : k.ListInv) (ht : k.Ready t) : k'.ListInv where
  bitmap := by
    refine h.bitmap.remove h.stateWF (h.mem_readyQueue_iff_ready.2 ht) hl.readyBitmap fun q => ?_
    rw [readyQueue, hl.stateLists]
  stateWF := hl.stateLists ▸ h.stateWF.remove (h.mem_readyQueue_iff_ready.2 ht)
  waitWF := hl.waitLists ▸ h.waitWF
  registryWF := hl.taskRegistry ▸ h.registryWF.remove ht.1
  consistent u hu := by
    obtain ⟨hut, hu⟩ := (hl.live h).1 hu
    rw [hl.tcb_of_ne u hut]
    exact h.consistent u hu
  mem_stateLists L u := by
    rw [hl.stateLists, h.stateWF.mem_remove, h.mem_stateLists, hl.live h]
    by_cases hut : u = t
    · simp [hut]
    · rw [hl.tcb_of_ne u hut]
      simp [hut]
  mem_waitLists W u := by
    rw [hl.waitLists, h.mem_waitLists, hl.live h]
    by_cases hut : u = t
    · subst hut
      simp [Tcb.eventList_of_isReady ht.2]
    · rw [hl.tcb_of_ne u hut]
      simp [hut]

theorem ready (hl : Left k k' t) (h : k.ListInv) (hu : k.Ready u) (hut : u ≠ t) : k'.Ready u := by
  rw [Ready, hl.tcb_of_ne u hut]
  exact ⟨(hl.live h).2 ⟨hut, hu.1⟩, hu.2⟩

end Left

end Kernel

namespace Task

variable {k : Kernel} {t : TaskId}

@[simp] theorem withdraw_tcb : (withdraw k t).tcb = k.tcb := by
  rw [withdraw]
  split
  · rw [removeReady_tcb]
  · rfl

theorem withdraw_currentTcb : (withdraw k t).currentTcb = k.currentTcb := by
  rw [withdraw]
  split
  · rw [removeReady_frame]
  · rfl

theorem withdraw_taskRegistry : (withdraw k t).taskRegistry = k.taskRegistry := by
  rw [withdraw]
  split
  · rw [removeReady_frame]
  · rfl

/-- The registry is all that is written. -/
theorem unregisterTask_eq : unregisterTask k t = k.among (unregisterTask k t).taskRegistry := by
  rw [unregisterTask]
  split <;> rfl

theorem deleteSection_taskRegistry (ht : k.Live t) :
    (deleteSection k t).taskRegistry = k.taskRegistry.remove t := by
  have hlive : (withdraw k t).Live t := by
    rw [Kernel.Live, withdraw_taskRegistry]
    exact ht
  rw [deleteSection, Kernel.modify_taskRegistry, unregisterTask, if_pos hlive]
  simp only [withdraw_taskRegistry]

end Task

/-- A `READY` task is taken out of its queue. -/
theorem Kernel.left_withdraw {k : Kernel} {r : LinkedList TaskId} {t : TaskId} {f : Tcb → Tcb}
    (h : (k.among r).ListInv) (ht : t ∈ r.nodes) (hs : (k.tcb t).state = .ready) :
    Left (k.among r) (((Task.withdraw k t).modify t f).among (r.remove t)) t := by
  have hready : (k.tcb t).state.isReady = true := by rw [hs]; rfl
  have hlinked := (links_of_isReady (c := t) h ht hready).1
  have hp : (k.tcb t).priority < maxPriorities := h.priority_lt (t := t) ht
  have hw : Task.withdraw k t = (removeReady k t).1 := if_pos hs
  have heq := removeReady_eq hp hlinked
  refine ⟨?_, ?_, ?_, rfl, ?_, ?_, ?_, fun u hu => ?_⟩
  · show (Task.withdraw k t).readyBitmap = _
    rw [hw, heq]
    rfl
  · show (Task.withdraw k t).stateLists = _
    rw [hw, heq]
    rfl
  · show (Task.withdraw k t).waitLists = _
    rw [hw, heq]
    rfl
  · exact Task.withdraw_currentTcb
  · show (Task.withdraw k t).lockNesting = _
    rw [hw, heq]
    rfl
  · show (Task.withdraw k t).timeSlicingEnabled = _
    rw [hw, heq]
    rfl
  · rw [among_tcb, among_tcb, modify_tcb_of_ne _ _ _ hu, Task.withdraw_tcb]

/-- A task that is in no list is made ready. -/
theorem Kernel.joined_addReady {k : Kernel} {r : LinkedList TaskId} {t : TaskId}
    (hp : (k.tcb t).priority < maxPriorities)
    (hb : ({ k.tcb t with state := .ready, stateLinked := true } : Tcb).Consistent) :
    Joined (k.among r) ((addReady k t).1.among (r.insertTail t)) t := by
  have htcb : (addReady k t).1.tcb t = { k.tcb t with state := .ready, stateLinked := true } := by
    rw [addReady_eq hp]
    simp
  refine ⟨?_, ?_, ?_, rfl, ?_, ?_, ?_, fun u hu => ?_, ?_, ?_⟩
  · rw [among_tcb, htcb]
    simp only [among, addReady_eq hp]
  · rw [among_tcb, htcb, among_stateLists, addReady_eq hp]
    rfl
  · rw [among_waitLists, addReady_waitLists]
    rfl
  · rw [among_currentTcb, addReady_frame]
    rfl
  · rw [among_lockNesting, addReady_frame]
    rfl
  · rw [among_timeSlicingEnabled, addReady_frame]
    rfl
  · rw [among_tcb, addReady_tcb_of_ne k t hu]
    rfl
  · rw [among_tcb, htcb]
  · rw [among_tcb, htcb]
    exact hb

/-! ## Staying behind in a list -/

namespace Kernel

variable {k : Kernel} {t : TaskId}

/-- The task is in some list. -/
def Linked (k : Kernel) (t : TaskId) : Prop :=
  (∃ L, t ∈ (k.stateLists L).nodes) ∨ ∃ W, t ∈ (k.waitLists W).nodes

theorem Linked.of_eq {k' : Kernel} (h : k.Linked t) (hs : k'.stateLists = k.stateLists)
    (hw : k'.waitLists = k.waitLists) : k'.Linked t := by
  rw [Linked, hs, hw]
  exact h

/-- A yield rotates a task within its queue. -/
theorem Linked.yield (h : k.Linked t) : (Scheduler.yield k).Linked t := by
  have hslice : (processTimeSlicing k).Linked t := by
    rcases h with ⟨L, hL⟩ | ⟨W, hW⟩
    · refine Or.inl ?_
      rw [processTimeSlicing]
      split
      · rename_i c _ _
        simp only
        split
        · by_cases htc : t = c
          · exact ⟨.ready (k.tcb c).priority, Bundle.mem_insertTail.2 (Or.inr ⟨rfl, htc⟩)⟩
          · exact ⟨L, Bundle.mem_insertTail.2 (Or.inl ((Bundle.mem_remove_of_ne htc).2 hL))⟩
        · exact ⟨L, hL⟩
      · exact ⟨L, hL⟩
    · refine Or.inr ⟨W, ?_⟩
      rw [processTimeSlicing_frame]
      exact hW
  rw [Scheduler.yield, switchContext_frame]
  exact hslice.of_eq rfl rfl

end Kernel

namespace Task

variable {k : Kernel} {handle : Option TaskId} {t : TaskId}

/-- Suspension leaves a task that is not `READY` in its lists. -/
theorem suspend_linked (magic : TaskId → ℕ) (ht : handle.or k.currentTcb = some t)
    (hs : (k.tcb t).state ≠ .ready) (h : k.Linked t) : (suspend k magic handle).1.Linked t := by
  rcases suspend_cases k magic handle with ⟨-, e⟩ | ⟨u, hu, -, e⟩
  · rw [e]
    exact h
  · obtain rfl := Option.some_inj.1 (ht.symm.trans hu)
    have hsection : (suspendSection k t).Linked t := by
      rw [suspendSection, withdraw, if_neg hs]
      exact h.of_eq rfl rfl
    rw [e]
    simp only
    split
    · exact hsection.yield
    · exact hsection

/-- So does deletion. -/
theorem delete_linked (magic : TaskId → ℕ) (ht : handle.or k.currentTcb = some t)
    (hs : (k.tcb t).state ≠ .ready) (h : k.Linked t) : (delete k magic handle).1.Linked t := by
  rcases delete_cases k magic handle with ⟨-, e⟩ | ⟨u, hu, -, e⟩
  · rw [e]
    exact h
  · obtain rfl := Option.some_inj.1 (ht.symm.trans hu)
    have hsection : (deleteSection k t).Linked t := by
      rw [deleteSection, unregisterTask_eq, withdraw, if_neg hs]
      exact h.of_eq rfl rfl
    rw [e]
    simp only
    split
    · exact hsection.yield
    · exact hsection

end Task

end Sertos
