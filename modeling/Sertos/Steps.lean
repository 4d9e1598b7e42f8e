import Sertos.Switching

/-!
# What one call does

The moves and the switch assembled into the scheduler's calls: for each call, that it keeps the
kernel settled, and what it does to the tasks it is not about.

The tick is the only call that moves more than one task.  Its walk over the delay list is a fold of
`Kernel.countDown`, and what the walk does to one entry does not depend on the others.
-/

set_option autoImplicit false

namespace Sertos

open Intrusive

/-! ## The walk over the delay list -/

/-- What one tick makes of the control block of a task on the delay list. -/
def Tcb.countDown (b : Tcb) : Tcb :=
  if b.delayTicks = 1 then b.woken else { b with delayTicks := b.delayTicks - 1 }

namespace Kernel

/-- One round of the walk: an expiry, or one tick less. -/
def countDown (k : Kernel) (t : TaskId) : Kernel :=
  if (k.tcb t).delayTicks = 1 then k.wake t
  else k.modify t fun b => { b with delayTicks := b.delayTicks - 1 }

section CountDown

variable {k : Kernel} {t u : TaskId}

theorem countDown_tcb_of_ne (h : u ≠ t) : (k.countDown t).tcb u = k.tcb u := by
  rw [countDown]
  split
  · exact wake_tcb_of_ne k t h
  · exact modify_tcb_of_ne k t _ h

@[simp] theorem countDown_tcb_same : (k.countDown t).tcb t = (k.tcb t).countDown := by
  rw [countDown, Tcb.countDown]
  split <;> simp

@[simp] theorem countDown_taskRegistry : (k.countDown t).taskRegistry = k.taskRegistry := by
  rw [countDown]; split <;> rfl

@[simp] theorem countDown_currentTcb : (k.countDown t).currentTcb = k.currentTcb := by
  rw [countDown]; split <;> rfl

@[simp] theorem countDown_lockNesting : (k.countDown t).lockNesting = k.lockNesting := by
  rw [countDown]; split <;> rfl

@[simp] theorem countDown_isRunning : (k.countDown t).isRunning = k.isRunning := by
  rw [countDown]; split <;> rfl

@[simp] theorem countDown_reschedulePending :
    (k.countDown t).reschedulePending = k.reschedulePending := by
  rw [countDown]; split <;> rfl

@[simp] theorem countDown_timeSlicingEnabled :
    (k.countDown t).timeSlicingEnabled = k.timeSlicingEnabled := by
  rw [countDown]; split <;> rfl

theorem ListInv.countDown (h : k.ListInv) (hm : t ∈ k.delayList.nodes) :
    (k.countDown t).ListInv := by
  obtain ⟨ht, hb, hd⟩ := h.mem_delayList.1 hm
  rw [Kernel.countDown]
  split
  · exact h.wake ht hb
  · rename_i h1
    refine h.of_tcb rfl rfl rfl rfl fun u hu => ?_
    by_cases hut : u = t
    · subst hut
      have hcons := h.consistent u hu
      have hd' : 0 < (k.tcb u).delayTicks - 1 := by omega
      have hsl : Tcb.stateList { k.tcb u with delayTicks := (k.tcb u).delayTicks - 1 }
          = (k.tcb u).stateList := by
        simp [Tcb.stateList, hb, hd, hd']
      have hel : Tcb.eventList { k.tcb u with delayTicks := (k.tcb u).delayTicks - 1 }
          = (k.tcb u).eventList := rfl
      rw [modify_tcb_same]
      refine ⟨⟨hcons.priority_lt, hcons.active, fun hn => absurd hb hn, fun _ => Or.inl hd', ?_, ?_⟩,
        hsl, hel⟩
      · rw [hsl]; exact hcons.stateLinked_eq
      · rw [hel]; exact hcons.eventLinked_eq
    · rw [modify_tcb_of_ne _ _ _ hut]
      exact ⟨h.consistent u hu, rfl, rfl⟩

/-- The walk leaves the other entries of the delay list where they are. -/
theorem mem_delayList_countDown (hu : u ≠ t) :
    u ∈ (k.countDown t).delayList.nodes ↔ u ∈ k.delayList.nodes := by
  rw [countDown]
  split
  · simp only [delayList, wake]
    split <;> simp [Bundle.mem_remove_of_ne hu]
  · rfl

/-- The whole walk, over the entries `l`. -/
theorem ListInv.foldl_countDown {l : List TaskId} (h : k.ListInv)
    (hl : ∀ u ∈ l, u ∈ k.delayList.nodes) (hnd : l.Nodup) :
    (l.foldl Kernel.countDown k).ListInv := by
  induction l generalizing k with
  | nil => exact h
  | cons t l ih =>
    rw [List.nodup_cons] at hnd
    refine ih (h.countDown (hl t (by simp))) (fun u hu => ?_) hnd.2
    have hut : u ≠ t := fun e => hnd.1 (e ▸ hu)
    exact (mem_delayList_countDown hut).2 (hl u (by simp [hu]))

theorem foldl_countDown_tcb_of_notMem {l : List TaskId} (hu : u ∉ l) :
    (l.foldl countDown k).tcb u = k.tcb u := by
  induction l generalizing k with
  | nil => rfl
  | cons t l ih =>
    rw [List.mem_cons, not_or] at hu
    rw [List.foldl_cons, ih hu.2, countDown_tcb_of_ne hu.1]

/-- What the walk does to one entry does not depend on the others. -/
theorem foldl_countDown_tcb_of_mem {l : List TaskId} (hu : u ∈ l) (hnd : l.Nodup) :
    (l.foldl countDown k).tcb u = (k.tcb u).countDown := by
  induction l generalizing k with
  | nil => exact absurd hu List.not_mem_nil
  | cons t l ih =>
    rw [List.nodup_cons] at hnd
    rcases List.mem_cons.1 hu with rfl | hu
    · rw [List.foldl_cons, foldl_countDown_tcb_of_notMem hnd.1, countDown_tcb_same]
    · have hut : u ≠ t := fun e => hnd.1 (e ▸ hu)
      rw [List.foldl_cons, ih hu hnd.2, countDown_tcb_of_ne hut]

theorem foldl_countDown_frame (l : List TaskId) :
    (l.foldl countDown k).taskRegistry = k.taskRegistry ∧
      (l.foldl countDown k).currentTcb = k.currentTcb ∧
      (l.foldl countDown k).lockNesting = k.lockNesting ∧
      (l.foldl countDown k).isRunning = k.isRunning ∧
      (l.foldl countDown k).reschedulePending = k.reschedulePending ∧
      (l.foldl countDown k).timeSlicingEnabled = k.timeSlicingEnabled := by
  induction l generalizing k with
  | nil => simp
  | cons t l ih => simpa using ih (k := k.countDown t)

/-- The walk of `process_delayed_tasks` over the whole delay list. -/
def walk (k : Kernel) : Kernel := k.delayList.nodes.foldl countDown k

theorem walk_tcb (h : k.ListInv) (u : TaskId) :
    k.walk.tcb u = if u ∈ k.delayList.nodes then (k.tcb u).countDown else k.tcb u := by
  split
  · rename_i hu
    exact foldl_countDown_tcb_of_mem hu (h.stateWF.list _).nodup
  · rename_i hu
    exact foldl_countDown_tcb_of_notMem hu

@[simp] theorem walk_taskRegistry : k.walk.taskRegistry = k.taskRegistry :=
  (foldl_countDown_frame _).1

@[simp] theorem walk_currentTcb : k.walk.currentTcb = k.currentTcb :=
  (foldl_countDown_frame _).2.1

@[simp] theorem walk_lockNesting : k.walk.lockNesting = k.lockNesting :=
  (foldl_countDown_frame _).2.2.1

@[simp] theorem walk_isRunning : k.walk.isRunning = k.isRunning :=
  (foldl_countDown_frame _).2.2.2.1

@[simp] theorem walk_reschedulePending : k.walk.reschedulePending = k.reschedulePending :=
  (foldl_countDown_frame _).2.2.2.2.1

@[simp] theorem walk_timeSlicingEnabled : k.walk.timeSlicingEnabled = k.timeSlicingEnabled :=
  (foldl_countDown_frame _).2.2.2.2.2

theorem ListInv.walk (h : k.ListInv) : k.walk.ListInv :=
  h.foldl_countDown (fun _ hu => hu) (h.stateWF.list _).nodup

end CountDown

end Kernel

namespace Scheduler

open Kernel

variable {k : Kernel} {t u c : TaskId} {W : WaitList}

theorem processDelayedFrom_eq {l : List TaskId} (h : k.ListInv)
    (hl : ∀ u ∈ l, u ∈ k.delayList.nodes) (hnd : l.Nodup) (b : Bool) :
    processDelayedFrom k b l =
      (l.foldl countDown k, b || l.any fun u => (k.tcb u).delayTicks = 1) := by
  induction l generalizing k b with
  | nil => simp [processDelayedFrom]
  | cons t l ih =>
    rw [List.nodup_cons] at hnd
    have hm := hl t (by simp)
    have hstep : processDelayedTask k t = (k.countDown t, decide ((k.tcb t).delayTicks = 1)) := by
      rw [processDelayedTask_eq h hm, countDown]
      by_cases h1 : (k.tcb t).delayTicks = 1 <;> simp [h1]
    have hrest : ∀ u ∈ l, u ≠ t := fun u hu e => hnd.1 (e ▸ hu)
    rw [processDelayedFrom, hstep]
    rw [ih (h.countDown hm)
      (fun u hu => (mem_delayList_countDown (hrest u hu)).2 (hl u (by simp [hu]))) hnd.2]
    have hany : (l.any fun u => decide (((k.countDown t).tcb u).delayTicks = 1))
        = l.any fun u => decide ((k.tcb u).delayTicks = 1) := by
      rw [Bool.eq_iff_iff, List.any_eq_true, List.any_eq_true]
      refine exists_congr fun u => and_congr_right fun hu => ?_
      rw [countDown_tcb_of_ne (hrest u hu)]
    simp [hany, Bool.or_assoc]

/-- `process_delayed_tasks` counts every entry of the delay list down by one, wakes those that
reach zero, and reports whether there were any. -/
theorem processDelayedTasks_eq (h : k.ListInv) :
    processDelayedTasks k =
      (k.walk, k.delayList.nodes.any fun u => (k.tcb u).delayTicks = 1) := by
  rw [processDelayedTasks, processDelayedFrom_eq h (fun u hu => hu) (h.stateWF.list _).nodup]
  simp [walk]

end Scheduler

/-! ## Moves of the current task and of others -/

namespace Kernel

variable {k k' : Kernel} {t u c : TaskId}

theorem Inv.park (h : k.Inv) (hc : k.Ready c) {W : Option WaitList} {n : ℕ}
    (hw : 0 < n ∨ W ≠ none) : (k.park c W n).Inv where
  lists := h.lists.park hc.1 hc.2 hw
  current_live := h.current_live
  running u hu hs := by
    by_cases huc : u = c
    · subst huc; simp at hs
    · rw [park_tcb_of_ne k c W n huc] at hs
      exact h.running u hu hs

theorem Inv.wake (h : k.Inv) (ht : k.Live t) (hb : (k.tcb t).state = .blocked) :
    (k.wake t).Inv where
  lists := h.lists.wake ht hb
  current_live := h.current_live
  running u hu hs := by
    by_cases hut : u = t
    · subst hut; simp at hs
    · rw [wake_tcb_of_ne k t hut] at hs
      exact h.running u hu hs

theorem Settled.wake (h : k.Settled) (ht : k.Live t) (hb : (k.tcb t).state = .blocked) :
    (k.wake t).Settled :=
  { h.toInv.wake ht hb with
    current_running := fun c hc => by
      have hrun := h.current_running c hc
      have hct : c ≠ t := by rintro rfl; rw [hb] at hrun; exact absurd hrun (by simp)
      rwa [wake_tcb_of_ne k t hct] }

theorem Inv.rotate (h : k.Inv) (hc : k.Ready c) : (k.rotate c).Inv :=
  ⟨h.lists.rotate hc.1 hc.2, h.current_live, h.running⟩

/-- The state the walk leaves a task in. -/
theorem walk_state (h : k.ListInv) (u : TaskId) :
    (k.walk.tcb u).state =
      if u ∈ k.delayList.nodes ∧ (k.tcb u).delayTicks = 1 then .ready else (k.tcb u).state := by
  rw [walk_tcb h]
  by_cases hu : u ∈ k.delayList.nodes
  · by_cases h1 : (k.tcb u).delayTicks = 1 <;> simp [hu, h1, Tcb.countDown]
  · simp [hu]

theorem ready_walk (h : k.ListInv) (u : TaskId) :
    k.walk.Ready u ↔ k.Ready u ∨ (u ∈ k.delayList.nodes ∧ (k.tcb u).delayTicks = 1) := by
  rw [Ready, Ready, Live, Live, walk_taskRegistry, walk_state h]
  by_cases hu : u ∈ k.delayList.nodes ∧ (k.tcb u).delayTicks = 1
  · have hlive : u ∈ k.taskRegistry.nodes := h.live_of_mem_stateLists hu.1
    simp [hu, TaskState.isReady, hlive]
  · simp [hu]

theorem Inv.walk (h : k.Inv) : k.walk.Inv where
  lists := h.lists.walk
  current_live c hc := by
    rw [walk_currentTcb] at hc
    rw [Live, walk_taskRegistry]
    exact h.current_live c hc
  running u hu hs := by
    rw [Live, walk_taskRegistry] at hu
    rw [walk_state h.lists] at hs
    rw [walk_currentTcb]
    split at hs
    · simp at hs
    · exact h.running u hu hs

theorem Settled.walk (h : k.Settled) : k.walk.Settled :=
  { h.toInv.walk with
    current_running := fun c hc => by
      rw [walk_currentTcb] at hc
      have hrun := h.current_running c hc
      rw [walk_state h.lists]
      split
      · rename_i hm
        rw [(h.lists.mem_delayList.1 hm.1).2.1] at hrun
        exact absurd hrun (by simp)
      · exact hrun }

end Kernel

/-! ## Tick and yield -/

namespace Scheduler

open Kernel

variable {k : Kernel} {t u c : TaskId} {W : WaitList}

/-- With a ready current task, time slicing rotates that task or does nothing. -/
theorem processTimeSlicing_cases (h : k.Inv)
    (hcur : ∀ c, k.currentTcb = some c → k.Ready c) :
    processTimeSlicing k = k ∨
      ∃ c, k.currentTcb = some c ∧ k.Ready c ∧ processTimeSlicing k = k.rotate c := by
  cases hc : k.currentTcb with
  | none => exact Or.inl (by simp [processTimeSlicing, hc])
  | some c =>
    have hr := hcur c hc
    rw [processTimeSlicing_of_ready h.lists hc hr.1 hr.2]
    split
    · exact Or.inr ⟨c, rfl, hr, rfl⟩
    · exact Or.inl rfl

theorem inv_processTimeSlicing (h : k.Inv) (hcur : ∀ c, k.currentTcb = some c → k.Ready c) :
    (processTimeSlicing k).Inv := by
  rcases processTimeSlicing_cases h hcur with e | ⟨c, -, hr, e⟩
  · rw [e]; exact h
  · rw [e]; exact h.rotate hr

end Scheduler

namespace Kernel

variable {k k' : Kernel} {t u c : TaskId}

/-- Only the order within the ready queues differs. -/
structure Rotated (k k' : Kernel) : Prop where
  tcb : k'.tcb = k.tcb
  waitLists : k'.waitLists = k.waitLists
  taskRegistry : k'.taskRegistry = k.taskRegistry
  currentTcb : k'.currentTcb = k.currentTcb
  isRunning : k'.isRunning = k.isRunning
  lockNesting : k'.lockNesting = k.lockNesting
  reschedulePending : k'.reschedulePending = k.reschedulePending
  timeSlicingEnabled : k'.timeSlicingEnabled = k.timeSlicingEnabled

theorem Rotated.processTimeSlicing (h : k.Inv) (hcur : ∀ c, k.currentTcb = some c → k.Ready c) :
    Rotated k (Scheduler.processTimeSlicing k) := by
  rcases Scheduler.processTimeSlicing_cases h hcur with e | ⟨c, -, -, e⟩ <;> rw [e] <;>
    exact ⟨rfl, rfl, rfl, rfl, rfl, rfl, rfl, rfl⟩

theorem Rotated.ready (h : Rotated k k') : k'.Ready u ↔ k.Ready u := by
  rw [Ready, Ready, Live, Live, h.taskRegistry, h.tcb]

theorem Settled.processTimeSlicing (h : k.Settled) : (Scheduler.processTimeSlicing k).Settled := by
  have hcur : ∀ c, k.currentTcb = some c → k.Ready c := fun c hc => h.ready_current hc
  have hrot := Rotated.processTimeSlicing h.toInv hcur
  refine { Scheduler.inv_processTimeSlicing h.toInv hcur with current_running := fun c hc => ?_ }
  rw [hrot.currentTcb] at hc
  rw [hrot.tcb]
  exact h.current_running c hc

/-- What the critical section of the tick does, apart from the order within the ready queues. -/
structure Ticked (k k' : Kernel) : Prop where
  tcb : ∀ u, k'.tcb u = if u ∈ k.delayList.nodes then (k.tcb u).countDown else k.tcb u
  taskRegistry : k'.taskRegistry = k.taskRegistry
  currentTcb : k'.currentTcb = k.currentTcb
  isRunning : k'.isRunning = k.isRunning
  lockNesting : k'.lockNesting = k.lockNesting
  reschedulePending : k'.reschedulePending = k.reschedulePending
  timeSlicingEnabled : k'.timeSlicingEnabled = k.timeSlicingEnabled

/-- The tick counter advanced. -/
def bumpTicks (k : Kernel) : Kernel := { k with systemTicks := k.systemTicks + 1 }

theorem sameCore_bumpTicks (k : Kernel) : SameCore k k.bumpTicks :=
  ⟨rfl, rfl, rfl, rfl, rfl, rfl⟩

/-- The tick counter advanced and the walk done. -/
def advance (k : Kernel) : Kernel := k.bumpTicks.walk

theorem Inv.advance (h : k.Inv) : k.advance.Inv := ((sameCore_bumpTicks k).inv h).walk

theorem Settled.advance (h : k.Settled) : k.advance.Settled :=
  ((sameCore_bumpTicks k).settled h).walk

theorem tickSection_eq (h : k.Inv) :
    Scheduler.tickSection k = (Scheduler.processTimeSlicing k.advance,
      k.delayList.nodes.any fun u => (k.tcb u).delayTicks = 1) := by
  have h' := (sameCore_bumpTicks k).inv h
  change (Scheduler.processTimeSlicing (Scheduler.processDelayedTasks k.bumpTicks).1,
    (Scheduler.processDelayedTasks k.bumpTicks).2) = _
  rw [Scheduler.processDelayedTasks_eq h'.lists]
  rfl

theorem ticked_advance (h : k.Inv) : Ticked k k.advance :=
  ⟨walk_tcb ((sameCore_bumpTicks k).inv h).lists, walk_taskRegistry, walk_currentTcb,
    walk_isRunning, walk_lockNesting, walk_reschedulePending, walk_timeSlicingEnabled⟩

theorem Ticked.trans_rotated {k'' : Kernel} (h : Ticked k k') (hr : Rotated k' k'') :
    Ticked k k'' :=
  ⟨fun u => by rw [hr.tcb, h.tcb], hr.taskRegistry.trans h.taskRegistry,
    hr.currentTcb.trans h.currentTcb, hr.isRunning.trans h.isRunning,
    hr.lockNesting.trans h.lockNesting, hr.reschedulePending.trans h.reschedulePending,
    hr.timeSlicingEnabled.trans h.timeSlicingEnabled⟩

theorem Ticked.priority (h : Ticked k k') (u : TaskId) :
    (k'.tcb u).priority = (k.tcb u).priority := by
  rw [h.tcb, Tcb.countDown]
  split
  · split <;> rfl
  · rfl

theorem Ticked.ready (h : Ticked k k') (hk : k.ListInv) (u : TaskId) :
    k'.Ready u ↔ k.Ready u ∨ (u ∈ k.delayList.nodes ∧ (k.tcb u).delayTicks = 1) := by
  have hst := walk_state hk u
  have hrw := ready_walk hk u
  rw [Ready, Live, walk_taskRegistry, walk_tcb hk] at hrw
  rw [Ready, Live, h.taskRegistry, h.tcb]
  exact hrw

theorem Ticked.settled (h : k.Settled) : Ticked k (Scheduler.tickSection k).1 := by
  rw [tickSection_eq h.toInv]
  refine (ticked_advance h.toInv).trans_rotated (Rotated.processTimeSlicing h.toInv.advance ?_)
  exact fun c hc => h.advance.ready_current hc

theorem Settled.tickSection (h : k.Settled) : (Scheduler.tickSection k).1.Settled := by
  rw [tickSection_eq h.toInv]
  exact h.advance.processTimeSlicing

/-- A tick requests a switch unless it made no task ready. -/
theorem Settled.tick_cases (h : k.Settled) :
    Scheduler.tick k = Scheduler.switchContext (Scheduler.tickSection k).1 ∨
    (Scheduler.tick k = (Scheduler.tickSection k).1 ∧
      ∀ u, (Scheduler.tickSection k).1.Ready u ↔ k.Ready u) := by
  rw [Scheduler.tick]
  by_cases hneed : ((Scheduler.tickSection k).2 || (Scheduler.tickSection k).1.timeSlicingEnabled)
      = true
  · exact Or.inl (by simp only [hneed, if_true])
  · refine Or.inr ⟨by simp only [hneed]; rfl, fun u => ?_⟩
    rw [(Ticked.settled h).ready h.lists]
    rw [tickSection_eq h.toInv] at hneed
    simp only [Bool.or_eq_true, List.any_eq_true, decide_eq_true_eq, not_or, not_exists] at hneed
    exact ⟨fun hu => hu.resolve_right fun hm => hneed.1 u hm, Or.inl⟩

/-! ## Blocking and unblocking -/

/-- A task that is ready beside the current one stays ready when the current one blocks. -/
theorem ready_park {W : Option WaitList} {ticks : ℕ} (hu : k.Ready u) (huc : u ≠ c) :
    (k.park c W ticks).Ready u := by
  rw [Ready, park_tcb_of_ne k c W ticks huc]
  exact hu

/-- **A blocking call that switches away.**  The scheduler is unlocked and another task is
ready. -/
theorem Settled.park_switchContext (h : k.Settled) (hc : k.currentTcb = some c)
    (hl : k.lockNesting = 0) (hu : k.Ready u) (huc : u ≠ c) {W : Option WaitList} {ticks : ℕ}
    (hw : 0 < ticks ∨ W ≠ none) : (Scheduler.switchContext (k.park c W ticks)).Settled := by
  have hinv := h.toInv.park (h.ready_current hc) hw
  refine hinv.switchContext_settled hl (ready_park hu huc) fun d hd => ?_
  obtain rfl : c = d := Option.some_inj.1 (hc.symm.trans hd)
  simp

/-- The ticks a blocking call counts: none if it waits forever. -/
def timeoutTicks (timeout : ℕ) : ℕ := if timeout = waitForever then 0 else timeout

theorem waitListBlock_eq_park (h : k.Settled) (hrun : k.isRunning = true)
    (hc : k.currentTcb = some c) {W : WaitList} {timeout : ℕ} (hn : timeout ≠ 0) :
    Scheduler.waitListBlock k W timeout =
      (Scheduler.switchContext (k.park c (some W) (timeoutTicks timeout)), none) := by
  obtain ⟨hlive, hr⟩ := h.ready_current hc
  simp only [Scheduler.waitListBlock, hrun, hc]
  rw [Scheduler.waitListBlockSection_eq_park h.lists hlive hr hn]
  rfl

/-- `sertos_scheduler_wait_list_unblock_highest` wakes the head of the list or does nothing. -/
theorem unblockHighest_cases (h : k.ListInv) (W : WaitList) :
    ((k.waitLists W).nodes = [] ∧ Scheduler.waitListUnblockHighest k W = (k, none)) ∨
    ∃ t, (k.waitLists W).nodes.head? = some t ∧ k.Live t ∧ (k.tcb t).state = .blocked ∧
      (k.tcb t).waitList = some W ∧
      Scheduler.waitListUnblockHighest k W = (k.wake t, some t) := by
  cases hW : (k.waitLists W).nodes with
  | nil => exact Or.inl ⟨rfl, Scheduler.waitListUnblockHighest_nil hW⟩
  | cons t rest =>
    obtain ⟨ht, hb, hwl⟩ := (h.mem_waitList W).1 (show t ∈ (k.waitLists W).nodes by simp [hW])
    exact Or.inr ⟨t, rfl, ht, hb, hwl, Scheduler.waitListUnblockHighest_cons h hW⟩

theorem Settled.unblockHighest (h : k.Settled) (W : WaitList) :
    (Scheduler.waitListUnblockHighest k W).1.Settled := by
  rcases unblockHighest_cases h.lists W with ⟨-, e⟩ | ⟨t, -, ht, hb, -, e⟩
  · rw [e]; exact h
  · rw [e]; exact h.wake ht hb

theorem ready_wake (hu : k.Ready u) : (k.wake t).Ready u := by
  by_cases hut : u = t
  · subst hut
    exact ⟨hu.1, by simp [TaskState.isReady]⟩
  · rw [Ready, wake_tcb_of_ne k t hut]; exact hu

end Kernel

end Sertos
