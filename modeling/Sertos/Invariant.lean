import Sertos.Task

/-!
# The representation invariant

A control block *says* where its task is: a `READY` or `RUNNING` task is in the ready queue of its
priority, a `BLOCKED` one in the delay list if it counts ticks and in the wait list its
`wait_list` field names.  `ListInv` is the statement that all lists agree with what the control
blocks say, that the ready bitmap agrees with the queues, and that the lists keep the contract of
the list module.

What keeps it is in `Sertos.Moves`; here are the two ways in which a change of one task, or of no
list at all, is seen to keep it (`ListInv.of_move` and `ListInv.of_tcb`).
-/

set_option autoImplicit false

namespace Sertos

open Intrusive

/-! ## Where a control block says its task is -/

/-- The list through `state_node` that the control block puts its task in. -/
def Tcb.stateList (b : Tcb) : Option StateList :=
  match b.state with
  | .ready | .running => some (.ready b.priority)
  | .blocked => if 0 < b.delayTicks then some .delay else none
  | .suspended | .terminated => none

/-- The list through `event_node` that the control block puts its task in. -/
def Tcb.eventList (b : Tcb) : Option WaitList :=
  if b.state = .blocked then b.waitList else none

/-- The fields of one control block fit together. -/
structure Tcb.Consistent (b : Tcb) : Prop where
  /-- The priority is one the scheduler has a queue for. -/
  priority_lt : b.priority < maxPriorities
  /-- The task is in one of the three states of the scheduling cycle. -/
  active : b.state.isReady = true ∨ b.state = .blocked
  /-- Only a blocked task counts ticks or names a wait list. -/
  awake : b.state ≠ .blocked → b.delayTicks = 0 ∧ b.waitList = none
  /-- A blocked task can be woken: it counts ticks or is on a wait list. -/
  wakeable : b.state = .blocked → 0 < b.delayTicks ∨ b.waitList ≠ none
  /-- The links of `state_node` are `NULL` exactly if the task is in no such list. -/
  stateLinked_eq : b.stateLinked = b.stateList.isSome
  /-- The links of `event_node` are `NULL` exactly if the task is on no wait list. -/
  eventLinked_eq : b.eventLinked = b.eventList.isSome

theorem TaskState.isReady_iff {s : TaskState} : s.isReady = true ↔ s = .ready ∨ s = .running := by
  cases s <;> simp [isReady]

theorem Tcb.stateList_of_isReady {b : Tcb} (h : b.state.isReady = true) :
    b.stateList = some (.ready b.priority) := by
  rcases TaskState.isReady_iff.1 h with h | h <;> simp [stateList, h]

theorem Tcb.eventList_of_isReady {b : Tcb} (h : b.state.isReady = true) : b.eventList = none := by
  rcases TaskState.isReady_iff.1 h with h | h <;> simp [eventList, h]

theorem Tcb.stateList_of_blocked {b : Tcb} (h : b.state = .blocked) :
    b.stateList = if 0 < b.delayTicks then some .delay else none := by
  simp [stateList, h]

theorem Tcb.eventList_of_blocked {b : Tcb} (h : b.state = .blocked) : b.eventList = b.waitList := by
  simp [eventList, h]

theorem TaskState.ne_blocked_of_isReady {s : TaskState} (h : s.isReady = true) : s ≠ .blocked := by
  rintro rfl; simp [isReady] at h

namespace Kernel

/-- The ready bitmap agrees with the ready queues. -/
def BitmapOk (k : Kernel) : Prop :=
  ∀ p, k.readyBitmap p = true ↔ (k.readyQueue p).nodes ≠ []

/-- **The representation invariant.** -/
structure ListInv (k : Kernel) : Prop where
  bitmap : k.BitmapOk
  stateWF : k.stateLists.WF
  waitWF : k.waitLists.WF
  registryWF : k.taskRegistry.WF
  consistent : ∀ t, k.Live t → (k.tcb t).Consistent
  mem_stateLists : ∀ L t, t ∈ (k.stateLists L).nodes ↔ k.Live t ∧ (k.tcb t).stateList = some L
  mem_waitLists : ∀ W t, t ∈ (k.waitLists W).nodes ↔ k.Live t ∧ (k.tcb t).eventList = some W

namespace ListInv

variable {k k' : Kernel} {t : TaskId}

/-- A step that changes one task's control block and lists keeps the invariant if that task's
lists still agree with its control block. -/
theorem of_move (h : k.ListInv) (hreg : k'.taskRegistry = k.taskRegistry)
    (htcb : ∀ u, u ≠ t → k'.tcb u = k.tcb u)
    (hstate : ∀ L u, u ≠ t → (u ∈ (k'.stateLists L).nodes ↔ u ∈ (k.stateLists L).nodes))
    (hwait : ∀ W u, u ≠ t → (u ∈ (k'.waitLists W).nodes ↔ u ∈ (k.waitLists W).nodes))
    (hbitmap : k'.BitmapOk) (hsWF : k'.stateLists.WF) (hwWF : k'.waitLists.WF)
    (ht : k.Live t) (hc : (k'.tcb t).Consistent)
    (hts : ∀ L, t ∈ (k'.stateLists L).nodes ↔ (k'.tcb t).stateList = some L)
    (htw : ∀ W, t ∈ (k'.waitLists W).nodes ↔ (k'.tcb t).eventList = some W) : k'.ListInv where
  bitmap := hbitmap
  stateWF := hsWF
  waitWF := hwWF
  registryWF := hreg ▸ h.registryWF
  consistent u hu := by
    by_cases hut : u = t
    · exact hut ▸ hc
    · rw [htcb u hut]; exact h.consistent u (by rw [Live, ← hreg]; exact hu)
  mem_stateLists L u := by
    by_cases hut : u = t
    · subst hut
      rw [hts L, Live, hreg]
      exact ⟨fun hl => ⟨ht, hl⟩, fun hl => hl.2⟩
    · rw [hstate L u hut, htcb u hut, h.mem_stateLists, Live, Live, hreg]
  mem_waitLists W u := by
    by_cases hut : u = t
    · subst hut
      rw [htw W, Live, hreg]
      exact ⟨fun hl => ⟨ht, hl⟩, fun hl => hl.2⟩
    · rw [hwait W u hut, htcb u hut, h.mem_waitLists, Live, Live, hreg]

/-- A step that moves no node keeps the invariant if every control block still says the same. -/
theorem of_tcb (h : k.ListInv) (hreg : k'.taskRegistry = k.taskRegistry)
    (hs : k'.stateLists = k.stateLists) (hw : k'.waitLists = k.waitLists)
    (hb : k'.readyBitmap = k.readyBitmap)
    (htcb : ∀ u, k.Live u → (k'.tcb u).Consistent ∧ (k'.tcb u).stateList = (k.tcb u).stateList ∧
      (k'.tcb u).eventList = (k.tcb u).eventList) : k'.ListInv where
  bitmap p := by rw [hb, h.bitmap p, readyQueue, readyQueue, hs]
  stateWF := hs ▸ h.stateWF
  waitWF := hw ▸ h.waitWF
  registryWF := hreg ▸ h.registryWF
  consistent u hu := (htcb u (by rw [Live, ← hreg]; exact hu)).1
  mem_stateLists L u := by
    rw [hs, h.mem_stateLists, Live, Live, hreg]
    exact and_congr_right fun hu => by rw [(htcb u hu).2.1]
  mem_waitLists W u := by
    rw [hw, h.mem_waitLists, Live, Live, hreg]
    exact and_congr_right fun hu => by rw [(htcb u hu).2.2]

theorem mem_readyQueue (h : k.ListInv) (p : ℕ) :
    t ∈ (k.readyQueue p).nodes ↔
      k.Live t ∧ (k.tcb t).state.isReady = true ∧ (k.tcb t).priority = p := by
  rw [readyQueue, h.mem_stateLists]
  refine and_congr_right fun ht => ?_
  rcases (h.consistent t ht).active with hr | hb
  · simp [Tcb.stateList_of_isReady hr, hr]
  · rw [Tcb.stateList_of_blocked hb, hb]
    split <;> simp [TaskState.isReady]

theorem mem_delayList (h : k.ListInv) :
    t ∈ k.delayList.nodes ↔ k.Live t ∧ (k.tcb t).state = .blocked ∧ 0 < (k.tcb t).delayTicks := by
  rw [delayList, h.mem_stateLists]
  refine and_congr_right fun ht => ?_
  rcases (h.consistent t ht).active with hr | hb
  · simp [Tcb.stateList_of_isReady hr, TaskState.ne_blocked_of_isReady hr]
  · simp [Tcb.stateList_of_blocked hb, hb]

theorem mem_waitList (h : k.ListInv) (W : WaitList) :
    t ∈ (k.waitLists W).nodes ↔
      k.Live t ∧ (k.tcb t).state = .blocked ∧ (k.tcb t).waitList = some W := by
  rw [h.mem_waitLists]
  refine and_congr_right fun ht => ?_
  rw [Tcb.eventList]
  by_cases hb : (k.tcb t).state = .blocked <;> simp [hb]

theorem live_of_mem_stateLists (h : k.ListInv) {L : StateList}
    (hm : t ∈ (k.stateLists L).nodes) : k.Live t :=
  ((h.mem_stateLists L t).1 hm).1

theorem priority_lt (h : k.ListInv) (ht : k.Live t) : (k.tcb t).priority < maxPriorities :=
  (h.consistent t ht).priority_lt

end ListInv

end Kernel

namespace Scheduler

variable {k : Kernel} {t u c : TaskId}

theorem addReady_status (h : (k.tcb t).priority < maxPriorities) : (addReady k t).2 = .ok := by
  simp [addReady, Nat.not_le.2 h]

/-- What `sertos_scheduler_add_ready` does for a valid priority. -/
theorem addReady_eq (h : (k.tcb t).priority < maxPriorities) :
    (addReady k t).1 =
      { k with
        readyBitmap := Function.update k.readyBitmap (k.tcb t).priority true
        stateLists := k.stateLists.insertTail (.ready (k.tcb t).priority) t
        tcb := Function.update k.tcb t { k.tcb t with stateLinked := true, state := .ready } } := by
  simp [addReady, Nat.not_le.2 h, Kernel.insertTail, Kernel.modify]

/-- What `sertos_scheduler_remove_ready` does for a valid priority and a linked node. -/
theorem removeReady_eq (h : (k.tcb t).priority < maxPriorities)
    (hl : (k.tcb t).stateLinked = true) :
    (removeReady k t).1 =
      { k with
        readyBitmap :=
          if ((k.readyQueue (k.tcb t).priority).nodes.erase t) = [] then
            Function.update k.readyBitmap (k.tcb t).priority false
          else k.readyBitmap
        stateLists := k.stateLists.remove (.ready (k.tcb t).priority) t } := by
  simp only [removeReady, Nat.not_le.2 h, if_false, hl, if_true]
  rw [show ((k.removeDirect (.ready (k.tcb t).priority) t).readyQueue (k.tcb t).priority).nodes
    = (k.readyQueue (k.tcb t).priority).nodes.erase t from rfl]
  split <;> rfl

end Scheduler

end Sertos
