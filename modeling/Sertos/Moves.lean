import Sertos.Invariant

/-!
# The moves of a task

The scheduler's functions change the lists in four ways only:

* `Kernel.park` takes a ready task out of its queue and blocks it — `sertos_scheduler_delay` and
  `sertos_scheduler_wait_list_block`;
* `Kernel.wake` makes a blocked task ready — `sertos_scheduler_wait_list_unblock_highest` and an
  expiry in `process_delayed_tasks`, which turn out to be the *same* state change;
* `Kernel.rotate` moves the current task to the tail of its queue — `process_time_slicing`;
* `Kernel.requeue` moves a ready task to the queue of another priority —
`apply_priority_inheritance`.

Each function is shown to be one of these, and each of these to keep the representation invariant,
so that no proof about a run has to unfold a function again.
-/

set_option autoImplicit false

namespace Sertos

open Intrusive

/-! ## Four moves -/

/-- The control block of a task that is made ready. -/
@[simps] def Tcb.woken (b : Tcb) : Tcb :=
  { b with
    state := .ready
    delayTicks := 0
    waitList := none
    stateLinked := true
    eventLinked := false }

/-- The control block of a task that blocks. -/
@[simps] def Tcb.parked (b : Tcb) (W : Option WaitList) (ticks : ℕ) : Tcb :=
  { b with
    state := .blocked
    delayTicks := ticks
    waitList := W
    stateLinked := decide (0 < ticks)
    eventLinked := W.isSome }

namespace Kernel

/-- Takes the ready task `c` out of its queue and blocks it: on the wait list `W`, if there is
one, and for `ticks` ticks, if there are any. -/
def park (k : Kernel) (c : TaskId) (W : Option WaitList) (ticks : ℕ) : Kernel :=
  { k with
    readyBitmap :=
      if (k.readyQueue (k.tcb c).priority).nodes.erase c = [] then
        Function.update k.readyBitmap (k.tcb c).priority false
      else k.readyBitmap
    stateLists :=
      if 0 < ticks then
        (k.stateLists.remove (.ready (k.tcb c).priority) c).insertTail .delay c
      else k.stateLists.remove (.ready (k.tcb c).priority) c
    waitLists := match W with
      | some W => k.waitLists.insertByKey (fun u => (k.tcb u).priority) W c
      | none => k.waitLists
    tcb := Function.update k.tcb c ((k.tcb c).parked W ticks) }

/-- Makes the blocked task `t` ready, off the delay list and off its wait list. -/
def wake (k : Kernel) (t : TaskId) : Kernel :=
  { k with
    readyBitmap := Function.update k.readyBitmap (k.tcb t).priority true
    stateLists :=
      (if 0 < (k.tcb t).delayTicks then k.stateLists.remove .delay t
        else k.stateLists).insertTail (.ready (k.tcb t).priority) t
    waitLists := match (k.tcb t).waitList with
      | some W => k.waitLists.remove W t
      | none => k.waitLists
    tcb := Function.update k.tcb t (k.tcb t).woken }

/-- Moves the ready task `c` to the tail of its queue. -/
def rotate (k : Kernel) (c : TaskId) : Kernel :=
  { k with
    stateLists := (k.stateLists.remove (.ready (k.tcb c).priority) c).insertTail
      (.ready (k.tcb c).priority) c }

/-- Moves the ready task `t` to the queue of priority `p`. -/
def requeue (k : Kernel) (t : TaskId) (p : ℕ) : Kernel :=
  { k with
    readyBitmap := Function.update
      (if (k.readyQueue (k.tcb t).priority).nodes.erase t = [] then
        Function.update k.readyBitmap (k.tcb t).priority false
      else k.readyBitmap) p true
    stateLists := (k.stateLists.remove (.ready (k.tcb t).priority) t).insertTail (.ready p) t
    tcb := Function.update k.tcb t { k.tcb t with priority := p } }

section Fields

variable (k : Kernel) (t u c : TaskId) (W : Option WaitList) (ticks : ℕ)

@[simp] theorem park_tcb_of_ne {u : TaskId} (h : u ≠ c) : (k.park c W ticks).tcb u = k.tcb u := by
  simp [park, h]

@[simp] theorem park_taskRegistry : (k.park c W ticks).taskRegistry = k.taskRegistry := rfl
@[simp] theorem park_currentTcb : (k.park c W ticks).currentTcb = k.currentTcb := rfl
@[simp] theorem park_lockNesting : (k.park c W ticks).lockNesting = k.lockNesting := rfl
@[simp] theorem park_isRunning : (k.park c W ticks).isRunning = k.isRunning := rfl

@[simp] theorem park_tcb_same : (k.park c W ticks).tcb c = (k.tcb c).parked W ticks := by
  simp [park]

@[simp] theorem wake_tcb_of_ne {u : TaskId} (h : u ≠ t) : (k.wake t).tcb u = k.tcb u := by
  simp [wake, h]

@[simp] theorem wake_tcb_same : (k.wake t).tcb t = (k.tcb t).woken := by
  simp [wake]

theorem wake_waitLists_some {V : WaitList} (h : (k.tcb t).waitList = some V) :
    (k.wake t).waitLists = k.waitLists.remove V t := by
  simp [wake, h]

theorem wake_waitLists_none (h : (k.tcb t).waitList = none) :
    (k.wake t).waitLists = k.waitLists := by
  simp [wake, h]

@[simp] theorem wake_taskRegistry : (k.wake t).taskRegistry = k.taskRegistry := rfl
@[simp] theorem wake_currentTcb : (k.wake t).currentTcb = k.currentTcb := rfl
@[simp] theorem wake_lockNesting : (k.wake t).lockNesting = k.lockNesting := rfl
@[simp] theorem wake_isRunning : (k.wake t).isRunning = k.isRunning := rfl

@[simp] theorem rotate_tcb : (k.rotate c).tcb = k.tcb := rfl
@[simp] theorem rotate_waitLists : (k.rotate c).waitLists = k.waitLists := rfl
@[simp] theorem rotate_taskRegistry : (k.rotate c).taskRegistry = k.taskRegistry := rfl
@[simp] theorem rotate_currentTcb : (k.rotate c).currentTcb = k.currentTcb := rfl

theorem requeue_tcb_of_ne {u : TaskId} (p : ℕ) (h : u ≠ t) : (k.requeue t p).tcb u = k.tcb u := by
  simp [requeue, h]

@[simp] theorem requeue_tcb_same (p : ℕ) :
    (k.requeue t p).tcb t = { k.tcb t with priority := p } := by
  simp [requeue]

end Fields

/-! ## The moves keep the invariant -/

variable {k : Kernel} {t u c : TaskId}

/-- The links of a ready task's `state_node` are set, those of its `event_node` are not. -/
theorem links_of_consistent {b : Tcb} (h : b.Consistent) (hr : b.state.isReady = true) :
    b.stateLinked = true ∧ b.eventLinked = false := by
  rw [h.stateLinked_eq, h.eventLinked_eq, Tcb.stateList_of_isReady hr, Tcb.eventList_of_isReady hr]
  exact ⟨rfl, rfl⟩

/-- Clearing the bit of a queue that a removal empties keeps the bitmap right. -/
theorem BitmapOk.remove {k' : Kernel} {p : ℕ} (h : k.BitmapOk) (hwf : k.stateLists.WF)
    (hm : c ∈ (k.readyQueue p).nodes)
    (hb : k'.readyBitmap =
      if (k.readyQueue p).nodes.erase c = [] then Function.update k.readyBitmap p false
      else k.readyBitmap)
    (hq : ∀ q, (k'.readyQueue q).nodes = (k.stateLists.remove (.ready p) c (.ready q)).nodes) :
    k'.BitmapOk := by
  intro q
  rw [hb, hq q]
  by_cases hqp : q = p
  · subst hqp
    rw [show (k.stateLists.remove (.ready q) c (.ready q)).nodes
      = (k.readyQueue q).nodes.erase c from rfl]
    have hbit : k.readyBitmap q = true := (h q).2 (List.ne_nil_of_mem hm)
    by_cases he : (k.readyQueue q).nodes.erase c = []
    · simp [he]
    · simp [he, hbit]
  · have hne : StateList.ready q ≠ .ready p := by simpa using hqp
    rw [hwf.remove_of_ne hm hne]
    have hbit : (if (k.readyQueue p).nodes.erase c = [] then Function.update k.readyBitmap p false
        else k.readyBitmap) q = k.readyBitmap q := by
      split
      · simp [hqp]
      · rfl
    rw [hbit]
    exact h q

/-- Setting the bit of a queue that an insertion fills keeps the bitmap right. -/
theorem BitmapOk.insertTail {k' : Kernel} {p : ℕ} (h : k.BitmapOk)
    (hb : k'.readyBitmap = Function.update k.readyBitmap p true)
    (hq : (k'.readyQueue p).nodes ≠ [])
    (hq' : ∀ q, q ≠ p → (k'.readyQueue q).nodes = (k.readyQueue q).nodes) : k'.BitmapOk := by
  intro q
  rw [hb]
  by_cases hqp : q = p
  · subst hqp; simpa using hq
  · simp only [ne_eq, hqp, not_false_eq_true, Function.update_of_ne]
    rw [hq' q hqp]
    exact h q

theorem ListInv.park (h : k.ListInv) (hc : k.Live c) (hr : (k.tcb c).state.isReady = true)
    {W : Option WaitList} {ticks : ℕ} (hw : 0 < ticks ∨ W ≠ none) : (k.park c W ticks).ListInv := by
  have hm : c ∈ (k.readyQueue (k.tcb c).priority).nodes := (h.mem_readyQueue _).2 ⟨hc, hr, rfl⟩
  have hwf : (k.stateLists.remove (.ready (k.tcb c).priority) c).WF := h.stateWF.remove hm
  have hfree : (k.stateLists.remove (.ready (k.tcb c).priority) c).Free c := h.stateWF.free_remove
  have hwfree : k.waitLists.Free c := fun V hV =>
    TaskState.ne_blocked_of_isReady hr ((h.mem_waitList V).1 hV).2.1
  refine h.of_move (t := c) rfl (fun u hu => by simp [hu]) (fun L u hu => ?_) (fun V u hu => ?_)
    ?_ ?_ ?_ hc ?_ ?_ ?_
  · simp only [Kernel.park]
    split <;> simp [hu, Bundle.mem_remove_of_ne]
  · cases W <;> simp [Kernel.park, hu]
  · refine h.bitmap.remove h.stateWF hm rfl fun q => ?_
    simp only [readyQueue, Kernel.park]
    split
    · rw [Bundle.insertTail_of_ne (by simp)]
    · rfl
  · simp only [Kernel.park]
    split
    · exact hwf.insertTail hfree
    · exact hwf
  · cases W with
    | none => exact h.waitWF
    | some V => exact h.waitWF.insertByKey hwfree
  · refine ⟨by simpa using h.priority_lt hc, Or.inr (by simp), fun hn => absurd (by simp) hn,
      fun _ => by simpa using hw, ?_, ?_⟩
    · by_cases ht : 0 < ticks <;> simp [Tcb.stateList, ht]
    · simp [Tcb.eventList]
  · intro L
    by_cases ht : 0 < ticks
    · simp [Kernel.park, ht, hfree L, Tcb.stateList, @eq_comm _ L]
    · simp [Kernel.park, ht, hfree L, Tcb.stateList]
  · intro V
    cases W with
    | none => simp [Kernel.park, hwfree V, Tcb.eventList]
    | some V' =>
      simp [Kernel.park, hwfree V, Tcb.eventList, @eq_comm _ V]

theorem ListInv.wake (h : k.ListInv) (ht : k.Live t) (hb : (k.tcb t).state = .blocked) :
    (k.wake t).ListInv := by
  have hcons := h.consistent t ht
  have hready : ∀ p, t ∉ (k.readyQueue p).nodes := fun p hm => by
    have := ((h.mem_readyQueue p).1 hm).2.1
    rw [hb] at this
    exact absurd this (by simp [TaskState.isReady])
  -- the bundle with the node of `t` taken off the delay list, if it was there
  have hoff : ∃ B : Bundle StateList TaskId,
      (if 0 < (k.tcb t).delayTicks then k.stateLists.remove .delay t else k.stateLists) = B ∧
      B.WF ∧ B.Free t ∧ (∀ p, (B (.ready p)).nodes = (k.readyQueue p).nodes) ∧
      ∀ L u, u ≠ t → (u ∈ (B L).nodes ↔ u ∈ (k.stateLists L).nodes) := by
    refine ⟨_, rfl, ?_⟩
    by_cases hd : 0 < (k.tcb t).delayTicks
    · have hm : t ∈ (k.stateLists .delay).nodes := h.mem_delayList.2 ⟨ht, hb, hd⟩
      rw [if_pos hd]
      refine ⟨h.stateWF.remove hm, h.stateWF.free_remove, fun p => ?_,
        fun L u hu => Bundle.mem_remove_of_ne hu⟩
      rw [h.stateWF.remove_of_ne hm (by simp)]; rfl
    · rw [if_neg hd]
      refine ⟨h.stateWF, fun L hm => ?_, fun _ => rfl, fun _ _ _ => Iff.rfl⟩
      cases L with
      | ready p => exact hready p hm
      | delay => exact hd (h.mem_delayList.1 hm).2.2
  obtain ⟨B, hB, hBwf, hBfree, hBready, hBmem⟩ := hoff
  have hwaitmem : ∀ W, t ∈ (k.waitLists W).nodes ↔ (k.tcb t).waitList = some W := fun W => by
    rw [h.mem_waitList]; simp [ht, hb]
  refine h.of_move (t := t) rfl (fun u hu => by simp [hu]) (fun L u hu => ?_) (fun V u hu => ?_)
    ?_ ?_ ?_ ht ?_ ?_ ?_
  · simp only [Kernel.wake, hB]
    simp [hu, hBmem L u hu]
  · cases hW : (k.tcb t).waitList with
    | some W => rw [wake_waitLists_some k t hW]; exact Bundle.mem_remove_of_ne hu
    | none => rw [wake_waitLists_none k t hW]
  · refine h.bitmap.insertTail rfl ?_ fun q hq => ?_
    · simp only [readyQueue, Kernel.wake, hB]
      exact List.ne_nil_of_mem (a := t) (by simp)
    · simp only [readyQueue, Kernel.wake, hB]
      rw [Bundle.insertTail_of_ne (by simpa using hq), hBready q]; rfl
  · simp only [Kernel.wake, hB]
    exact hBwf.insertTail hBfree
  · cases hW : (k.tcb t).waitList with
    | some W => rw [wake_waitLists_some k t hW]; exact h.waitWF.remove ((hwaitmem W).2 hW)
    | none => rw [wake_waitLists_none k t hW]; exact h.waitWF
  · exact ⟨by simpa using hcons.priority_lt, Or.inl (by simp [TaskState.isReady]),
      fun _ => by simp, fun hn => by simp at hn, by simp [Tcb.stateList],
      by simp [Tcb.eventList]⟩
  · intro L
    simp only [Kernel.wake, hB]
    simp [hBfree L, Tcb.stateList, eq_comm]
  · intro V
    cases hW : (k.tcb t).waitList with
    | some W =>
      rw [wake_waitLists_some k t hW]
      simp [h.waitWF.mem_remove, Tcb.eventList]
    | none =>
      rw [wake_waitLists_none k t hW]
      simp [hwaitmem V, hW, Tcb.eventList]

theorem ListInv.rotate (h : k.ListInv) (hc : k.Live c) (hr : (k.tcb c).state.isReady = true) :
    (k.rotate c).ListInv := by
  have hm : c ∈ (k.readyQueue (k.tcb c).priority).nodes := (h.mem_readyQueue _).2 ⟨hc, hr, rfl⟩
  have hwf : (k.stateLists.remove (.ready (k.tcb c).priority) c).WF := h.stateWF.remove hm
  have hfree : (k.stateLists.remove (.ready (k.tcb c).priority) c).Free c := h.stateWF.free_remove
  refine h.of_move (t := c) rfl (fun u _ => rfl) (fun L u hu => ?_) (fun V u _ => Iff.rfl)
    ?_ (hwf.insertTail hfree) h.waitWF hc (h.consistent c hc) (fun L => ?_) (fun V => ?_)
  · simp [Kernel.rotate, hu, Bundle.mem_remove_of_ne]
  · intro q
    rw [show (k.rotate c).readyBitmap q = k.readyBitmap q from rfl, h.bitmap q]
    simp only [readyQueue, Kernel.rotate]
    by_cases hq : q = (k.tcb c).priority
    · subst hq
      exact iff_of_true (List.ne_nil_of_mem hm) (List.ne_nil_of_mem (a := c) (by simp))
    · rw [Bundle.insertTail_of_ne (by simpa using hq),
        h.stateWF.remove_of_ne hm (by simpa using hq)]
  · simp [Kernel.rotate, hfree L, Tcb.stateList_of_isReady hr, eq_comm]
  · rw [rotate_waitLists, rotate_tcb, h.mem_waitLists]
    simp [hc]

theorem ListInv.requeue (h : k.ListInv) (ht : k.Live t) (hr : (k.tcb t).state.isReady = true)
    {p : ℕ} (hp : p < maxPriorities) : (k.requeue t p).ListInv := by
  have hm : t ∈ (k.readyQueue (k.tcb t).priority).nodes := (h.mem_readyQueue _).2 ⟨ht, hr, rfl⟩
  have hwf : (k.stateLists.remove (.ready (k.tcb t).priority) t).WF := h.stateWF.remove hm
  have hfree : (k.stateLists.remove (.ready (k.tcb t).priority) t).Free t := h.stateWF.free_remove
  have hcons := h.consistent t ht
  have hstate : ({ k.tcb t with priority := p } : Tcb).stateList = some (.ready p) :=
    Tcb.stateList_of_isReady hr
  have hevent : ({ k.tcb t with priority := p } : Tcb).eventList = (k.tcb t).eventList := rfl
  refine h.of_move (t := t) rfl (fun u hu => requeue_tcb_of_ne k t p hu) (fun L u hu => ?_)
    (fun V u _ => Iff.rfl) ?_ (hwf.insertTail hfree) h.waitWF ht ?_ (fun L => ?_) fun V => ?_
  · simp [Kernel.requeue, hu, Bundle.mem_remove_of_ne]
  · -- first the bit of the old queue, then the bit of the new one
    have hremoved : ({ k with
        readyBitmap :=
          if (k.readyQueue (k.tcb t).priority).nodes.erase t = [] then
            Function.update k.readyBitmap (k.tcb t).priority false
          else k.readyBitmap
        stateLists := k.stateLists.remove (.ready (k.tcb t).priority) t } : Kernel).BitmapOk :=
      h.bitmap.remove h.stateWF hm rfl fun _ => rfl
    refine hremoved.insertTail rfl ?_ fun q hq => ?_
    · exact List.ne_nil_of_mem (a := t) (by simp [readyQueue, Kernel.requeue])
    · simp only [readyQueue, Kernel.requeue]
      rw [Bundle.insertTail_of_ne (by simpa using hq)]
  · rw [requeue_tcb_same]
    refine ⟨hp, hcons.active, hcons.awake, hcons.wakeable, ?_, ?_⟩
    · rw [hstate]
      exact (links_of_consistent hcons hr).1
    · rw [hevent]
      exact hcons.eventLinked_eq
  · rw [requeue_tcb_same, hstate]
    simp [Kernel.requeue, hfree L, @eq_comm _ L]
  · rw [requeue_tcb_same, hevent]
    show t ∈ (k.waitLists V).nodes ↔ _
    rw [h.mem_waitLists]
    simp [ht]

end Kernel

/-! ## The scheduler's functions are moves -/

namespace Scheduler

open Kernel

variable {k : Kernel} {t u c : TaskId} {W : WaitList}

theorem links_of_isReady (h : k.ListInv) (hc : k.Live c) (hr : (k.tcb c).state.isReady = true) :
    (k.tcb c).stateLinked = true ∧ (k.tcb c).eventLinked = false :=
  links_of_consistent (h.consistent c hc) hr

theorem delaySection_eq_park (h : k.ListInv) (hc : k.Live c)
    (hr : (k.tcb c).state.isReady = true) {n : ℕ} (hn : 0 < n) :
    delaySection k c n = k.park c none n := by
  obtain ⟨hsl, hel⟩ := links_of_isReady h hc hr
  obtain ⟨-, hwl⟩ := (h.consistent c hc).awake (TaskState.ne_blocked_of_isReady hr)
  simp only [delaySection, removeReady_eq (h.priority_lt hc) hsl, Kernel.insertTail, Kernel.modify,
    Kernel.park, Tcb.parked, Function.update_self, Function.update_idem, hn, if_true, decide_true,
    Option.isSome_none, hwl, hel]

theorem waitListBlockSection_eq_park (h : k.ListInv) (hc : k.Live c)
    (hr : (k.tcb c).state.isReady = true) {timeout : ℕ} (hn : timeout ≠ 0) :
    waitListBlockSection k c W timeout =
      k.park c (some W) (if timeout = waitForever then 0 else timeout) := by
  obtain ⟨hsl, -⟩ := links_of_isReady h hc hr
  -- the fields written before the insertion leave the priorities it sorts by as they were
  have hkey : ∀ f : Tcb → Tcb, (∀ b, (f b).priority = b.priority) →
      (fun u => ((Function.update k.tcb c (f (k.tcb c))) u).priority) =
        fun u => (k.tcb u).priority := by
    intro f hf
    funext u
    by_cases hu : u = c
    · subst hu; simp [hf]
    · simp [hu]
  have hkey' := hkey (fun b => { b with state := .blocked, waitList := some W }) fun _ => rfl
  simp only [waitListBlockSection, removeReady_eq (h.priority_lt hc) hsl, insertWaitListPriority,
    Kernel.modify, Function.update_self, Function.update_idem, hkey']
  by_cases hf : timeout = waitForever
  · simp [hf, Kernel.park, Tcb.parked]
  · simp [hf, Kernel.park, Tcb.parked, Kernel.insertTail, Kernel.modify, Nat.pos_of_ne_zero hn]

theorem waitListUnblockHighest_nil (hW : (k.waitLists W).nodes = []) :
    waitListUnblockHighest k W = (k, none) := by
  simp [waitListUnblockHighest, hW]

/-- Being taken off a wait list by an event is a `wake`. -/
theorem waitListUnblockHighest_cons (h : k.ListInv) {rest : List TaskId}
    (hW : (k.waitLists W).nodes = t :: rest) :
    waitListUnblockHighest k W = (k.wake t, some t) := by
  obtain ⟨ht, hb, hwl⟩ := (h.mem_waitList W).1 (show t ∈ (k.waitLists W).nodes by simp [hW])
  have hel : (k.tcb t).eventLinked = true := by
    rw [(h.consistent t ht).eventLinked_eq, Tcb.eventList_of_blocked hb, hwl]; rfl
  simp only [waitListUnblockHighest, hW, waitListRemove, hel, if_true, Kernel.modify,
    Function.update_self, Kernel.removeDirect, Prod.mk.injEq, and_true]
  by_cases hd : 0 < (k.tcb t).delayTicks
  · simp only [hd, if_true, Function.update_self, Function.update_idem]
    rw [addReady_eq (by simpa using h.priority_lt ht)]
    simp [Kernel.wake, Tcb.woken, hd, hwl]
  · have hd0 : (k.tcb t).delayTicks = 0 := by omega
    simp only [hd, if_false, Function.update_self, Function.update_idem]
    rw [addReady_eq (by simpa using h.priority_lt ht)]
    simp [Kernel.wake, Tcb.woken, hd0, hwl]

/-- An expiry is a `wake`, too; any other round of the loop counts one tick. -/
theorem processDelayedTask_eq (h : k.ListInv) (hm : t ∈ k.delayList.nodes) :
    processDelayedTask k t =
      if (k.tcb t).delayTicks = 1 then (k.wake t, true)
      else (k.modify t fun b => { b with delayTicks := b.delayTicks - 1 }, false) := by
  obtain ⟨ht, hb, hd⟩ := h.mem_delayList.1 hm
  have hcons := h.consistent t ht
  by_cases h1 : (k.tcb t).delayTicks = 1
  · cases hwl : (k.tcb t).waitList with
    | none =>
      have hel : (k.tcb t).eventLinked = false := by
        rw [hcons.eventLinked_eq, Tcb.eventList_of_blocked hb, hwl]; rfl
      simp only [processDelayedTask, h1, Kernel.modify, Kernel.removeDirect, zero_lt_one, if_true,
        Function.update_self, Nat.sub_self, hwl]
      rw [addReady_eq (by simpa using h.priority_lt ht)]
      simp [Kernel.wake, Tcb.woken, h1, hwl, hel]
    | some W =>
      have hel : (k.tcb t).eventLinked = true := by
        rw [hcons.eventLinked_eq, Tcb.eventList_of_blocked hb, hwl]; rfl
      simp only [processDelayedTask, h1, Kernel.modify, Kernel.removeDirect, zero_lt_one, if_true,
        Function.update_self, Nat.sub_self, hwl, waitListRemove, hel, Function.update_idem]
      rw [addReady_eq (by simpa using h.priority_lt ht)]
      simp [Kernel.wake, Tcb.woken, h1, hwl]
  · have hne : (k.tcb t).delayTicks - 1 ≠ 0 := by omega
    simp [processDelayedTask, hd, h1, hne]

theorem processTimeSlicing_of_ready (h : k.ListInv) (hcur : k.currentTcb = some c)
    (hc : k.Live c) (hr : (k.tcb c).state.isReady = true) :
    processTimeSlicing k =
      if k.timeSlicingEnabled ∧ 1 < (k.readyQueue (k.tcb c).priority).nodes.length then k.rotate c
      else k := by
  obtain ⟨hsl, -⟩ := links_of_isReady h hc hr
  have hcount : Exceeds (k.readyQueue (k.tcb c).priority).count 1 ↔
      1 < (k.readyQueue (k.tcb c).priority).nodes.length := by
    rw [show (k.readyQueue (k.tcb c).priority).count
      = (k.readyQueue (k.tcb c).priority).nodes.length from (h.stateWF.list _).count_eq,
      exceeds_natCast]
  rw [processTimeSlicing, hcur]
  cases k.timeSlicingEnabled with
  | false => simp
  | true =>
    simp only [hcount, true_and]
    split
    · have hsame : { k.tcb c with stateLinked := true } = k.tcb c := by rw [← hsl]
      simp [Kernel.insertTail, Kernel.removeDirect, Kernel.modify, Kernel.rotate, hsame]
    · rfl

end Scheduler

end Sertos
