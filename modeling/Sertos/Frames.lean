import Sertos.Mutex
import Sertos.Switching

/-!
# What the functions leave alone

Facts about single functions that need no invariant: which fields of the kernel and of the control
blocks they do not write, and what they do to the wait lists.  They are what is left to reason with
about runs in which the ready queues are *not* right, as after a mutex was released by a boosted
owner.

A function that leaves a kernel field alone is written as a record update of the old kernel
(`…_frame`), so that one lemma says it for all fields.
-/

set_option autoImplicit false

namespace Sertos

open Intrusive

namespace Scheduler

variable (k : Kernel) (t u c : TaskId) (W V : WaitList)

/-! ## Ready queues -/

/-- `sertos_scheduler_remove_ready` writes the ready queues and their bitmap. -/
theorem removeReady_frame :
    (removeReady k t).1 = { k with
      readyBitmap := (removeReady k t).1.readyBitmap
      stateLists := (removeReady k t).1.stateLists } := by
  simp only [removeReady]
  split_ifs <;> rfl

@[simp] theorem removeReady_tcb : (removeReady k t).1.tcb = k.tcb := by rw [removeReady_frame]

@[simp] theorem removeReady_waitLists : (removeReady k t).1.waitLists = k.waitLists := by
  rw [removeReady_frame]

/-- `sertos_scheduler_add_ready` writes the ready queues, their bitmap and a control block. -/
theorem addReady_frame :
    (addReady k t).1 = { k with
      readyBitmap := (addReady k t).1.readyBitmap
      stateLists := (addReady k t).1.stateLists
      tcb := (addReady k t).1.tcb } := by
  simp only [addReady]
  split_ifs <;> rfl

@[simp] theorem addReady_waitLists : (addReady k t).1.waitLists = k.waitLists := by
  rw [addReady_frame]

theorem addReady_tcb_of_ne {u : TaskId} (h : u ≠ t) : (addReady k t).1.tcb u = k.tcb u := by
  simp only [addReady]
  split_ifs
  · rfl
  · simp [Kernel.insertTail, Kernel.modify, h]

/-- Of the control block it makes ready it writes the state and the links of `state_node`. -/
theorem addReady_tcb_same :
    (addReady k t).1.tcb t = { k.tcb t with
      state := ((addReady k t).1.tcb t).state
      stateLinked := ((addReady k t).1.tcb t).stateLinked } := by
  simp only [addReady]
  split_ifs
  · rfl
  · simp [Kernel.insertTail, Kernel.modify]

/-! ## Switching -/

/-- A switch writes the control blocks, `sertos_current_tcb`, the pending flag and the
accounting. -/
theorem performSwitch_frame :
    performSwitch k = { k with
      tcb := (performSwitch k).tcb
      currentTcb := (performSwitch k).currentTcb
      stats := (performSwitch k).stats } := by
  rw [performSwitch]
  split
  · rfl
  · rw [dispatch_frame]

theorem switchContext_frame :
    switchContext k = { k with
      tcb := (switchContext k).tcb
      currentTcb := (switchContext k).currentTcb
      reschedulePending := (switchContext k).reschedulePending
      stats := (switchContext k).stats } := by
  rw [switchContext]
  split
  · rfl
  · split
    · rfl
    · split
      · rfl
      · rw [performSwitch_frame]

theorem reschedule_frame :
    reschedule k = { k with
      tcb := (reschedule k).tcb
      currentTcb := (reschedule k).currentTcb
      reschedulePending := (reschedule k).reschedulePending
      stats := (reschedule k).stats } := by
  rw [reschedule]
  split
  · split
    · rfl
    · rw [switchContext_frame]
    · split
      · rw [switchContext_frame]
      · rfl
  · rfl

theorem performSwitch_tcb :
    (performSwitch k).tcb u = { k.tcb u with state := ((performSwitch k).tcb u).state } := by
  rw [performSwitch]
  split
  · rfl
  · rw [dispatch_tcb]

theorem switchContext_tcb :
    (switchContext k).tcb u = { k.tcb u with state := ((switchContext k).tcb u).state } := by
  rw [switchContext]
  split
  · rfl
  · split
    · rfl
    · split
      · rfl
      · exact performSwitch_tcb k u

theorem reschedule_tcb :
    (reschedule k).tcb u = { k.tcb u with state := ((reschedule k).tcb u).state } := by
  rw [reschedule]
  split
  · split
    · rfl
    · exact switchContext_tcb k u
    · split
      · exact switchContext_tcb k u
      · rfl
  · rfl

theorem switchContext_waitLists : (switchContext k).waitLists = k.waitLists := by
  rw [switchContext_frame]

theorem reschedule_waitLists : (reschedule k).waitLists = k.waitLists := by
  rw [reschedule_frame]

theorem switchContext_priority : ((switchContext k).tcb u).priority = (k.tcb u).priority := by
  rw [switchContext_tcb]

theorem reschedule_priority : ((reschedule k).tcb u).priority = (k.tcb u).priority := by
  rw [reschedule_tcb]

/-- A switch makes no ready task unready. -/
theorem reschedule_isReady (h : (k.tcb u).state.isReady = true) :
    ((reschedule k).tcb u).state.isReady = true := by
  have hdispatch : ∀ n, ((dispatch k n).tcb u).state.isReady = true := by
    intro n
    rw [dispatch_tcb]
    simp only [dispatchedState]
    split_ifs
    · rfl
    · rfl
    · exact h
  have hperform : ((performSwitch k).tcb u).state.isReady = true := by
    rw [performSwitch]
    split
    · exact h
    · exact hdispatch _
  have hswitch : ((switchContext k).tcb u).state.isReady = true := by
    rw [switchContext]
    split
    · exact h
    · split
      · exact h
      · split
        · exact h
        · exact hperform
  rw [reschedule]
  split
  · split
    · exact h
    · exact hswitch
    · split
      · exact hswitch
      · exact h
  · exact h

/-! ## Wait lists -/

/-- Time slicing writes the ready queues and the links of `state_node`. -/
theorem processTimeSlicing_frame :
    processTimeSlicing k = { k with
      stateLists := (processTimeSlicing k).stateLists
      tcb := (processTimeSlicing k).tcb } := by
  rw [processTimeSlicing]
  split
  · simp only
    split_ifs <;> rfl
  · rfl

theorem processTimeSlicing_tcb :
    (processTimeSlicing k).tcb u = { k.tcb u with
      stateLinked := ((processTimeSlicing k).tcb u).stateLinked } := by
  rw [processTimeSlicing]
  split
  · simp only
    split_ifs
    · simp only [Kernel.insertTail, Kernel.removeDirect, Kernel.modify, Function.update_apply]
      split_ifs with hu
      · rw [hu]
      · rfl
    · rfl
  · rfl

/-- Blocking for a time writes the ready queues, their bitmap, the delay list and a control
block. -/
theorem delaySection_frame (n : ℕ) :
    delaySection k c n = { k with
      readyBitmap := (delaySection k c n).readyBitmap
      stateLists := (delaySection k c n).stateLists
      tcb := (delaySection k c n).tcb } := by
  simp only [delaySection, Kernel.insertTail, Kernel.modify]
  rw [removeReady_frame]

theorem delaySection_tcb (n : ℕ) :
    (delaySection k c n).tcb u = { k.tcb u with
      state := ((delaySection k c n).tcb u).state
      delayTicks := if u = c then n else (k.tcb u).delayTicks
      stateLinked := ((delaySection k c n).tcb u).stateLinked } := by
  by_cases hu : u = c
  · subst hu
    simp [delaySection, Kernel.insertTail, Kernel.modify]
  · simp [delaySection, Kernel.insertTail, Kernel.modify, hu]

/-- Blocking for a time writes no wait list. -/
theorem delaySection_waitLists (n : ℕ) : (delaySection k c n).waitLists = k.waitLists := by
  simp [delaySection, Kernel.insertTail, Kernel.modify]

/-- Blocking on `W` splices the caller into `W` by priority. -/
theorem waitListBlockSection_waitLists (timeout : ℕ) :
    (waitListBlockSection k c W timeout).waitLists =
      k.waitLists.insertByKey (fun u => (k.tcb u).priority) W c := by
  have hkey : (fun u => (Function.update k.tcb c
      { k.tcb c with state := .blocked, waitList := some W } u).priority)
        = fun u => (k.tcb u).priority := by
    funext u
    by_cases hu : u = c
    · subst hu; simp
    · simp [hu]
  simp only [waitListBlockSection, insertWaitListPriority, Kernel.modify, removeReady_tcb,
    removeReady_waitLists, hkey]
  split_ifs <;> rfl

theorem waitListBlockSection_tcb_of_ne {u : TaskId} (timeout : ℕ) (h : u ≠ c) :
    (waitListBlockSection k c W timeout).tcb u = k.tcb u := by
  simp only [waitListBlockSection, insertWaitListPriority, Kernel.modify, Kernel.insertTail,
    removeReady_tcb]
  split_ifs <;> simp [h]

/-- What blocking on `W` writes in the control block of the caller. -/
theorem waitListBlockSection_tcb_same (timeout : ℕ) :
    (waitListBlockSection k c W timeout).tcb c = { k.tcb c with
      state := .blocked
      waitList := some W
      delayTicks := if timeout = waitForever then 0 else timeout
      stateLinked := decide (timeout ≠ waitForever)
      eventLinked := true } := by
  simp only [waitListBlockSection, insertWaitListPriority, Kernel.modify, Kernel.insertTail,
    removeReady_tcb]
  by_cases h : timeout = waitForever <;> simp [h]

theorem waitListBlockSection_frame (timeout : ℕ) :
    waitListBlockSection k c W timeout = { k with
      readyBitmap := (waitListBlockSection k c W timeout).readyBitmap
      stateLists := (waitListBlockSection k c W timeout).stateLists
      waitLists := (waitListBlockSection k c W timeout).waitLists
      tcb := (waitListBlockSection k c W timeout).tcb } := by
  simp only [waitListBlockSection, insertWaitListPriority, Kernel.modify, Kernel.insertTail]
  rw [removeReady_frame]
  split_ifs <;> rfl

/-- A removal from a wait list only takes nodes away. -/
theorem waitListRemove_subset :
    ((waitListRemove k W t).waitLists V).nodes ⊆ (k.waitLists V).nodes := by
  rw [waitListRemove]
  split
  · exact fun u hu => Bundle.mem_of_mem_remove hu
  · exact fun u hu => hu

theorem waitListRemove_tcb_of_ne {u : TaskId} (h : u ≠ t) :
    (waitListRemove k W t).tcb u = k.tcb u := by
  rw [waitListRemove]
  split
  · simp [Kernel.modify, h]
  · rfl

theorem waitListRemove_tcb_same :
    (waitListRemove k W t).tcb t = { k.tcb t with eventLinked := false } := by
  rw [waitListRemove]
  by_cases h : (k.tcb t).eventLinked = true
  · simp [h, Kernel.modify]
  · rw [if_neg h, ← Bool.eq_false_iff.2 h]

theorem waitListRemove_waitLists (h : (k.tcb t).eventLinked = true) :
    (waitListRemove k W t).waitLists = k.waitLists.remove W t := by
  simp [waitListRemove, h]

theorem waitListRemove_frame :
    waitListRemove k W t = { k with
      waitLists := (waitListRemove k W t).waitLists
      tcb := (waitListRemove k W t).tcb } := by
  rw [waitListRemove]
  split <;> rfl

/-- The task `sertos_scheduler_wait_list_unblock_highest` returns is the head of the list. -/
theorem unblockHighest_snd : (waitListUnblockHighest k W).2 = (k.waitLists W).nodes.head? := by
  rw [waitListUnblockHighest]
  split <;> simp_all

/-- Waking a task is taking it off the delay list, clearing its fields and making it ready. -/
theorem unblockHighest_eq {rest : List TaskId} (hW : (k.waitLists W).nodes = t :: rest) :
    ∃ k₁ : Kernel, (waitListUnblockHighest k W).1 = (addReady k₁ t).1 ∧
      k₁ = { waitListRemove k W t with stateLists := k₁.stateLists, tcb := k₁.tcb } ∧
      (∀ u, u ≠ t → k₁.tcb u = k.tcb u) ∧
      k₁.tcb t = { k.tcb t with eventLinked := false, delayTicks := 0, waitList := none } := by
  have hsame := waitListRemove_tcb_same k t W
  simp only [waitListUnblockHighest, hW]
  refine ⟨_, rfl, ?_, fun u hu => ?_, ?_⟩
  · split_ifs <;> rfl
  · split_ifs <;>
      simp [Kernel.modify, Kernel.removeDirect, hu, waitListRemove_tcb_of_ne k t W hu]
  · by_cases hd : 0 < (k.tcb t).delayTicks
    · simp [Kernel.modify, Kernel.removeDirect, hsame, hd]
    · have hd0 : (k.tcb t).delayTicks = 0 := by omega
      simp [Kernel.modify, hsame, hd0]

theorem unblockHighest_tcb_of_ne {u : TaskId} {rest : List TaskId}
    (hW : (k.waitLists W).nodes = t :: rest) (hu : u ≠ t) :
    (waitListUnblockHighest k W).1.tcb u = k.tcb u := by
  obtain ⟨k₁, e, -, hne, -⟩ := unblockHighest_eq k t W hW
  rw [e, addReady_tcb_of_ne k₁ t hu, hne u hu]

/-- What waking a task writes in its control block. -/
theorem unblockHighest_tcb_same {rest : List TaskId} (hW : (k.waitLists W).nodes = t :: rest) :
    (waitListUnblockHighest k W).1.tcb t = { k.tcb t with
      state := ((waitListUnblockHighest k W).1.tcb t).state
      stateLinked := ((waitListUnblockHighest k W).1.tcb t).stateLinked
      eventLinked := false
      delayTicks := 0
      waitList := none } := by
  obtain ⟨k₁, e, -, -, hsame⟩ := unblockHighest_eq k t W hW
  rw [e]
  conv_lhs => rw [addReady_tcb_same]
  rw [hsame]

theorem unblockHighest_waitLists {rest : List TaskId} (hW : (k.waitLists W).nodes = t :: rest) :
    (waitListUnblockHighest k W).1.waitLists = (waitListRemove k W t).waitLists := by
  obtain ⟨k₁, e, hk₁, -, -⟩ := unblockHighest_eq k t W hW
  rw [e, addReady_waitLists, hk₁]

theorem unblockHighest_subset :
    ((waitListUnblockHighest k W).1.waitLists V).nodes ⊆ (k.waitLists V).nodes := by
  cases hW : (k.waitLists W).nodes with
  | nil => rw [waitListUnblockHighest_nil hW]; exact fun u hu => hu
  | cons t rest =>
    rw [unblockHighest_waitLists k t W hW]
    exact waitListRemove_subset k t W V

/-- Waking a task moves no other task. -/
theorem unblockHighest_mem_stateLists {u : TaskId} {rest : List TaskId}
    (hW : (k.waitLists W).nodes = t :: rest) (hu : u ≠ t) (L : StateList) :
    u ∈ ((waitListUnblockHighest k W).1.stateLists L).nodes ↔ u ∈ (k.stateLists L).nodes := by
  have hadd : ∀ x : Kernel, u ∈ ((addReady x t).1.stateLists L).nodes ↔
      u ∈ (x.stateLists L).nodes := by
    intro x
    simp only [addReady]
    split_ifs
    · rfl
    · simp [Kernel.insertTail, hu]
  have hremove : (waitListRemove k W t).stateLists = k.stateLists := by rw [waitListRemove_frame]
  simp only [waitListUnblockHighest, hW, hadd]
  split_ifs
  · simp [Kernel.removeDirect, Bundle.mem_remove_of_ne hu, hremove]
  · simp [hremove]

/-- `sertos_scheduler_wait_list_unblock_highest` writes lists and control blocks. -/
theorem unblockHighest_frame :
    (waitListUnblockHighest k W).1 = { k with
      readyBitmap := (waitListUnblockHighest k W).1.readyBitmap
      stateLists := (waitListUnblockHighest k W).1.stateLists
      waitLists := (waitListUnblockHighest k W).1.waitLists
      tcb := (waitListUnblockHighest k W).1.tcb } := by
  cases hW : (k.waitLists W).nodes with
  | nil => rw [waitListUnblockHighest_nil hW]
  | cons t rest =>
    obtain ⟨k₁, e, hk₁, -, -⟩ := unblockHighest_eq k t W hW
    rw [e, addReady_frame, hk₁, waitListRemove_frame]

/-- What one round of the loop that empties a wait list keeps, the loop keeps. -/
theorem unblockAll_induction {motive : Kernel → Prop} {k : Kernel} (W : WaitList) (h : motive k)
    (hround : ∀ k, motive k → motive (waitListUnblockHighest k W).1) : motive (unblockAll k W) := by
  have hrounds : ∀ (n : ℕ) (k : Kernel), motive k → motive (unblockRounds W n k) := by
    intro n
    induction n with
    | zero => exact fun k h => h
    | succ n ih =>
      intro k h
      have h' := hround k h
      rw [unblockRounds]
      rcases hr : waitListUnblockHighest k W with ⟨k', _ | u⟩ <;> rw [hr] at h'
      · exact h'
      · exact ih k' h'
  exact hrounds _ k h

/-- `sertos_scheduler_reschedule` tests `s_is_running` itself. -/
theorem rescheduleIfRunning_eq (k : Kernel) : rescheduleIfRunning k = reschedule k := by
  rw [rescheduleIfRunning]
  split
  · rfl
  · next hrun => simp [reschedule, hrun]

/-- A wait without a timeout does not fail. -/
theorem waitListBlockStatus_forever : waitListBlockStatus k t waitForever = .ok := by
  simp [waitListBlockStatus]

/-! ## The tick -/

/-- **A round of the walk, write by write:** a preorder of kernels that holds of the writes of a
round holds of the round. -/
theorem processDelayedTask_of_writes {R : Kernel → Kernel → Prop} (hrefl : ∀ x, R x x)
    (htrans : ∀ x y z, R x y → R y z → R x z)
    (hcount : ∀ x : Kernel, R x (x.modify t fun b => { b with delayTicks := b.delayTicks - 1 }))
    (hremove : ∀ x : Kernel, R x (x.removeDirect .delay t))
    (hleave : ∀ x W, R x ((waitListRemove x W t).modify t fun b => { b with waitList := none }))
    (hready : ∀ x, R x (addReady x t).1) : R k (processDelayedTask k t).1 := by
  have hfirst : R k (if 0 < (k.tcb t).delayTicks then
      k.modify t fun b => { b with delayTicks := b.delayTicks - 1 } else k) := by
    split
    · exact hcount k
    · exact hrefl k
  rw [processDelayedTask]
  simp only
  generalize (if 0 < (k.tcb t).delayTicks then
      k.modify t fun b => { b with delayTicks := b.delayTicks - 1 } else k) = x at hfirst ⊢
  split
  · -- at zero the task is taken off the two lists it is on
    refine htrans _ _ _ hfirst (htrans _ _ _ (hremove x) (htrans _ _ _ ?_ (hready _)))
    split
    · exact hleave _ _
    · exact hrefl _
  · exact hfirst

/-- The walk, round by round. -/
theorem processDelayedFrom_of_rounds {R : Kernel → Kernel → Prop} (hrefl : ∀ x, R x x)
    (htrans : ∀ x y z, R x y → R y z → R x z) {l : List TaskId}
    (hround : ∀ t ∈ l, ∀ x, R x (processDelayedTask x t).1) (b : Bool) :
    R k (processDelayedFrom k b l).1 := by
  induction l generalizing k b with
  | nil => exact hrefl k
  | cons t l ih =>
    exact htrans _ _ _ (hround t List.mem_cons_self k)
      (ih _ (fun u hu => hround u (List.mem_cons_of_mem t hu)) _)

theorem processDelayedTask_subset :
    ((processDelayedTask k t).1.waitLists V).nodes ⊆ (k.waitLists V).nodes :=
  processDelayedTask_of_writes k t (R := fun x y => (y.waitLists V).nodes ⊆ (x.waitLists V).nodes)
    (fun _ => List.Subset.refl _) (fun _ _ _ h h' => List.Subset.trans h' h)
    (fun _ => List.Subset.refl _) (fun _ => List.Subset.refl _)
    (fun x W => waitListRemove_subset x t W V)
    (fun x => by rw [addReady_waitLists]; exact List.Subset.refl _)

theorem processDelayedFrom_subset (l : List TaskId) (b : Bool) :
    ((processDelayedFrom k b l).1.waitLists V).nodes ⊆ (k.waitLists V).nodes :=
  processDelayedFrom_of_rounds k (R := fun x y => (y.waitLists V).nodes ⊆ (x.waitLists V).nodes)
    (fun _ => List.Subset.refl _) (fun _ _ _ h h' => List.Subset.trans h' h)
    (fun t _ x => processDelayedTask_subset x t V) b

/-- A tick only takes nodes off wait lists. -/
theorem tickSection_subset :
    ((tickSection k).1.waitLists V).nodes ⊆ (k.waitLists V).nodes := by
  rw [tickSection, processTimeSlicing_frame]
  exact processDelayedFrom_subset { k with systemTicks := k.systemTicks + 1 } V _ false

end Scheduler

/-! ## Mutexes -/

namespace Mutex

open Scheduler

variable (k : Kernel) (t u : TaskId) (p : ℕ)

/-- Changing a priority writes the ready queues, their bitmap and the control block. -/
theorem changePriority_frame :
    changePriority k t p = { k with
      readyBitmap := (changePriority k t p).readyBitmap
      stateLists := (changePriority k t p).stateLists
      tcb := (changePriority k t p).tcb } := by
  rw [changePriority]
  split
  · rw [addReady_frame, removeReady_frame]
    rfl
  · rfl

theorem changePriority_tcb_of_ne {u : TaskId} (h : u ≠ t) :
    (changePriority k t p).tcb u = k.tcb u := by
  rw [changePriority]
  split
  · rw [addReady_tcb_of_ne _ _ h, Kernel.modify_tcb_of_ne _ _ _ h, removeReady_tcb]
  · exact Kernel.modify_tcb_of_ne k t _ h

/-- Of the control block it writes the priority, the state and the links of `state_node`. -/
theorem changePriority_tcb_same :
    (changePriority k t p).tcb t = { k.tcb t with
      priority := p
      state := ((changePriority k t p).tcb t).state
      stateLinked := ((changePriority k t p).tcb t).stateLinked } := by
  rw [changePriority]
  split
  · conv_lhs => rw [addReady_tcb_same]
    simp
  · simp

/-- The same for every control block: nothing else is written in any of them. -/
theorem changePriority_tcb :
    (changePriority k t p).tcb u = { k.tcb u with
      priority := ((changePriority k t p).tcb u).priority
      state := ((changePriority k t p).tcb u).state
      stateLinked := ((changePriority k t p).tcb u).stateLinked } := by
  by_cases h : u = t
  · subst h
    have hsame := changePriority_tcb_same k u p
    have hp : ((changePriority k u p).tcb u).priority = p := by rw [hsame]
    rw [hp]
    exact hsame
  · rw [changePriority_tcb_of_ne k t p h]

theorem applyPriorityInheritance_frame :
    applyPriorityInheritance k t u = { k with
      readyBitmap := (applyPriorityInheritance k t u).readyBitmap
      stateLists := (applyPriorityInheritance k t u).stateLists
      tcb := (applyPriorityInheritance k t u).tcb } := by
  rw [applyPriorityInheritance]
  split
  · rw [changePriority_frame]
  · rfl

theorem applyPriorityInheritance_tcb (o c : TaskId) :
    (applyPriorityInheritance k o c).tcb u = { k.tcb u with
      priority := ((applyPriorityInheritance k o c).tcb u).priority
      state := ((applyPriorityInheritance k o c).tcb u).state
      stateLinked := ((applyPriorityInheritance k o c).tcb u).stateLinked } := by
  rw [applyPriorityInheritance]
  split
  · rw [changePriority_tcb]
  · rfl

theorem restoreOwnerPriority_frame (x : Mutex) :
    restoreOwnerPriority k x t = { k with
      readyBitmap := (restoreOwnerPriority k x t).readyBitmap
      stateLists := (restoreOwnerPriority k x t).stateLists
      tcb := (restoreOwnerPriority k x t).tcb } := by
  rw [restoreOwnerPriority]
  split
  · rw [changePriority_frame]
  · rfl

theorem restoreOwnerPriority_tcb (x : Mutex) (c : TaskId) :
    (restoreOwnerPriority k x c).tcb u = { k.tcb u with
      priority := ((restoreOwnerPriority k x c).tcb u).priority
      state := ((restoreOwnerPriority k x c).tcb u).state
      stateLinked := ((restoreOwnerPriority k x c).tcb u).stateLinked } := by
  rw [restoreOwnerPriority]
  split
  · rw [changePriority_tcb]
  · rfl

/-- The owner is raised to the priority of the caller. -/
theorem applyPriorityInheritance_priority (o c : TaskId) :
    ((applyPriorityInheritance k o c).tcb u).priority =
      if u = o then max (k.tcb o).priority (k.tcb c).priority else (k.tcb u).priority := by
  rw [applyPriorityInheritance]
  by_cases hlt : (k.tcb o).priority < (k.tcb c).priority
  · rw [if_pos hlt]
    by_cases hu : u = o
    · subst hu
      rw [if_pos rfl, changePriority_tcb_same]
      exact (Nat.max_eq_right hlt.le).symm
    · rw [if_neg hu, changePriority_tcb_of_ne k o _ hu]
  · rw [if_neg hlt]
    by_cases hu : u = o
    · subst hu
      rw [if_pos rfl]
      exact (Nat.max_eq_left (not_lt.1 hlt)).symm
    · rw [if_neg hu]

/-- The task that releases the mutex gets the recorded priority. -/
theorem restoreOwnerPriority_priority (x : Mutex) (c : TaskId) :
    ((restoreOwnerPriority k x c).tcb u).priority =
      if u = c then x.originalOwnerPriority else (k.tcb u).priority := by
  rw [restoreOwnerPriority]
  by_cases hne : (k.tcb c).priority ≠ x.originalOwnerPriority
  · rw [if_pos hne]
    by_cases hu : u = c
    · subst hu
      rw [if_pos rfl, changePriority_tcb_same]
    · rw [if_neg hu, changePriority_tcb_of_ne k c _ hu]
  · rw [if_neg hne]
    by_cases hu : u = c
    · subst hu
      rw [if_pos rfl, not_not.1 hne]
    · rw [if_neg hu]

theorem applyPriorityInheritance_waitLists (o c : TaskId) :
    (applyPriorityInheritance k o c).waitLists = k.waitLists := by
  rw [applyPriorityInheritance_frame]

theorem restoreOwnerPriority_waitLists (x : Mutex) (c : TaskId) :
    (restoreOwnerPriority k x c).waitLists = k.waitLists := by
  rw [restoreOwnerPriority_frame]

/-- The owner of a mutex that is deleted has its priority already, or is given another one. -/
theorem restoreOwner_cases (x : Mutex) :
    restoreOwner k x = k ∨ ∃ o, x.owner = some o ∧ (k.tcb o).priority ≠ x.originalOwnerPriority ∧
      restoreOwner k x = changePriority k o x.originalOwnerPriority := by
  rw [restoreOwner]
  cases ho : x.owner with
  | none => exact .inl rfl
  | some o =>
    by_cases hp : (k.tcb o).priority = x.originalOwnerPriority
    · exact .inl (if_neg (not_not.2 hp))
    · exact .inr ⟨o, rfl, hp, if_pos hp⟩

theorem restoreOwner_frame (x : Mutex) :
    restoreOwner k x = { k with
      readyBitmap := (restoreOwner k x).readyBitmap
      stateLists := (restoreOwner k x).stateLists
      tcb := (restoreOwner k x).tcb } := by
  rcases restoreOwner_cases (k := k) x with e | ⟨o, -, -, e⟩ <;> rw [e]
  rw [changePriority_frame]

theorem restoreOwner_tcb (x : Mutex) :
    (restoreOwner k x).tcb u = { k.tcb u with
      priority := if x.owner = some u then x.originalOwnerPriority else (k.tcb u).priority
      state := ((restoreOwner k x).tcb u).state
      stateLinked := ((restoreOwner k x).tcb u).stateLinked } := by
  rw [restoreOwner]
  cases x.owner with
  | none => simp
  | some o =>
    have hprio := restoreOwnerPriority_priority (k := k) (u := u) x o
    simp only [Option.some_inj, eq_comm (a := o)]
    rw [← hprio]
    exact restoreOwnerPriority_tcb k u x o

/-! ## The branches of the mutex functions -/

variable {s : System} {m : ℕ} {c : TaskId}

theorem lockSection_of_free (h : (s.mutexes m).owner = none) (timeout : ℕ) :
    lockSection s m c timeout = (s.setMutex m { s.mutexes m with
      owner := some c
      lockCount := 1
      originalOwnerPriority := (s.kernel.tcb c).priority }, some .ok) := by
  simp only [lockSection, h]

theorem lockSection_of_owner (h : (s.mutexes m).owner = some c) (timeout : ℕ) :
    lockSection s m c timeout = (s.setMutex m { s.mutexes m with
      lockCount := ((s.mutexes m).lockCount + 1) % 2 ^ 32 }, some .ok) := by
  simp only [lockSection, h, if_true]

theorem lockSection_of_other {o : TaskId} (h : (s.mutexes m).owner = some o) (hne : o ≠ c)
    (timeout : ℕ) :
    lockSection s m c timeout = ({ s with kernel := applyPriorityInheritance s.kernel o c },
      if timeout = noWait then some .errorTimeout else none) := by
  simp only [lockSection, h, hne, if_false]
  split <;> rfl

theorem decrement_eq_zero {n : ℕ} : decrement n = 0 ↔ n = 1 := by
  rw [decrement]
  split <;> omega

/-- An unlock that is not the last one lowers the count. -/
theorem unlockSection_of_ne_one (h : (s.mutexes m).lockCount ≠ 1) :
    unlockSection s m c = (s.setMutex m { s.mutexes m with
      lockCount := decrement (s.mutexes m).lockCount }, false) := by
  have hpos : 0 < decrement (s.mutexes m).lockCount :=
    Nat.pos_of_ne_zero fun e => h (decrement_eq_zero.1 e)
  simp only [unlockSection, hpos, if_true]

/-- A full release that finds no waiter. -/
theorem unlockSection_release (h : (s.mutexes m).lockCount = 1)
    (hW : (s.kernel.waitLists (.mutex m)).nodes = []) :
    unlockSection s m c = (({ s with
        kernel := restoreOwnerPriority s.kernel (s.mutexes m) c } : System).setMutex m
      { s.mutexes m with owner := none, lockCount := 0 }, true) := by
  have hnil :
      ((restoreOwnerPriority s.kernel (s.mutexes m) c).waitLists (.mutex m)).nodes = [] := by
    rw [restoreOwnerPriority_waitLists, hW]
  simp [unlockSection, decrement, h, waitListUnblockHighest_nil hnil]

/-- The kernel after a full release that has a waiter. -/
def handedKernel (s : System) (m : ℕ) (c : TaskId) : Kernel :=
  (waitListUnblockHighest (restoreOwnerPriority s.kernel (s.mutexes m) c) (.mutex m)).1

/-- A full release that hands the mutex to the first waiter. -/
theorem unlockSection_handOver (h : (s.mutexes m).lockCount = 1) {w : TaskId} {rest : List TaskId}
    (hW : (s.kernel.waitLists (.mutex m)).nodes = w :: rest) :
    unlockSection s m c = (({ s with kernel := handedKernel s m c } : System).setMutex m
      { s.mutexes m with
        owner := some w
        lockCount := 1
        originalOwnerPriority := ((handedKernel s m c).tcb w).basePriority }, true) := by
  have hsnd := unblockHighest_snd (restoreOwnerPriority s.kernel (s.mutexes m) c) (.mutex m)
  rw [restoreOwnerPriority_waitLists, hW, List.head?_cons] at hsnd
  rw [handedKernel]
  cases hr : waitListUnblockHighest (restoreOwnerPriority s.kernel (s.mutexes m) c) (.mutex m) with
  | mk k o =>
    rw [hr] at hsnd
    obtain rfl : o = some w := hsnd
    simp [unlockSection, decrement, h, hr]

theorem unlockSection_pc (s : System) (m : ℕ) (c : TaskId) : (unlockSection s m c).1.pc = s.pc := by
  simp only [unlockSection]
  split
  · rfl
  · split <;> rfl

section HandOver

variable {w : TaskId} {rest : List TaskId}

theorem handedKernel_tcb_of_ne (hW : (s.kernel.waitLists (.mutex m)).nodes = w :: rest)
    {u : TaskId} (hu : u ≠ w) :
    (handedKernel s m c).tcb u = (restoreOwnerPriority s.kernel (s.mutexes m) c).tcb u := by
  rw [← restoreOwnerPriority_waitLists s.kernel (s.mutexes m) c] at hW
  exact unblockHighest_tcb_of_ne _ w _ hW hu

theorem handedKernel_tcb_same (hW : (s.kernel.waitLists (.mutex m)).nodes = w :: rest) :
    (handedKernel s m c).tcb w = { (restoreOwnerPriority s.kernel (s.mutexes m) c).tcb w with
      state := ((handedKernel s m c).tcb w).state
      stateLinked := ((handedKernel s m c).tcb w).stateLinked
      eventLinked := false
      delayTicks := 0
      waitList := none } := by
  rw [← restoreOwnerPriority_waitLists s.kernel (s.mutexes m) c] at hW
  exact unblockHighest_tcb_same _ w _ hW

/-- The other wait lists lose the waiter too, if they have it. -/
theorem handedKernel_waitLists (hW : (s.kernel.waitLists (.mutex m)).nodes = w :: rest)
    (hlinked : (s.kernel.tcb w).eventLinked = true) (V : WaitList) :
    ((handedKernel s m c).waitLists V).nodes = (s.kernel.waitLists V).nodes.erase w := by
  have hlinked' : ((restoreOwnerPriority s.kernel (s.mutexes m) c).tcb w).eventLinked = true := by
    rw [restoreOwnerPriority_tcb]
    exact hlinked
  have hW' : ((restoreOwnerPriority s.kernel (s.mutexes m) c).waitLists (.mutex m)).nodes
      = w :: rest := by
    rw [restoreOwnerPriority_waitLists, hW]
  rw [handedKernel, unblockHighest_waitLists _ w _ hW', waitListRemove_waitLists _ w _ hlinked',
    Bundle.remove, restoreOwnerPriority_waitLists]

/-- The first waiter leaves the wait list. -/
theorem handedKernel_waiters (hW : (s.kernel.waitLists (.mutex m)).nodes = w :: rest)
    (hlinked : (s.kernel.tcb w).eventLinked = true) :
    ((handedKernel s m c).waitLists (.mutex m)).nodes = rest := by
  rw [handedKernel_waitLists hW hlinked, hW, List.erase_cons_head]

/-- Of the priorities, only that of the task that releases the mutex is written. -/
theorem handedKernel_priority (hW : (s.kernel.waitLists (.mutex m)).nodes = w :: rest)
    (u : TaskId) :
    ((handedKernel s m c).tcb u).priority =
      if u = c then (s.mutexes m).originalOwnerPriority else (s.kernel.tcb u).priority := by
  rw [← restoreOwnerPriority_priority]
  by_cases hu : u = w
  · subst hu
    rw [handedKernel_tcb_same hW]
  · rw [handedKernel_tcb_of_ne hW hu]

/-- No release changes a base priority. -/
theorem handedKernel_basePriority (hW : (s.kernel.waitLists (.mutex m)).nodes = w :: rest)
    (u : TaskId) :
    ((handedKernel s m c).tcb u).basePriority = (s.kernel.tcb u).basePriority := by
  by_cases hu : u = w
  · subst hu
    rw [handedKernel_tcb_same hW, restoreOwnerPriority_tcb]
  · rw [handedKernel_tcb_of_ne hW hu, restoreOwnerPriority_tcb]

end HandOver

/-- What follows the wait writes the mutex only. -/
theorem lockResume_kernel (s : System) (m : ℕ) (c : TaskId) (timeout : ℕ) :
    (lockResume s m c timeout).1.kernel = s.kernel := by
  simp only [lockResume, lockReturn, System.setPc_kernel]
  split <;> rfl

theorem delete_cases (s : System) (m : ℕ) :
    ((s.mutexes m).magic ≠ mutexMagicWord ∧ delete s m = (s, .errorInvalidParam)) ∨
    ((s.mutexes m).magic = mutexMagicWord ∧ delete s m =
      ({ deleteSection s m with kernel := reschedule (deleteSection s m).kernel }, .ok)) := by
  rw [delete]
  by_cases hmagic : (s.mutexes m).magic = mutexMagicWord
  · simp only [if_neg (not_not.2 hmagic), rescheduleIfRunning_eq]
    exact .inr ⟨hmagic, trivial⟩
  · rw [if_pos hmagic]
    exact .inl ⟨hmagic, rfl⟩

/-- `sertos_mutex_unlock` succeeds for the owner. -/
theorem unlock_eq_ok (hmagic : (s.mutexes m).magic = mutexMagicWord)
    (hc : s.kernel.currentTcb = some c) :
    (unlock s m).2 = .ok ↔ (s.mutexes m).owner = some c := by
  simp only [unlock, hmagic, hc, ne_eq, not_true_eq_false, if_false]
  by_cases ho : (s.mutexes m).owner = some c
  · simp only [ho, not_true_eq_false, if_false, iff_true]
    split
    · rfl
    · split <;> rfl
  · simp [ho]

end Mutex

/-! ## Semaphores -/

namespace Sem

open Scheduler

/-- A give wakes the first waiter, or stores the token, or refuses it. -/
theorem giveSection_cases (s : System) (i : ℕ) :
    (∃ t rest, (s.kernel.waitLists (.sem i)).nodes = t :: rest ∧
      giveSection s i =
        ({ s with kernel := (waitListUnblockHighest s.kernel (.sem i)).1 }, .ok, some t)) ∨
    ((s.kernel.waitLists (.sem i)).nodes = [] ∧ (s.sems i).count < (s.sems i).maxCount ∧
      giveSection s i =
        (s.setSem i { s.sems i with count := (s.sems i).count + 1 }, .ok, none)) ∨
    ((s.kernel.waitLists (.sem i)).nodes = [] ∧ (s.sems i).maxCount ≤ (s.sems i).count ∧
      giveSection s i = (s, .errorResourceBusy, none)) := by
  have hsnd := unblockHighest_snd s.kernel (.sem i)
  cases hW : (s.kernel.waitLists (.sem i)).nodes with
  | nil =>
    refine Or.inr ?_
    have hnil := waitListUnblockHighest_nil hW
    by_cases hcount : (s.sems i).count < (s.sems i).maxCount
    · exact Or.inl ⟨rfl, hcount, by simp only [giveSection, hnil, hcount, if_true]⟩
    · exact Or.inr ⟨rfl, not_lt.1 hcount, by simp only [giveSection, hnil, hcount, if_false]⟩
  | cons t rest =>
    rw [hW, List.head?_cons] at hsnd
    refine Or.inl ⟨t, rest, rfl, ?_⟩
    cases hr : waitListUnblockHighest s.kernel (.sem i) with
    | mk k o =>
      rw [hr] at hsnd
      obtain rfl : o = some t := hsnd
      simp only [giveSection, hr]

/-- Without its report the give from an interrupt is the give. -/
theorem giveFromIsr_fst (s : System) (i : ℕ) :
    (giveFromIsr s i).1 =
      if (s.sems i).magic ≠ semMagicWord then s else (giveSection s i).1 := by
  rw [giveFromIsr]
  split_ifs
  · rfl
  · split <;> simp_all

end Sem

end Sertos
