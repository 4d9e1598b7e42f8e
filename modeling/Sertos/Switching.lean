import Sertos.Moves

/-!
# Selection and switching

`sertos_scheduler_select_next_task` returns a ready task of maximal priority (`IsTop`), or `NULL`
if no task is ready, and `sertos_scheduler_perform_switch` changes no list: it only moves the
state `RUNNING` from one task to another.

Two facts about `sertos_current_tcb` go with the representation invariant.  It points to a live
task, and no other task is `RUNNING` (`Kernel.Inv`).  Between two calls more holds: the current
task *is* `RUNNING` (`Kernel.Settled`).  After a task has blocked and before the switch that
follows only the weaker fact is left, and the lemmas about switching start from there.
-/

set_option autoImplicit false

namespace Sertos

open Intrusive

/-- Exchanging `READY` and `RUNNING` changes nothing a list depends on. -/
theorem Tcb.Consistent.withState {b : Tcb} (h : b.Consistent) {s : TaskState}
    (hr : s.isReady = b.state.isReady) (hb : s = .blocked ↔ b.state = .blocked) :
    ({ b with state := s } : Tcb).Consistent ∧
      ({ b with state := s } : Tcb).stateList = b.stateList ∧
      ({ b with state := s } : Tcb).eventList = b.eventList := by
  have hsl : ({ b with state := s } : Tcb).stateList = b.stateList := by
    rcases h.active with hready | hblocked
    · rw [Tcb.stateList_of_isReady hready, Tcb.stateList_of_isReady (hr.trans hready)]
    · rw [Tcb.stateList_of_blocked hblocked, Tcb.stateList_of_blocked (hb.2 hblocked)]
  have hel : ({ b with state := s } : Tcb).eventList = b.eventList := by
    simp only [Tcb.eventList, hb]
  refine ⟨⟨h.priority_lt, ?_, fun hn => h.awake (fun e => hn (hb.2 e)),
    fun e => h.wakeable (hb.1 e), ?_, ?_⟩, hsl, hel⟩
  · rcases h.active with hready | hblocked
    · exact Or.inl (hr.trans hready)
    · exact Or.inr (hb.2 hblocked)
  · rw [hsl]; exact h.stateLinked_eq
  · rw [hel]; exact h.eventLinked_eq

namespace Kernel

/-- The task is live and `READY` or `RUNNING`. -/
def Ready (k : Kernel) (t : TaskId) : Prop := k.Live t ∧ (k.tcb t).state.isReady = true

/-- A ready task that no ready task exceeds in priority. -/
structure IsTop (k : Kernel) (t : TaskId) : Prop where
  ready : k.Ready t
  max : ∀ u, k.Ready u → (k.tcb u).priority ≤ (k.tcb t).priority

/-- The representation invariant and what holds of `sertos_current_tcb` at any time. -/
structure Inv (k : Kernel) : Prop where
  lists : k.ListInv
  current_live : ∀ c, k.currentTcb = some c → k.Live c
  running : ∀ t, k.Live t → (k.tcb t).state = .running → k.currentTcb = some t

/-- What holds between two calls: the current task is `RUNNING`. -/
structure Settled (k : Kernel) : Prop extends Inv k where
  current_running : ∀ c, k.currentTcb = some c → (k.tcb c).state = .running

variable {k k' : Kernel} {t u c n : TaskId}

/-- `Ready` and `IsTop` only look at the registry, the states and the priorities. -/
theorem IsTop.congr (h : k.IsTop t) (hready : ∀ u, k'.Ready u ↔ k.Ready u)
    (hprio : ∀ u, (k'.tcb u).priority = (k.tcb u).priority) : k'.IsTop t := by
  refine ⟨(hready t).2 h.ready, fun u hu => ?_⟩
  rw [hprio, hprio]
  exact h.max u ((hready u).1 hu)

theorem Settled.ready_current (h : k.Settled) (hc : k.currentTcb = some c) : k.Ready c :=
  ⟨h.current_live c hc, by rw [h.current_running c hc]; rfl⟩

/-- The ready queues hold the ready tasks, each under its priority, and the bitmap agrees with them:
the part of the representation invariant that selection rests on. -/
structure ReadyInv (k : Kernel) : Prop where
  bitmap : k.BitmapOk
  mem_readyQueue : ∀ p t, t ∈ (k.readyQueue p).nodes ↔
    k.Live t ∧ (k.tcb t).state.isReady = true ∧ (k.tcb t).priority = p
  priority_lt : ∀ t, k.Ready t → (k.tcb t).priority < maxPriorities

theorem ReadyInv.mem_readyQueue_iff_ready (h : k.ReadyInv) :
    t ∈ (k.readyQueue (k.tcb t).priority).nodes ↔ k.Ready t := by
  rw [h.mem_readyQueue]
  simp [Ready]

theorem ListInv.readyInv (h : k.ListInv) : k.ReadyInv :=
  ⟨h.bitmap, fun p _ => h.mem_readyQueue p, fun _ ht => h.priority_lt ht.1⟩

theorem ListInv.mem_readyQueue_iff_ready (h : k.ListInv) :
    t ∈ (k.readyQueue (k.tcb t).priority).nodes ↔ k.Ready t :=
  h.readyInv.mem_readyQueue_iff_ready

end Kernel

/-! ## Selection -/

/-- A selected task is the head of the queue of the highest bit. -/
theorem Scheduler.selectNextTask_cases {k : Kernel} {n : TaskId} (hn : selectNextTask k = some n) :
    ∃ p, k.readyBitmap.findLastSet maxPriorities = some p ∧
      (k.readyQueue p).nodes.head? = some n := by
  rw [selectNextTask] at hn
  cases hf : k.readyBitmap.findLastSet maxPriorities with
  | none => simp [hf] at hn
  | some p => exact ⟨p, rfl, by rwa [hf] at hn⟩

namespace Kernel.ReadyInv

open Scheduler

variable {k : Kernel} {t u c n : TaskId}

theorem selectNextTask_eq_none (h : k.ReadyInv) :
    Scheduler.selectNextTask k = none ↔ ∀ t, ¬ k.Ready t := by
  rw [selectNextTask]
  constructor
  · intro hnone t ht
    have hp := h.priority_lt t ht
    have hbit := (h.bitmap _).2 (List.ne_nil_of_mem (h.mem_readyQueue_iff_ready.2 ht))
    cases hf : k.readyBitmap.findLastSet maxPriorities with
    | none =>
      rw [Bitmap.findLastSet_eq_none.1 hf _ hp] at hbit
      exact absurd hbit (by simp)
    | some p =>
      rw [hf] at hnone
      have hne := (h.bitmap p).1 (Bitmap.findLastSet_spec hf).2.1
      exact hne (by simpa using hnone)
  · intro hnone
    cases hf : k.readyBitmap.findLastSet maxPriorities with
    | none => rfl
    | some p =>
      obtain ⟨t, ht⟩ :=
        List.exists_mem_of_ne_nil _ ((h.bitmap p).1 (Bitmap.findLastSet_spec hf).2.1)
      obtain ⟨hlive, hr, -⟩ := (h.mem_readyQueue p t).1 ht
      exact absurd ⟨hlive, hr⟩ (hnone t)

theorem selectNextTask_isTop (h : k.ReadyInv) (hn : Scheduler.selectNextTask k = some n) :
    k.IsTop n := by
  obtain ⟨p, hf, hhead⟩ := selectNextTask_cases hn
  obtain ⟨-, -, hmax⟩ := Bitmap.findLastSet_spec hf
  obtain ⟨hlive, hr, hp⟩ := (h.mem_readyQueue p n).1 (List.mem_of_mem_head? hhead)
  refine ⟨⟨hlive, hr⟩, fun u hu => ?_⟩
  -- a task above `p` would have its bit set
  by_contra hlt
  have hbit := (h.bitmap _).2 (List.ne_nil_of_mem (h.mem_readyQueue_iff_ready.2 hu))
  rw [hmax _ (by omega) (h.priority_lt u hu)] at hbit
  exact absurd hbit (by simp)

/-- The scheduler selects the head of a queue. -/
theorem head?_of_selectNextTask (h : k.ReadyInv) (hn : Scheduler.selectNextTask k = some n) :
    (k.readyQueue (k.tcb n).priority).nodes.head? = some n := by
  obtain ⟨p, -, hhead⟩ := selectNextTask_cases hn
  obtain ⟨-, -, rfl⟩ := (h.mem_readyQueue p n).1 (List.mem_of_mem_head? hhead)
  exact hhead

/-- All that `sertos_scheduler_reschedule` can do. -/
theorem reschedule_cases (h : k.ReadyInv) :
    (reschedule k = switchContext k) ∨
    (reschedule k = k ∧ (k.isRunning = true → ∀ t, k.Ready t →
      ∃ c, k.currentTcb = some c ∧ (k.tcb t).priority ≤ (k.tcb c).priority)) := by
  rw [reschedule]
  by_cases hrun : k.isRunning = true
  · cases hn : Scheduler.selectNextTask k with
    | none =>
      refine Or.inr ⟨by simp, fun _ t ht => ?_⟩
      exact absurd ht (h.selectNextTask_eq_none.1 hn t)
    | some n =>
      cases hc : k.currentTcb with
      | none => exact Or.inl (by simp [hrun])
      | some c =>
        by_cases hlt : (k.tcb c).priority < (k.tcb n).priority
        · exact Or.inl (by simp [hrun, hlt])
        · refine Or.inr ⟨by simp [hlt], fun _ t ht => ⟨c, rfl, ?_⟩⟩
          have := (h.selectNextTask_isTop hn).max t ht
          omega
  · exact Or.inr ⟨by simp [hrun], fun e => absurd e hrun⟩

end Kernel.ReadyInv

namespace Scheduler

open Kernel

variable {k : Kernel} {t u c n : TaskId}

theorem selectNextTask_eq_none (h : k.ListInv) : selectNextTask k = none ↔ ∀ t, ¬ k.Ready t :=
  h.readyInv.selectNextTask_eq_none

theorem selectNextTask_isTop (h : k.ListInv) (hn : selectNextTask k = some n) : k.IsTop n :=
  h.readyInv.selectNextTask_isTop hn

theorem exists_selectNextTask (h : k.ListInv) (ht : k.Ready t) :
    ∃ n, selectNextTask k = some n ∧ k.IsTop n := by
  cases hn : selectNextTask k with
  | none => exact absurd ht ((selectNextTask_eq_none h).1 hn t)
  | some n => exact ⟨n, rfl, selectNextTask_isTop h hn⟩

/-! ## Dispatch -/

/-- The state a dispatch of `n` leaves a task in. -/
def dispatchedState (k : Kernel) (n u : TaskId) : TaskState :=
  if u = n then .running
  else if k.currentTcb = some u ∧ (k.tcb u).state = .running then .ready
  else (k.tcb u).state

/-- A dispatch changes states and nothing else. -/
theorem dispatch_tcb (k : Kernel) (n u : TaskId) :
    (dispatch k n).tcb u = { k.tcb u with state := dispatchedState k n u } := by
  have hpre : (preempt k).tcb u = { k.tcb u with
      state := if k.currentTcb = some u ∧ (k.tcb u).state = .running then .ready
        else (k.tcb u).state } := by
    rw [preempt]
    cases hc : k.currentTcb with
    | none => simp
    | some c =>
      by_cases huc : c = u
      · subst huc
        by_cases hs : (k.tcb c).state = .running <;> simp [hs]
      · by_cases hs : (k.tcb c).state = .running
        · simp [hs, huc, modify_tcb_of_ne _ _ _ (Ne.symm huc)]
        · simp [hs, huc]
  rw [dispatch, dispatchedState]
  by_cases hu : u = n
  · subst hu; simp [hpre]
  · simp only [modify_tcb_of_ne _ _ _ hu, hpre, hu, if_false]

section Frame

variable (k : Kernel) (n : TaskId)

theorem preempt_frame : preempt k = { k with tcb := (preempt k).tcb } := by
  rw [preempt]
  split
  · split <;> rfl
  · rfl

/-- A dispatch writes the control blocks, `sertos_current_tcb` and the accounting. -/
theorem dispatch_frame :
    dispatch k n = { k with
      tcb := (dispatch k n).tcb
      currentTcb := some n
      stats := k.stats.onSwitch k.currentTcb n } := by
  rw [dispatch, preempt_frame]; rfl

@[simp] theorem dispatch_taskRegistry : (dispatch k n).taskRegistry = k.taskRegistry := by
  rw [dispatch_frame]
@[simp] theorem dispatch_stateLists : (dispatch k n).stateLists = k.stateLists := by
  rw [dispatch_frame]
@[simp] theorem dispatch_waitLists : (dispatch k n).waitLists = k.waitLists := by
  rw [dispatch_frame]
@[simp] theorem dispatch_readyBitmap : (dispatch k n).readyBitmap = k.readyBitmap := by
  rw [dispatch_frame]
@[simp] theorem dispatch_currentTcb : (dispatch k n).currentTcb = some n := by
  rw [dispatch_frame]
@[simp] theorem dispatch_lockNesting : (dispatch k n).lockNesting = k.lockNesting := by
  rw [dispatch_frame]
@[simp] theorem dispatch_isRunning : (dispatch k n).isRunning = k.isRunning := by
  rw [dispatch_frame]
@[simp] theorem dispatch_reschedulePending :
    (dispatch k n).reschedulePending = k.reschedulePending := by
  rw [dispatch_frame]
@[simp] theorem dispatch_timeSlicingEnabled :
    (dispatch k n).timeSlicingEnabled = k.timeSlicingEnabled := by
  rw [dispatch_frame]

end Frame

theorem dispatchedState_isReady (hn : k.Ready n) (u : TaskId) :
    (dispatchedState k n u).isReady = (k.tcb u).state.isReady := by
  rw [dispatchedState]
  by_cases hu : u = n
  · subst hu
    rw [if_pos rfl, hn.2]
    rfl
  · by_cases hs : k.currentTcb = some u ∧ (k.tcb u).state = .running
    · simp [hu, hs, TaskState.isReady]
    · simp [hu, hs]

theorem dispatchedState_eq_blocked (hn : k.Ready n) (u : TaskId) :
    dispatchedState k n u = .blocked ↔ (k.tcb u).state = .blocked := by
  rw [dispatchedState]
  by_cases hu : u = n
  · subst hu; simp [TaskState.ne_blocked_of_isReady hn.2]
  · by_cases hs : k.currentTcb = some u ∧ (k.tcb u).state = .running
    · simp [hu, hs]
    · simp [hu, hs]

theorem ready_dispatch (hn : k.Ready n) : (dispatch k n).Ready u ↔ k.Ready u := by
  rw [Ready, Ready, Live, Live, dispatch_taskRegistry, dispatch_tcb]
  simp only [dispatchedState_isReady hn u]

theorem isTop_dispatch (hn : k.IsTop n) : (dispatch k n).IsTop n :=
  hn.congr (fun _ => ready_dispatch hn.ready) fun u => by rw [dispatch_tcb]

theorem settled_dispatch (h : k.Inv) (hn : k.Ready n) : (dispatch k n).Settled where
  lists := by
    refine h.lists.of_tcb (by simp) (by simp) (by simp) (by simp) fun u hu => ?_
    rw [dispatch_tcb]
    exact (h.lists.consistent u hu).withState (dispatchedState_isReady hn u)
      (dispatchedState_eq_blocked hn u)
  current_live c hc := by
    rw [dispatch_currentTcb, Option.some_inj] at hc
    subst hc
    simpa [Live] using hn.1
  running u hu hs := by
    rw [dispatch_tcb] at hs
    rw [Live, dispatch_taskRegistry] at hu
    simp only [dispatchedState] at hs
    by_cases hun : u = n
    · simp [hun]
    · -- another running task would have been the current one, and is `READY` now
      by_cases hcur : k.currentTcb = some u ∧ (k.tcb u).state = .running
      · simp [hun, hcur] at hs
      · simp only [hun, if_false, hcur] at hs
        exact absurd ⟨h.running u hu hs, hs⟩ hcur
  current_running c hc := by
    rw [dispatch_currentTcb, Option.some_inj] at hc
    subst hc
    simp [dispatch_tcb, dispatchedState]

/-! ## The switching functions -/

theorem performSwitch_of_some (hn : selectNextTask k = some n) :
    performSwitch k = dispatch k n := by
  simp [performSwitch, hn]

theorem performSwitch_of_none (hn : selectNextTask k = none) : performSwitch k = k := by
  simp [performSwitch, hn]

/-- All that `sertos_scheduler_switch_context` can do. -/
theorem switchContext_cases_of_readyInv (h : k.ReadyInv) :
    (0 < k.lockNesting ∧ switchContext k = { k with reschedulePending := true }) ∨
    (k.lockNesting = 0 ∧ (∀ t, ¬ k.Ready t) ∧ switchContext k = k) ∨
    (k.lockNesting = 0 ∧ ∃ n, k.IsTop n ∧ k.currentTcb = some n ∧ switchContext k = k) ∨
    (k.lockNesting = 0 ∧ ∃ n, k.IsTop n ∧ switchContext k = dispatch k n) := by
  by_cases hl : 0 < k.lockNesting
  · exact Or.inl ⟨hl, by simp [switchContext, hl]⟩
  · refine Or.inr ?_
    have hl0 : k.lockNesting = 0 := by omega
    cases hn : selectNextTask k with
    | none =>
      exact Or.inl ⟨hl0, h.selectNextTask_eq_none.1 hn, by simp [switchContext, hl0, hn]⟩
    | some n =>
      have htop := h.selectNextTask_isTop hn
      by_cases hc : k.currentTcb = some n
      · exact Or.inr (Or.inl ⟨hl0, n, htop, hc, by simp [switchContext, hl0, hn, hc]⟩)
      · refine Or.inr (Or.inr ⟨hl0, n, htop, ?_⟩)
        simp [switchContext, hl0, hn, hc, performSwitch_of_some hn]

theorem switchContext_cases (h : k.ListInv) :
    (0 < k.lockNesting ∧ switchContext k = { k with reschedulePending := true }) ∨
    (k.lockNesting = 0 ∧ (∀ t, ¬ k.Ready t) ∧ switchContext k = k) ∨
    (k.lockNesting = 0 ∧ ∃ n, k.IsTop n ∧ k.currentTcb = some n ∧ switchContext k = k) ∨
    (k.lockNesting = 0 ∧ ∃ n, k.IsTop n ∧ switchContext k = dispatch k n) :=
  switchContext_cases_of_readyInv h.readyInv

theorem reschedule_cases (h : k.ListInv) :
    (reschedule k = switchContext k) ∨
    (reschedule k = k ∧ (k.isRunning = true → ∀ t, k.Ready t →
      ∃ c, k.currentTcb = some c ∧ (k.tcb t).priority ≤ (k.tcb c).priority)) :=
  h.readyInv.reschedule_cases

theorem switchContext_locked (hl : 0 < k.lockNesting) :
    switchContext k = { k with reschedulePending := true } := by
  simp [switchContext, hl]

theorem switchContext_pending (h : k.ListInv) (hl : k.lockNesting = 0) :
    (switchContext k).reschedulePending = k.reschedulePending := by
  rcases switchContext_cases h with ⟨hl', -⟩ | ⟨-, -, e⟩ | ⟨-, n, -, -, e⟩ | ⟨-, n, -, e⟩
  · omega
  · rw [e]
  · rw [e]
  · rw [e]; simp

/-- Nothing is switched to while the scheduler is locked. -/
theorem switchContext_current_of_locked (hl : 0 < k.lockNesting) :
    (switchContext k).currentTcb = k.currentTcb := by
  rw [switchContext_locked hl]

theorem reschedule_current_of_locked (h : k.ListInv) (hl : 0 < k.lockNesting) :
    (reschedule k).currentTcb = k.currentTcb := by
  rcases reschedule_cases h with e | ⟨e, -⟩
  · rw [e]; exact switchContext_current_of_locked hl
  · rw [e]

end Scheduler

namespace Kernel

/-- `k'` is `k` after a switch: nothing has moved, and tasks have at most exchanged `READY` and
`RUNNING`. -/
structure Switched (k k' : Kernel) : Prop where
  readyBitmap : k'.readyBitmap = k.readyBitmap
  stateLists : k'.stateLists = k.stateLists
  waitLists : k'.waitLists = k.waitLists
  taskRegistry : k'.taskRegistry = k.taskRegistry
  isRunning : k'.isRunning = k.isRunning
  lockNesting : k'.lockNesting = k.lockNesting
  timeSlicingEnabled : k'.timeSlicingEnabled = k.timeSlicingEnabled
  tcb : ∀ u, k'.tcb u = { k.tcb u with state := (k'.tcb u).state }
  isReady : ∀ u, (k'.tcb u).state.isReady = (k.tcb u).state.isReady
  blocked : ∀ u, (k'.tcb u).state = .blocked ↔ (k.tcb u).state = .blocked

namespace Switched

variable {k k' : Kernel} {t u c n : TaskId}

theorem refl (k : Kernel) : Switched k k :=
  ⟨rfl, rfl, rfl, rfl, rfl, rfl, rfl, fun _ => rfl, fun _ => rfl, fun _ => Iff.rfl⟩

theorem live (h : Switched k k') : k'.Live u ↔ k.Live u := by rw [Live, Live, h.taskRegistry]

theorem ready (h : Switched k k') : k'.Ready u ↔ k.Ready u := by
  rw [Ready, Ready, h.live, h.isReady]

theorem delayTicks (h : Switched k k') (u : TaskId) :
    (k'.tcb u).delayTicks = (k.tcb u).delayTicks := by rw [h.tcb]

theorem waitList (h : Switched k k') (u : TaskId) :
    (k'.tcb u).waitList = (k.tcb u).waitList := by rw [h.tcb]

theorem listInv (h : Switched k k') (hk : k.ListInv) : k'.ListInv :=
  hk.of_tcb h.taskRegistry h.stateLists h.waitLists h.readyBitmap fun u hu => by
    rw [h.tcb]
    exact (hk.consistent u hu).withState (h.isReady u) (h.blocked u)

theorem dispatch (hn : k.Ready n) : Switched k (Scheduler.dispatch k n) where
  readyBitmap := by simp
  stateLists := by simp
  waitLists := by simp
  taskRegistry := by simp
  isRunning := by simp
  lockNesting := by simp
  timeSlicingEnabled := by simp
  tcb u := by simp [Scheduler.dispatch_tcb]
  isReady u := by rw [Scheduler.dispatch_tcb]; exact Scheduler.dispatchedState_isReady hn u
  blocked u := by rw [Scheduler.dispatch_tcb]; exact Scheduler.dispatchedState_eq_blocked hn u

theorem performSwitch_of_ready (hsel : ∀ n, Scheduler.selectNextTask k = some n → k.Ready n) :
    Switched k (Scheduler.performSwitch k) := by
  cases hn : Scheduler.selectNextTask k with
  | none => rw [Scheduler.performSwitch_of_none hn]; exact refl k
  | some n =>
    rw [Scheduler.performSwitch_of_some hn]
    exact dispatch (hsel n hn)

theorem switchContext_of_ready (hsel : ∀ n, Scheduler.selectNextTask k = some n → k.Ready n) :
    Switched k (Scheduler.switchContext k) := by
  rw [Scheduler.switchContext]
  by_cases hl : 0 < k.lockNesting
  · rw [if_pos hl]
    exact ⟨rfl, rfl, rfl, rfl, rfl, rfl, rfl, fun _ => rfl, fun _ => rfl, fun _ => Iff.rfl⟩
  · rw [if_neg hl]
    cases Scheduler.selectNextTask k with
    | none => exact refl k
    | some n =>
      by_cases hc : k.currentTcb = some n
      · simp only [hc, if_true]
        exact refl k
      · simp only [hc, if_false]
        exact performSwitch_of_ready hsel

theorem reschedule_of_ready (hsel : ∀ n, Scheduler.selectNextTask k = some n → k.Ready n) :
    Switched k (Scheduler.reschedule k) := by
  have hsw := switchContext_of_ready hsel
  rw [Scheduler.reschedule]
  split
  · split
    · exact refl k
    · exact hsw
    · split
      · exact hsw
      · exact refl k
  · exact refl k

theorem performSwitch (h : k.ListInv) : Switched k (Scheduler.performSwitch k) :=
  performSwitch_of_ready fun _ hn => (Scheduler.selectNextTask_isTop h hn).ready

theorem switchContext (h : k.ListInv) : Switched k (Scheduler.switchContext k) :=
  switchContext_of_ready fun _ hn => (Scheduler.selectNextTask_isTop h hn).ready

theorem reschedule (h : k.ListInv) : Switched k (Scheduler.reschedule k) :=
  reschedule_of_ready fun _ hn => (Scheduler.selectNextTask_isTop h hn).ready

end Switched

section Core

variable {k k' : Kernel} {t c : TaskId}

/-- `k'` and `k` have the same lists, control blocks and current task. -/
structure SameCore (k k' : Kernel) : Prop where
  readyBitmap : k'.readyBitmap = k.readyBitmap
  stateLists : k'.stateLists = k.stateLists
  waitLists : k'.waitLists = k.waitLists
  taskRegistry : k'.taskRegistry = k.taskRegistry
  tcb : k'.tcb = k.tcb
  currentTcb : k'.currentTcb = k.currentTcb

theorem SameCore.inv (e : SameCore k k') (h : k.Inv) : k'.Inv where
  lists := h.lists.of_tcb e.taskRegistry e.stateLists e.waitLists e.readyBitmap fun u hu => by
    rw [e.tcb]; exact ⟨h.lists.consistent u hu, rfl, rfl⟩
  current_live c hc := by
    rw [Live, e.taskRegistry]; exact h.current_live c (e.currentTcb ▸ hc)
  running t ht hs := by
    rw [e.currentTcb]
    exact h.running t (by rw [Live, ← e.taskRegistry]; exact ht) (e.tcb ▸ hs)

theorem SameCore.settled (e : SameCore k k') (h : k.Settled) : k'.Settled :=
  { e.inv h.toInv with
    current_running := fun c hc => by rw [e.tcb]; exact h.current_running c (e.currentTcb ▸ hc) }

theorem SameCore.ready (e : SameCore k k') : k'.Ready t ↔ k.Ready t := by
  rw [Ready, Ready, Live, Live, e.taskRegistry, e.tcb]

theorem SameCore.isTop (e : SameCore k k') (h : k.IsTop t) : k'.IsTop t :=
  h.congr (fun _ => e.ready) fun u => by rw [e.tcb]

end Core

/-! ## Switching keeps the invariant -/

variable {k : Kernel} {t c n : TaskId}

theorem Inv.performSwitch (h : k.Inv) : (Scheduler.performSwitch k).Inv := by
  cases hn : Scheduler.selectNextTask k with
  | none => rw [Scheduler.performSwitch_of_none hn]; exact h
  | some n =>
    rw [Scheduler.performSwitch_of_some hn]
    exact (Scheduler.settled_dispatch h (Scheduler.selectNextTask_isTop h.lists hn).ready).toInv

theorem Inv.switchContext (h : k.Inv) : (Scheduler.switchContext k).Inv := by
  rcases Scheduler.switchContext_cases h.lists with
    ⟨-, e⟩ | ⟨-, -, e⟩ | ⟨-, n, -, -, e⟩ | ⟨-, n, hn, e⟩
  · rw [e]; exact SameCore.inv (k := k) ⟨rfl, rfl, rfl, rfl, rfl, rfl⟩ h
  · rw [e]; exact h
  · rw [e]; exact h
  · rw [e]; exact (Scheduler.settled_dispatch h hn.ready).toInv

/-- Between two calls a switch, deferred or not, leaves the kernel settled. -/
theorem Settled.switchContext (h : k.Settled) : (Scheduler.switchContext k).Settled := by
  rcases Scheduler.switchContext_cases h.lists with
    ⟨-, e⟩ | ⟨-, -, e⟩ | ⟨-, n, -, -, e⟩ | ⟨-, n, hn, e⟩
  · rw [e]; exact SameCore.settled (k := k) ⟨rfl, rfl, rfl, rfl, rfl, rfl⟩ h
  · rw [e]; exact h
  · rw [e]; exact h
  · rw [e]; exact Scheduler.settled_dispatch h.toInv hn.ready

theorem Settled.reschedule (h : k.Settled) : (Scheduler.reschedule k).Settled := by
  rcases Scheduler.reschedule_cases h.lists with e | ⟨e, -⟩
  · rw [e]; exact h.switchContext
  · rw [e]; exact h

theorem Settled.performSwitch (h : k.Settled) : (Scheduler.performSwitch k).Settled := by
  cases hn : Scheduler.selectNextTask k with
  | none => rw [Scheduler.performSwitch_of_none hn]; exact h
  | some n =>
    rw [Scheduler.performSwitch_of_some hn]
    exact Scheduler.settled_dispatch h.toInv (Scheduler.selectNextTask_isTop h.lists hn).ready

/-- **A switch that takes place.**  With the scheduler unlocked and a task ready, the task that
runs afterwards is a ready one of maximal priority. -/
theorem Inv.switchContext_top (h : k.Inv) (hl : k.lockNesting = 0) (ht : k.Ready t) :
    ∃ n, (Scheduler.switchContext k).currentTcb = some n ∧
      (Scheduler.switchContext k).IsTop n := by
  rcases Scheduler.switchContext_cases h.lists with
    ⟨hl', -⟩ | ⟨-, hnone, -⟩ | ⟨-, n, hn, hc, e⟩ | ⟨-, n, hn, e⟩
  · omega
  · exact absurd ht (hnone t)
  · rw [e]; exact ⟨n, hc, hn⟩
  · rw [e]; exact ⟨n, by simp, Scheduler.isTop_dispatch hn⟩

/-- After the current task has blocked, a switch that takes place settles the kernel again. -/
theorem Inv.switchContext_settled (h : k.Inv) (hl : k.lockNesting = 0) (ht : k.Ready t)
    (hcur : ∀ c, k.currentTcb = some c → (k.tcb c).state ≠ .ready) :
    (Scheduler.switchContext k).Settled := by
  rcases Scheduler.switchContext_cases h.lists with
    ⟨hl', -⟩ | ⟨-, hnone, -⟩ | ⟨-, n, hn, hc, e⟩ | ⟨-, n, hn, e⟩
  · omega
  · exact absurd ht (hnone t)
  · rw [e]
    refine { h with current_running := fun c hc' => ?_ }
    obtain rfl : n = c := Option.some_inj.1 (hc.symm.trans hc')
    exact (TaskState.isReady_iff.1 hn.ready.2).resolve_left (hcur n hc)
  · rw [e]; exact Scheduler.settled_dispatch h hn.ready

end Kernel

end Sertos
