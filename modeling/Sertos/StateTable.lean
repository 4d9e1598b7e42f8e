import Sertos.TaskDeletion
import Sertos.SetPriority

/-!
# The states a task goes through

The table of state transitions is consulted by three calls only; everything else writes the state
field directly.  Here a call is cut where it asks for a switch (`LifeOp.begin`), so that the change
its critical section makes and the change the switch makes are two steps, and each is held against
the table (`Kernel.FollowsTable`).

`states_follow_table` says that both are in the table as long as no task is suspended, resumed or
deleted while it is `RUNNING` or `BLOCKED`, and no `RUNNING` task is given another priority.
-/

set_option autoImplicit false

namespace Sertos

open Intrusive Lts Scheduler

/-! ## Calls and the switches they ask for -/

/-- The function through which a call asks for a switch. -/
inductive Request
  | yield
  | switchContext
  | reschedule
  | performSwitch
deriving DecidableEq, Repr

/-- The switch, if it takes place. -/
def Request.run (k : Kernel) : Request → Kernel
  | .yield => Scheduler.yield k
  | .switchContext => Scheduler.switchContext k
  | .reschedule => Scheduler.reschedule k
  | .performSwitch => Scheduler.performSwitch k

/-- The tasks, and the switch that the last call still has to ask for. -/
structure Stage where
  tasks : Tasks
  request : Option Request

namespace Stage

/-- A call that has changed the kernel, and asks for a switch if `p` holds. -/
def ask (s : Tasks) (k : Kernel) (p : Prop) [Decidable p] (q : Request) : Stage :=
  ⟨s.setKernel k, if p then some q else none⟩

/-- The tasks when the switch has been asked for. -/
def complete (x : Stage) : Tasks := match x.request with
  | some q => x.tasks.setKernel (q.run x.tasks.kernel)
  | none => x.tasks

@[simp] theorem complete_none (s : Tasks) : (⟨s, none⟩ : Stage).complete = s := rfl

@[simp] theorem complete_some (s : Tasks) (q : Request) :
    (⟨s, some q⟩ : Stage).complete = s.setKernel (q.run s.kernel) := rfl

theorem complete_ask (s : Tasks) (k : Kernel) (p : Prop) [Decidable p] (q : Request) :
    (ask s k p q).complete = s.setKernel (if p then q.run k else k) := by
  by_cases hp : p <;> simp only [ask, hp, if_true, if_false] <;> rfl

end Stage

/-- A call of the tasks', the scheduler's or the semaphores' interface. -/
inductive LifeOp
  | create (config : TaskConfig) (t : TaskId)
  | start (tickInit : Status)
  | suspend (handle : Option TaskId)
  | resume (handle : Option TaskId)
  | delete (handle : Option TaskId)
  | setPriority (handle : Option TaskId) (newPriority : ℕ)
  | delay (n : ℕ)
  | tick
  | yield
  | semTake (i timeout : ℕ)
  | semGive (i : ℕ)
deriving DecidableEq, Repr

namespace LifeOp

/-- The whole call, with the switch it asks for. -/
def run (s : Tasks) : LifeOp → Tasks
  | .create config t => TaskOp.run s (.create config t)
  | .start tickInit => s.setKernel (Scheduler.start s.kernel tickInit)
  | .suspend handle => TaskOp.run s (.suspend handle)
  | .resume handle => TaskOp.run s (.resume handle)
  | .delete handle => TaskOp.run s (.delete handle)
  | .setPriority handle p => s.setKernel (Task.setPriority s.kernel s.magic handle p).1
  | .delay n => s.setKernel (Scheduler.delay s.kernel n).1
  | .tick => s.setKernel (Scheduler.tick s.kernel)
  | .yield => s.setKernel (Scheduler.yield s.kernel)
  | .semTake i timeout => { s with system := (Sem.take s.system i timeout).1 }
  | .semGive i => { s with system := (Sem.give s.system i).1 }

/-- The call up to where it asks for a switch. -/
def begin (s : Tasks) : LifeOp → Stage
  | .create config t =>
    let r := Task.createStaticSection s.kernel config t
    if r.2 = .ok then
      { tasks :=
          { system := ({ s.system with kernel := r.1 } : System).setPc t .idle
            magic := Function.update s.magic t Task.magicWord }
        request := if r.1.isRunning then some .reschedule else none }
    else ⟨s.setKernel r.1, none⟩
  | .start tickInit =>
    .ask s { s.kernel with isRunning := tickInit = .ok } (tickInit = .ok) .performSwitch
  | .suspend handle => match handle.or s.kernel.currentTcb with
    | some t =>
      if Task.accepts s.kernel s.magic t .suspended then
        let k := Task.suspendSection s.kernel t
        .ask s k (s.kernel.currentTcb = some t ∧ k.isRunning) .yield
      else ⟨s, none⟩
    | none => ⟨s, none⟩
  | .resume handle => match handle with
    | some t =>
      if Task.accepts s.kernel s.magic t .ready then
        let r := addReady s.kernel t
        .ask s r.1 (r.2 = .ok ∧ r.1.isRunning) .reschedule
      else ⟨s, none⟩
    | none => ⟨s, none⟩
  | .delete handle => match handle.or s.kernel.currentTcb with
    | some t =>
      if Task.accepts s.kernel s.magic t .terminated then
        let k := Task.deleteSection s.kernel t
        .ask s k (s.kernel.currentTcb = some t ∧ k.isRunning) .yield
      else ⟨s, none⟩
    | none => ⟨s, none⟩
  | .setPriority handle p =>
    if maxPriorities ≤ p then ⟨s, none⟩
    else match handle.or s.kernel.currentTcb with
      | some t =>
        if s.magic t ≠ Task.magicWord then ⟨s, none⟩
        else
          let k := Task.setPrioritySection s.kernel t p
          .ask s k (k.isRunning) .reschedule
      | none => ⟨s, none⟩
  | .delay n =>
    if n = 0 then ⟨s, some .yield⟩
    else match s.kernel.isRunning, s.kernel.currentTcb with
      | true, some c => ⟨s.setKernel (delaySection s.kernel c n), some .switchContext⟩
      | _, _ => ⟨s, none⟩
  | .tick =>
    let r := tickSection s.kernel
    .ask s r.1 (r.2 || r.1.timeSlicingEnabled) .switchContext
  | .yield => ⟨s, some .yield⟩
  | .semTake i timeout =>
    if (s.system.sems i).magic ≠ semMagicWord then ⟨s, none⟩
    else match Sem.takeSection s.system i timeout with
      | (x, some _) => ⟨{ s with system := x }, none⟩
      | (x, none) => match x.kernel.isRunning, x.kernel.currentTcb with
        | true, some c =>
          ⟨({ s with system := x } : Tasks).setKernel
            (waitListBlockSection x.kernel c (.sem i) timeout), some .switchContext⟩
        | _, _ => ⟨{ s with system := x }, none⟩
  | .semGive i =>
    if (s.system.sems i).magic ≠ semMagicWord then ⟨s, none⟩
    else match Sem.giveSection s.system i with
      | (x, _, some _) => .ask { s with system := x } x.kernel (x.kernel.isRunning) .reschedule
      | (x, _, none) => ⟨{ s with system := x }, none⟩

/-- The calls that can come next.  The Idle task is neither suspended nor deleted, and does not
block. -/
def Allowed (s : Tasks) : LifeOp → Prop
  | .create _ t => ¬ s.kernel.Live t
  | .suspend handle | .delete handle => handle.or s.kernel.currentTcb ≠ some idleTcb
  | .delay n | .semTake _ n => n ≠ 0 → s.kernel.currentTcb ≠ some idleTcb
  | _ => True

/-- No task is suspended, resumed or deleted while it is `RUNNING` or `BLOCKED`, and no `RUNNING`
task is given another priority. -/
def InOrder (s : Tasks) : LifeOp → Prop
  | .suspend handle | .delete handle => ∀ t, handle.or s.kernel.currentTcb = some t →
    s.magic t = Task.magicWord →
      (s.kernel.tcb t).state ≠ .running ∧ (s.kernel.tcb t).state ≠ .blocked
  | .resume handle => ∀ t, handle = some t → s.magic t = Task.magicWord →
    (s.kernel.tcb t).state ≠ .running ∧ (s.kernel.tcb t).state ≠ .blocked
  | .setPriority handle p => p < maxPriorities → ∀ t, handle.or s.kernel.currentTcb = some t →
    s.magic t = Task.magicWord →
      ((s.kernel.tcb t).state ≠ .running ∨ p = (s.kernel.tcb t).priority)
  | _ => True

instance (s : Tasks) : DecidablePred (Allowed s)
  | .create _ t => inferInstanceAs (Decidable (¬ s.kernel.Live t))
  | .suspend handle | .delete handle =>
    inferInstanceAs (Decidable (handle.or s.kernel.currentTcb ≠ some idleTcb))
  | .delay n | .semTake _ n =>
    inferInstanceAs (Decidable (n ≠ 0 → s.kernel.currentTcb ≠ some idleTcb))
  | .start _ | .resume _ | .setPriority _ _ | .tick | .yield | .semGive _ => .isTrue trivial

end LifeOp

/-- One step: a call up to where it asks for a switch, or that switch. -/
inductive LifeStep
  | call (op : LifeOp)
  | switch
deriving DecidableEq, Repr

namespace LifeStep

/-- The state change of a step. -/
def run (x : Stage) : LifeStep → Stage
  | .call op => op.begin x.tasks
  | .switch => ⟨x.complete, none⟩

/-- A call is made when the last one has asked for its switch. -/
def Allowed (x : Stage) : LifeStep → Prop
  | .call op => x.request = none ∧ op.Allowed x.tasks
  | .switch => x.request ≠ none

/-- The calls are in order. -/
def InOrder (x : Stage) : LifeStep → Prop
  | .call op => op.InOrder x.tasks
  | .switch => True

/-- The step creates the task. -/
def Creates : LifeStep → TaskId → Prop
  | .call (.create _ u), t => u = t
  | _, _ => False

instance (x : Stage) : DecidablePred (Allowed x)
  | .call op => inferInstanceAs (Decidable (x.request = none ∧ op.Allowed x.tasks))
  | .switch => inferInstanceAs (Decidable (x.request ≠ none))

/-- One step of a run with the scheduler unlocked. -/
abbrev Step : Stage → LifeStep → Stage → Prop := Guarded Allowed run

end LifeStep

/-- **A call cut in two is the call.** -/
theorem LifeOp.complete_begin (s : Tasks) (op : LifeOp) : (op.begin s).complete = op.run s := by
  cases op with
  | create config t =>
    simp only [begin, run, TaskOp.run, Task.createStatic]
    by_cases hok : (Task.createStaticSection s.kernel config t).2 = .ok
    · by_cases hrun : (Task.createStaticSection s.kernel config t).1.isRunning = true <;>
        simp only [hok, hrun, and_self, and_false, if_true, if_false, Bool.false_eq_true] <;> rfl
    · simp only [hok, false_and, if_false, Stage.complete_none]
  | start tickInit =>
    simp only [begin, run, Stage.complete_ask, Scheduler.start]
    split
    · rename_i h
      simp only [h, decide_true]
      rfl
    · rename_i h
      simp only [h, decide_false]
  | suspend handle =>
    simp only [begin, run, TaskOp.run, Task.suspend]
    cases handle.or s.kernel.currentTcb with
    | none => rfl
    | some t =>
      simp only
      split
      · exact Stage.complete_ask _ _ _ _
      · rfl
  | resume handle =>
    simp only [begin, run, TaskOp.run, Task.resume]
    cases handle with
    | none => rfl
    | some t =>
      simp only
      split
      · rw [Stage.complete_ask]
        split <;> rfl
      · rfl
  | delete handle =>
    simp only [begin, run, TaskOp.run, Task.delete]
    cases handle.or s.kernel.currentTcb with
    | none => rfl
    | some t =>
      simp only
      split
      · exact Stage.complete_ask _ _ _ _
      · rfl
  | setPriority handle p =>
    simp only [begin, run, Task.setPriority]
    split
    · rfl
    · cases handle.or s.kernel.currentTcb with
      | none => rfl
      | some t =>
        simp only
        split
        · rfl
        · exact Stage.complete_ask _ _ _ _
  | delay n =>
    simp only [begin, run, Scheduler.delay]
    split
    · rfl
    · cases s.kernel.isRunning with
      | false => rfl
      | true => cases s.kernel.currentTcb <;> rfl
  | tick => exact Stage.complete_ask _ _ _ _
  | yield => rfl
  | semTake i timeout =>
    simp only [begin, run, Sem.take]
    split
    · rfl
    · rcases Sem.takeSection s.system i timeout with ⟨x, _ | status⟩
      · simp only [waitListBlock]
        cases x.kernel.isRunning with
        | false => rfl
        | true => cases x.kernel.currentTcb <;> rfl
      · rfl
  | semGive i =>
    simp only [begin, run, Sem.give]
    split
    · rfl
    · rcases Sem.giveSection s.system i with ⟨x, status, _ | t⟩
      · rfl
      · simp only [Stage.complete_ask]
        split <;> rfl

/-! ## Switches -/

namespace Kernel

/-- Every state that changes does so along an edge of the table; tasks that `created` holds of get a
new control block. -/
def FollowsTable (created : TaskId → Prop) (k k' : Kernel) : Prop :=
  ∀ t, ¬ created t → (k'.tcb t).state ≠ (k.tcb t).state →
    Task.isValidTransition (k.tcb t).state (k'.tcb t).state = true

variable {k k' k'' : Kernel} {t n c : TaskId} {r : LinkedList TaskId} {created : TaskId → Prop}

namespace FollowsTable

theorem of_eq (h : ∀ t, ¬ created t → (k'.tcb t).state = (k.tcb t).state) :
    k.FollowsTable created k' :=
  fun t ht hne => absurd (h t ht) hne

/-- A step that changes the state of one task. -/
theorem of_ne (h : ∀ u, u ≠ t → (k'.tcb u).state = (k.tcb u).state)
    (ht : (k'.tcb t).state ≠ (k.tcb t).state →
      Task.isValidTransition (k.tcb t).state (k'.tcb t).state = true) :
    k.FollowsTable created k' := by
  intro u _ hne
  by_cases hut : u = t
  · subst hut
    exact ht hne
  · exact absurd (h u hut) hne

/-- The outgoing task goes from `RUNNING` to `READY`, the next one from `READY` to `RUNNING`. -/
theorem dispatch (hn : (k.tcb n).state.isReady = true) : k.FollowsTable created (dispatch k n) := by
  intro t _ hne
  rw [dispatch_tcb] at hne ⊢
  simp only [dispatchedState] at hne ⊢
  by_cases htn : t = n
  · subst htn
    rw [if_pos rfl] at hne ⊢
    rcases TaskState.isReady_iff.1 hn with e | e
    · rw [e]
      decide
    · exact absurd e.symm hne
  · rw [if_neg htn] at hne ⊢
    split at hne
    · rename_i hcur
      rw [if_pos hcur, hcur.2]
      decide
    · exact absurd rfl hne

theorem performSwitch (hsel : ∀ n, selectNextTask k = some n → (k.tcb n).state.isReady = true) :
    k.FollowsTable created (performSwitch k) := by
  cases hn : selectNextTask k with
  | none => exact of_eq fun t _ => by rw [performSwitch_of_none hn]
  | some n =>
    rw [performSwitch_of_some hn]
    exact dispatch (hsel n hn)

theorem switchContext (hsel : ∀ n, selectNextTask k = some n → (k.tcb n).state.isReady = true) :
    k.FollowsTable created (switchContext k) := by
  rw [Scheduler.switchContext]
  split
  · exact of_eq fun _ _ => rfl
  · split
    · exact of_eq fun _ _ => rfl
    · split
      · exact of_eq fun _ _ => rfl
      · exact performSwitch hsel

theorem reschedule (hsel : ∀ n, selectNextTask k = some n → (k.tcb n).state.isReady = true) :
    k.FollowsTable created (reschedule k) := by
  rw [Scheduler.reschedule]
  split
  · split
    · exact of_eq fun _ _ => rfl
    · exact switchContext hsel
    · split
      · exact switchContext hsel
      · exact of_eq fun _ _ => rfl
  · exact of_eq fun _ _ => rfl

/-- A switch between tasks that are ready follows the table. -/
theorem request (h : (k.among r).Inv) {q : Request} (hq : q ≠ .yield) :
    k.FollowsTable created (q.run k) := by
  have hsel : ∀ n, selectNextTask k = some n → (k.tcb n).state.isReady = true :=
    fun n hn => (selectNextTask_isTop (k := k.among r) h.lists hn).ready.2
  cases q with
  | yield => exact absurd rfl hq
  | switchContext => exact switchContext hsel
  | reschedule => exact reschedule hsel
  | performSwitch => exact performSwitch hsel

theorem yield (h : (k.among r).Settled) : k.FollowsTable created (yield k) := by
  have hrot : (processTimeSlicing k).tcb = k.tcb := by
    have := (Rotated.processTimeSlicing h.toInv fun _ hc => h.ready_current hc).tcb
    rwa [processTimeSlicing_among] at this
  have hinv : ((processTimeSlicing k).among r).Inv := by
    rw [← processTimeSlicing_among]
    exact h.processTimeSlicing.toInv
  intro t ht
  have hswitch : (processTimeSlicing k).FollowsTable created (Scheduler.yield k) :=
    request hinv (q := .switchContext) (by simp)
  have hvalid := hswitch t ht
  rwa [hrot] at hvalid

end FollowsTable

end Kernel

/-! ## Changing a priority -/

namespace Task

variable {k : Kernel} {t u : TaskId} {p : ℕ}

theorem setPrioritySection_state (k : Kernel) (t u : TaskId) (p : ℕ) :
    ((setPrioritySection k t p).tcb u).state = (k.tcb u).state := by
  by_cases hs : (k.tcb t).state = .ready
  · simp only [setPrioritySection, hs, if_true]
    by_cases hut : u = t
    · subst hut
      simp only [addReady]
      split
      · simp
      · simp [Kernel.insertTail, Kernel.modify, hs]
    · rw [addReady_tcb_of_ne _ _ hut, Kernel.modify_tcb_of_ne _ _ _ hut, removeReady_tcb]
  · rw [setPrioritySection_of_ne_ready hs]
    by_cases hut : u = t
    · subst hut
      rw [Kernel.modify_tcb_same]
    · rw [Kernel.modify_tcb_of_ne _ _ _ hut]

end Task

/-! ## One call -/

theorem Stage.ask_request {s : Tasks} {k : Kernel} {p : Prop} [Decidable p] {q q' : Request}
    (h : (ask s k p q).request = some q') : p ∧ q' = q := by
  by_cases hp : p
  · simp only [ask, hp, if_true, Option.some_inj] at h
    exact ⟨hp, h.symm⟩
  · simp [ask, hp] at h

namespace Tasks.Orderly

variable {s : Tasks} {r : LinkedList TaskId} {t c : TaskId} {handle : Option TaskId} {op : LifeOp}

theorem run_semTake (h : s.Orderly r) {i timeout : ℕ}
    (ha : (LifeOp.semTake i timeout).Allowed s) : ((LifeOp.semTake i timeout).run s).Orderly r := by
  simp only [LifeOp.run, Sem.take, Sem.takeSection]
  split_ifs with hmagic hcount hwait
  · exact h
  · exact { h with }
  · exact h
  · exact h.sched (a := .block (.sem i) timeout) trivial ⟨hwait, ha hwait⟩
      fun _ => h.kernel.lockNesting_eq

theorem run_semGive (h : s.Orderly r) (i : ℕ) : ((LifeOp.semGive i).run s).Orderly r := by
  simp only [LifeOp.run, Sem.give]
  split_ifs
  · exact h
  · rcases Sem.giveSection_cases s.system i with ⟨t, rest, -, e⟩ | ⟨-, -, e⟩ | ⟨-, -, e⟩ <;> rw [e]
    · have hunblock := h.sched (a := .unblock (.sem i)) trivial trivial trivial
      simp only
      split
      · exact hunblock.reschedule
      · exact hunblock
    · exact { h with }
    · exact h

/-- **A whole call in order** keeps the tasks in order. -/
theorem run (h : s.Orderly r) (ha : op.Allowed s) (hc : op.InOrder s) :
    ∃ r', (op.run s).Orderly r' := by
  cases op with
  | create config t => exact h.create ha
  | start tickInit => exact ⟨r, h.sched (a := .start tickInit) trivial trivial trivial⟩
  | suspend handle => exact h.suspend ha hc
  | resume handle => exact h.resume hc
  | delete handle => exact h.delete ha hc
  | setPriority handle p => exact ⟨r, h.setPriority hc⟩
  | delay n => exact ⟨r, h.sched (a := .delay n) trivial ha fun _ => h.kernel.lockNesting_eq⟩
  | tick => exact ⟨r, h.sched (a := .tick) trivial trivial trivial⟩
  | yield => exact ⟨r, h.sched (a := .yield) trivial trivial trivial⟩
  | semTake i timeout => exact ⟨r, h.run_semTake ha⟩
  | semGive i => exact ⟨r, h.run_semGive i⟩

/-! ### The critical section -/

theorem park_follows (h : s.Orderly r) (hc : s.kernel.currentTcb = some c) {p : TaskId → Prop}
    {W : Option WaitList} {n : ℕ} :
    s.kernel.FollowsTable p ((s.kernel.among r).park c W n) := by
  refine .of_ne (t := c) (fun u hu => ?_) fun _ => ?_
  · rw [Kernel.park_tcb_of_ne _ _ _ _ hu]
    rfl
  · rw [Kernel.park_tcb_same, Tcb.parked_state, show (s.kernel.tcb c).state = .running from
      h.kernel.current_running c hc]
    decide

/-- A delay blocks the current task. -/
theorem delaySection_eq (h : s.Orderly r) (hc : s.kernel.currentTcb = some c) {n : ℕ} (hn : n ≠ 0) :
    (delaySection s.kernel c n).among r = (s.kernel.among r).park c none n := by
  obtain ⟨hlive, hr⟩ := h.settled.ready_current hc
  rw [← Kernel.delaySection_among]
  exact delaySection_eq_park h.kernel.lists hlive hr (Nat.pos_of_ne_zero hn)

/-- So does a take that waits. -/
theorem waitListBlockSection_eq (h : s.Orderly r) (hc : s.kernel.currentTcb = some c) {W : WaitList}
    {n : ℕ} (hn : n ≠ 0) : (waitListBlockSection s.kernel c W n).among r =
      (s.kernel.among r).park c (some W) (if n = waitForever then 0 else n) := by
  obtain ⟨hlive, hr⟩ := h.settled.ready_current hc
  rw [← Kernel.waitListBlockSection_among]
  exact waitListBlockSection_eq_park h.kernel.lists hlive hr hn

theorem tick_follows (h : s.Orderly r) {created : TaskId → Prop} :
    s.kernel.FollowsTable created (tickSection s.kernel).1 := by
  have htick := (Kernel.Ticked.settled h.settled).tcb
  rw [Kernel.tickSection_among] at htick
  intro u _ hne
  have hu := htick u
  simp only [Kernel.among_tcb] at hu
  rw [hu] at hne ⊢
  split at hne
  · rename_i hmem
    have hb : (s.kernel.tcb u).state = .blocked := (h.kernel.lists.mem_delayList.1 hmem).2.1
    rw [if_pos hmem, Tcb.countDown]
    rw [Tcb.countDown] at hne
    split at hne
    · rename_i h1
      rw [if_pos h1, hb, Tcb.woken_state]
      decide
    · exact absurd rfl hne
  · exact absurd rfl hne

theorem unblock_follows (h : s.Orderly r) {created : TaskId → Prop} (W : WaitList) :
    s.kernel.FollowsTable created (waitListUnblockHighest s.kernel W).1 := by
  rcases Kernel.unblockHighest_cases h.kernel.lists W with ⟨-, e⟩ | ⟨t, -, -, hb, -, e⟩
  · have htcb : (waitListUnblockHighest s.kernel W).1.tcb = s.kernel.tcb := by
      have := congrArg (fun x => x.1.tcb) e
      simpa [Kernel.unblockHighest_among] using this
    exact .of_eq fun u _ => by rw [htcb]
  · have htcb : (waitListUnblockHighest s.kernel W).1.tcb = ((s.kernel.among r).wake t).tcb := by
      have := congrArg (fun x => x.1.tcb) e
      simpa [Kernel.unblockHighest_among] using this
    refine .of_ne (t := t) (fun u hu => ?_) fun _ => ?_
    · rw [htcb, Kernel.wake_tcb_of_ne _ _ hu]
      rfl
    · rw [htcb, Kernel.wake_tcb_same, Tcb.woken_state, show (s.kernel.tcb t).state = .blocked from hb]
      decide

theorem createStaticSection_follows (config : TaskConfig) (t : TaskId) :
    s.kernel.FollowsTable (· = t) (Task.createStaticSection s.kernel config t).1 := by
  refine .of_eq fun u hu => ?_
  rcases Task.createStaticSection_cases s.kernel config t with ⟨-, e⟩ | ⟨-, e⟩
  · rw [e]
  · rw [e]
    exact congrArg Tcb.state (Kernel.enroll_tcb_of_ne hu)

theorem suspendSection_follows {created : TaskId → Prop}
    (haccepts : Task.accepts s.kernel s.magic t .suspended) :
    s.kernel.FollowsTable created (Task.suspendSection s.kernel t) := by
  refine .of_ne (t := t) (fun u hu => ?_) fun _ => ?_
  · rw [Task.suspendSection, Kernel.modify_tcb_of_ne _ _ _ hu, Task.withdraw_tcb]
  · have hsuspended : ((Task.suspendSection s.kernel t).tcb t).state = .suspended := by
      rw [Task.suspendSection, Kernel.modify_tcb_same]
    rw [hsuspended]
    exact (Task.accepts_iff.1 haccepts).2

theorem deleteSection_follows {created : TaskId → Prop}
    (haccepts : Task.accepts s.kernel s.magic t .terminated) :
    s.kernel.FollowsTable created (Task.deleteSection s.kernel t) := by
  refine .of_ne (t := t) (fun u hu => ?_) fun _ => ?_
  · rw [Task.deleteSection, Kernel.modify_tcb_of_ne _ _ _ hu, Task.unregisterTask_eq,
      Kernel.among_tcb, Task.withdraw_tcb]
  · have hterminated : ((Task.deleteSection s.kernel t).tcb t).state = .terminated := by
      rw [Task.deleteSection, Kernel.modify_tcb_same]
    rw [hterminated]
    exact (Task.accepts_iff.1 haccepts).2

/-- A task with a priority that is not one stays as it is. -/
theorem addReady_follows {created : TaskId → Prop}
    (haccepts : Task.accepts s.kernel s.magic t .ready) :
    s.kernel.FollowsTable created (addReady s.kernel t).1 := by
  refine .of_ne (t := t) (fun u hu => ?_) fun hne => ?_
  · rw [addReady_tcb_of_ne _ _ hu]
  · by_cases hp : (s.kernel.tcb t).priority < maxPriorities
    · have hready : ((addReady s.kernel t).1.tcb t).state = .ready := by
        rw [addReady_eq hp]
        simp
      rw [hready]
      exact (Task.accepts_iff.1 haccepts).2
    · simp [addReady, Nat.not_lt.1 hp] at hne

theorem delaySection_follows (h : s.Orderly r) {created : TaskId → Prop}
    (hc : s.kernel.currentTcb = some c) {n : ℕ} (hn : n ≠ 0) :
    s.kernel.FollowsTable created (delaySection s.kernel c n) := by
  have hpark := h.park_follows hc (p := created) (W := none) (n := n)
  rw [← h.delaySection_eq hc hn] at hpark
  exact hpark

theorem waitListBlockSection_follows (h : s.Orderly r) {created : TaskId → Prop}
    (hc : s.kernel.currentTcb = some c) (W : WaitList) {n : ℕ} (hn : n ≠ 0) :
    s.kernel.FollowsTable created (waitListBlockSection s.kernel c W n) := by
  have hpark := h.park_follows hc (p := created) (W := some W)
    (n := if n = waitForever then 0 else n)
  rw [← h.waitListBlockSection_eq hc hn] at hpark
  exact hpark

/-- **The critical section of a call** follows the table. -/
theorem begin_follows (h : s.Orderly r) (ha : op.Allowed s) :
    s.kernel.FollowsTable (LifeStep.call op).Creates (op.begin s).tasks.kernel := by
  have hrefl : s.kernel.FollowsTable (LifeStep.call op).Creates s.kernel := .of_eq fun _ _ => rfl
  cases op with
  | create config t =>
    have hcreate := createStaticSection_follows (s := s) config t
    simp only [LifeOp.begin]
    split
    · exact fun u hu => hcreate u fun e => hu e.symm
    · exact fun u hu => hcreate u fun e => hu e.symm
  | start tickInit => exact hrefl
  | suspend handle =>
    simp only [LifeOp.begin]
    cases handle.or s.kernel.currentTcb with
    | none => exact hrefl
    | some t =>
      simp only
      split
      · exact suspendSection_follows ‹_›
      · exact hrefl
  | resume handle =>
    simp only [LifeOp.begin]
    cases handle with
    | none => exact hrefl
    | some t =>
      simp only
      split
      · exact addReady_follows ‹_›
      · exact hrefl
  | delete handle =>
    simp only [LifeOp.begin]
    cases handle.or s.kernel.currentTcb with
    | none => exact hrefl
    | some t =>
      simp only
      split
      · exact deleteSection_follows ‹_›
      · exact hrefl
  | setPriority handle p =>
    simp only [LifeOp.begin]
    split
    · exact hrefl
    · cases handle.or s.kernel.currentTcb with
      | none => exact hrefl
      | some t =>
        simp only
        split
        · exact hrefl
        · exact .of_eq fun u _ => Task.setPrioritySection_state s.kernel t u p
  | delay n =>
    simp only [LifeOp.begin]
    split
    · exact hrefl
    · cases hrun : s.kernel.isRunning with
      | false => exact hrefl
      | true =>
        cases hc : s.kernel.currentTcb with
        | none => exact hrefl
        | some c => exact h.delaySection_follows hc ‹_›
  | tick => exact h.tick_follows
  | yield => exact hrefl
  | semTake i timeout =>
    simp only [LifeOp.begin, Sem.takeSection]
    split_ifs with hmagic hcount hwait
    · exact hrefl
    · exact hrefl
    · exact hrefl
    · simp only
      cases hrun : s.system.kernel.isRunning with
      | false => exact hrefl
      | true =>
        cases hc : s.system.kernel.currentTcb with
        | none => exact hrefl
        | some c => exact h.waitListBlockSection_follows hc (.sem i) hwait
  | semGive i =>
    simp only [LifeOp.begin]
    split_ifs
    · exact hrefl
    · rcases Sem.giveSection_cases s.system i with ⟨t, rest, -, e⟩ | ⟨-, -, e⟩ | ⟨-, -, e⟩ <;> rw [e]
      · exact h.unblock_follows (.sem i)
      · exact hrefl
      · exact hrefl

/-! ### The switch -/

theorem addReady_settled (h : s.Orderly r) (haccepts : Task.accepts s.kernel s.magic t .ready)
    (ht : (s.kernel.tcb t).state ≠ .running ∧ (s.kernel.tcb t).state ≠ .blocked) :
    ((addReady s.kernel t).1.among (r.insertTail t)).Settled := by
  obtain ⟨hm, hvalid⟩ := Task.accepts_iff.1 haccepts
  have hsuspended : (s.kernel.tcb t).state = .suspended :=
    ((Task.isValidTransition_ready.1 hvalid).resolve_left ht.1).resolve_left ht.2
  obtain ⟨htr, -, hres⟩ := h.of_suspended hm hsuspended
  exact (Kernel.Moved.joined (Kernel.joined_addReady (r := r) hres.priority_lt hres.consistent)
    htr).settled h.settled

theorem delaySection_inv (h : s.Orderly r) (hc : s.kernel.currentTcb = some c) {n : ℕ}
    (hn : n ≠ 0) : ((delaySection s.kernel c n).among r).Inv := by
  rw [h.delaySection_eq hc hn]
  exact h.kernel.toInv.park (h.settled.ready_current hc) (Or.inl (Nat.pos_of_ne_zero hn))

theorem waitListBlockSection_inv (h : s.Orderly r) (hc : s.kernel.currentTcb = some c)
    (W : WaitList) {n : ℕ} (hn : n ≠ 0) :
    ((waitListBlockSection s.kernel c W n).among r).Inv := by
  rw [h.waitListBlockSection_eq hc hn]
  exact h.kernel.toInv.park (h.settled.ready_current hc) (Or.inr (by simp))

/-- **When a call asks for a switch** the lists of the cycle are right. -/
theorem request_settled (h : s.Orderly r) (ha : op.Allowed s) (hc : op.InOrder s) {q : Request}
    (hq : (op.begin s).request = some q) :
    ∃ r', ((op.begin s).tasks.kernel.among r').Inv ∧
      (q = .yield → ((op.begin s).tasks.kernel.among r').Settled) := by
  have hyield : ∀ {k : Kernel} {r' : LinkedList TaskId}, (k.among r').Settled →
      ∃ r', (k.among r').Inv ∧ (q = .yield → (k.among r').Settled) :=
    fun hk => ⟨_, hk.toInv, fun _ => hk⟩
  cases op with
  | create config t =>
    have htr : t ∉ r.nodes := fun hm => ha (h.registered hm)
    simp only [LifeOp.begin] at hq ⊢
    rcases Task.createStaticSection_cases s.kernel config t with ⟨hne, e⟩ | ⟨hp, e⟩
    · rw [if_neg hne] at hq
      exact absurd hq (by simp)
    · have hjoined : ((s.kernel.enroll t config).among (r.insertTail t)).Settled :=
        (Kernel.Moved.joined (Kernel.joined_enroll (k := s.kernel.among r) hp) htr).settled h.settled
      simp only [e, if_true]
      exact hyield hjoined
  | start tickInit =>
    have hsettled : (({ s.kernel with isRunning := tickInit = .ok } : Kernel).among r).Settled :=
      Kernel.SameCore.settled (k := s.kernel.among r) ⟨rfl, rfl, rfl, rfl, rfl, rfl⟩ h.settled
    exact hyield hsettled
  | suspend handle =>
    simp only [LifeOp.begin] at hq ⊢
    cases ht : handle.or s.kernel.currentTcb with
    | none => simp [ht] at hq
    | some t =>
      simp only [ht] at hq
      split at hq
      · rename_i haccepts
        obtain ⟨⟨hcur, -⟩, -⟩ := Stage.ask_request hq
        exact absurd hcur (h.not_current (hc t ht (Task.accepts_iff.1 haccepts).1).1)
      · exact absurd hq (by simp)
  | resume handle =>
    simp only [LifeOp.begin] at hq ⊢
    cases handle with
    | none => simp at hq
    | some t =>
      simp only at hq ⊢
      split at hq
      · rename_i haccepts
        rw [if_pos haccepts]
        exact hyield (h.addReady_settled haccepts (hc t rfl (Task.accepts_iff.1 haccepts).1))
      · exact absurd hq (by simp)
  | delete handle =>
    simp only [LifeOp.begin] at hq ⊢
    cases ht : handle.or s.kernel.currentTcb with
    | none => simp [ht] at hq
    | some t =>
      simp only [ht] at hq
      split at hq
      · rename_i haccepts
        obtain ⟨⟨hcur, -⟩, -⟩ := Stage.ask_request hq
        exact absurd hcur (h.not_current (hc t ht (Task.accepts_iff.1 haccepts).1).1)
      · exact absurd hq (by simp)
  | setPriority handle p =>
    simp only [LifeOp.begin] at hq ⊢
    split at hq
    · exact absurd hq (by simp)
    · rename_i hp
      rw [if_neg hp]
      cases ht : handle.or s.kernel.currentTcb with
      | none => simp [ht] at hq
      | some t =>
        simp only [ht] at hq ⊢
        split at hq
        · exact absurd hq (by simp)
        · rename_i hm
          have hp' := Nat.not_le.1 hp
          rw [if_neg hm]
          exact hyield (h.setPrioritySection (not_not.1 hm) hp' (hc hp' t ht (not_not.1 hm))).settled
  | delay n =>
    simp only [LifeOp.begin] at hq ⊢
    by_cases hn : n = 0
    · rw [if_pos hn]
      exact hyield h.settled
    · rw [if_neg hn] at hq ⊢
      cases hrun : s.kernel.isRunning with
      | false => simp [hrun] at hq
      | true =>
        cases hcur : s.kernel.currentTcb with
        | none => simp [hrun, hcur] at hq
        | some c =>
          simp only [hrun, hcur, Option.some_inj] at hq
          exact ⟨r, h.delaySection_inv hcur hn, fun e => absurd (hq.trans e) (by simp)⟩
  | tick =>
    have htick := h.settled.tickSection
    rw [Kernel.tickSection_among] at htick
    exact hyield htick
  | yield => exact hyield h.settled
  | semTake i timeout =>
    simp only [LifeOp.begin, Sem.takeSection] at hq ⊢
    split_ifs at hq ⊢ with hmagic hcount hwait
    simp only at hq ⊢
    cases hrun : s.system.kernel.isRunning with
    | false => simp [hrun] at hq
    | true =>
      cases hcur : s.system.kernel.currentTcb with
      | none => simp [hrun, hcur] at hq
      | some c =>
        simp only [hrun, hcur, Option.some_inj] at hq
        exact ⟨r, h.waitListBlockSection_inv hcur (.sem i) hwait,
          fun e => absurd (hq.trans e) (by simp)⟩
  | semGive i =>
    simp only [LifeOp.begin] at hq ⊢
    split_ifs at hq ⊢
    rcases Sem.giveSection_cases s.system i with ⟨t, rest, -, e⟩ | ⟨-, -, e⟩ | ⟨-, -, e⟩ <;>
      rw [e] at hq ⊢
    · have hunblock := h.settled.unblockHighest (.sem i)
      rw [Kernel.unblockHighest_among] at hunblock
      exact hyield hunblock
    · exact absurd hq (by simp)
    · exact absurd hq (by simp)

end Tasks.Orderly

/-! ## Runs -/

/-- The tasks are in order once the switch has been asked for, and the switch follows the table. -/
structure Stage.Orderly (x : Stage) : Prop where
  completes : ∃ r, x.complete.Orderly r
  follows : ∀ q, x.request = some q →
    x.tasks.kernel.FollowsTable (fun _ => False) (q.run x.tasks.kernel)

namespace Stage

variable {x x' : Stage} {a : LifeStep}

/-- **One step** follows the table and leaves the tasks in order. -/
theorem Orderly.step (h : x.Orderly) (hs : LifeStep.Step x a x') (hc : a.InOrder x) :
    x'.Orderly ∧ x.tasks.kernel.FollowsTable a.Creates x'.tasks.kernel := by
  obtain ⟨ha, rfl⟩ := hs
  obtain ⟨⟨r, hr⟩, hfollows⟩ := h
  cases a with
  | call op =>
    obtain ⟨s, request⟩ := x
    obtain ⟨rfl, ha⟩ := ha
    refine ⟨⟨?_, fun q hq => ?_⟩, hr.begin_follows ha⟩
    · rw [LifeStep.run, LifeOp.complete_begin]
      exact hr.run ha hc
    · obtain ⟨r', hinv, hsettled⟩ := hr.request_settled ha hc hq
      by_cases hy : q = .yield
      · subst hy
        exact .yield (hsettled rfl)
      · exact .request hinv hy
  | switch =>
    obtain ⟨s, request⟩ := x
    cases request with
    | none => exact absurd rfl ha
    | some q =>
      refine ⟨⟨⟨r, hr⟩, fun q' hq' => absurd hq' (by simp [LifeStep.run])⟩, ?_⟩
      intro t _ hne
      exact hfollows q rfl t id hne

/-- The stage after the initialisation. -/
def init (k : Kernel) (sems : ℕ → Semaphore) : Stage := ⟨Tasks.init k sems, none⟩

theorem init_orderly {mem : Kernel} {config : Option Config} {idleStack : ℕ}
    (hinit : (initWithConfig mem config idleStack).2 = .ok) (sems : ℕ → Semaphore) :
    (init (initWithConfig mem config idleStack).1 sems).Orderly :=
  ⟨⟨_, Tasks.init_ordered hinit (Kernel.initWithConfig_unlocked hinit)⟩,
    fun _ hq => absurd hq (by simp [init])⟩

/-- **The states follow the table.**  In every run in which no task is suspended, resumed or deleted
while it is `RUNNING` or `BLOCKED` and no `RUNNING` task is given another priority, every change of
a state is in the table of transitions, and no task leaves `TERMINATED`. -/
theorem states_follow_table {mem : Kernel} {config : Option Config} {idleStack : ℕ}
    {sems : ℕ → Semaphore} {steps : List LifeStep} {x : Stage}
    (hinit : (initWithConfig mem config idleStack).2 = .ok)
    (hsteps : Trace.AllSteps LifeStep.Step (fun x a _ => a.InOrder x)
      (init (initWithConfig mem config idleStack).1 sems) steps x) :
    Trace.AllSteps LifeStep.Step (fun x a x' => ∀ t, ¬ a.Creates t →
        ((x'.tasks.kernel.tcb t).state ≠ (x.tasks.kernel.tcb t).state →
          Task.isValidTransition (x.tasks.kernel.tcb t).state (x'.tasks.kernel.tcb t).state = true) ∧
        ((x.tasks.kernel.tcb t).state = .terminated → (x'.tasks.kernel.tcb t).state = .terminated))
      (init (initWithConfig mem config idleStack).1 sems) steps x := by
  refine hsteps.imp (I := Orderly) (fun x a x' hx hR hcond => ?_) (init_orderly hinit sems)
  obtain ⟨hx', hfollows⟩ := hx.step hR hcond
  refine ⟨hx', fun t ht => ⟨hfollows t ht, fun hs => ?_⟩⟩
  by_contra hne
  have hvalid := hfollows t ht (by rw [hs]; exact hne)
  rw [hs] at hvalid
  cases hs' : (x'.tasks.kernel.tcb t).state <;> rw [hs'] at hvalid <;> exact absurd hvalid (by decide)

/-- The stage before any task is created. -/
def fresh : Stage := init (initWithConfig bss none 0).1 fun _ => ⟨0, 1, semMagicWord⟩

/-- Task 1 delays itself, and the next tick brings it back. -/
def delayed : List LifeStep :=
  [.call (.create (.ofPriority 1) 1), .call (.start .ok), .switch, .call (.delay 1), .switch,
    .call .tick, .switch]

theorem states_follow_table_delayed :
    Trace LifeStep.Step fresh delayed (delayed.foldl LifeStep.run fresh) ∧
      Trace.AllSteps LifeStep.Step (fun x a x' => ∀ t, ¬ a.Creates t →
        ((x'.tasks.kernel.tcb t).state ≠ (x.tasks.kernel.tcb t).state →
          Task.isValidTransition (x.tasks.kernel.tcb t).state (x'.tasks.kernel.tcb t).state = true) ∧
        ((x.tasks.kernel.tcb t).state = .terminated → (x'.tasks.kernel.tcb t).state = .terminated))
      fresh delayed (delayed.foldl LifeStep.run fresh) :=
  ⟨Trace.of_guards (by decide +kernel), states_follow_table (by decide) (Trace.allSteps_of_guards
    ⟨trivial, trivial, trivial, trivial, trivial, trivial, trivial, trivial⟩)⟩

/-- Task 1 deletes itself, and the switch leads to task 2 of the same priority; when task 2 yields,
the switch leads back. -/
def selfDelete : List LifeStep :=
  [.call (.create (.ofPriority 1) 1), .call (.create (.ofPriority 1) 2), .call (.start .ok), .switch,
    .call (.delete none), .switch, .call .yield]

/-- **A deleted task runs again.**  It is still linked in its ready queue, and the switch writes
`RUNNING` over `TERMINATED`. -/
theorem terminated_runs_again :
    ∃ x x', Trace LifeStep.Step fresh selfDelete x ∧ LifeStep.Step x .switch x' ∧
      (x.tasks.kernel.tcb 1).state = .terminated ∧ (x'.tasks.kernel.tcb 1).state = .running ∧
      Task.isValidTransition .terminated .running = false :=
  ⟨_, _, Trace.of_guards (by decide +kernel), ⟨by decide +kernel, rfl⟩, by decide +kernel,
    by decide +kernel, by decide⟩

end Stage

end Sertos
