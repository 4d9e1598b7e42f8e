import Sertos.Steps

/-!
# Creation and initialisation

`Kernel.enroll` is what `sertos_task_create_static` does once its checks have passed: the control
block is written, the task appended to the ready queue of its priority and to the registry.  The
control block must not be live already, since nothing unlinks its nodes first.

`initWithConfig_settled` is the base case of every statement about runs.
-/

set_option autoImplicit false

namespace Sertos

open Intrusive

namespace Kernel

variable {k : Kernel} {t u c : TaskId} {config : TaskConfig}

/-- The kernel with the new task `t`. -/
def enroll (k : Kernel) (t : TaskId) (config : TaskConfig) : Kernel :=
  { Task.initTcbAndStack k t config with
    readyBitmap := Function.update k.readyBitmap config.priority true
    stateLists := k.stateLists.insertTail (.ready config.priority) t
    taskRegistry := k.taskRegistry.insertTail t
    tcb := Function.update k.tcb t { Task.initTcb config with stateLinked := true } }

@[simp] theorem enroll_currentTcb : (k.enroll t config).currentTcb = k.currentTcb := rfl
@[simp] theorem enroll_isRunning : (k.enroll t config).isRunning = k.isRunning := rfl
@[simp] theorem enroll_lockNesting : (k.enroll t config).lockNesting = k.lockNesting := rfl
@[simp] theorem enroll_waitLists : (k.enroll t config).waitLists = k.waitLists := rfl
@[simp] theorem enroll_reschedulePending :
    (k.enroll t config).reschedulePending = k.reschedulePending := rfl

theorem enroll_tcb_same :
    (k.enroll t config).tcb t = { Task.initTcb config with stateLinked := true } := by
  simp [enroll]

theorem enroll_tcb_of_ne (h : u ≠ t) : (k.enroll t config).tcb u = k.tcb u := by
  simp [enroll, h]

theorem live_enroll : (k.enroll t config).Live u ↔ k.Live u ∨ u = t :=
  LinkedList.mem_insertTail

theorem ne_of_live (hu : k.Live u) (ht : ¬ k.Live t) : u ≠ t := fun e => ht (e ▸ hu)

/-- A live task's control block is not the new one. -/
theorem enroll_tcb_of_live (hu : k.Live u) (ht : ¬ k.Live t) :
    (k.enroll t config).tcb u = k.tcb u :=
  enroll_tcb_of_ne (ne_of_live hu ht)

/-- `k'` is `k` with the ready task `t` added: its control block written, its node appended to the
ready queue of its priority, and the task registered. -/
structure Joined (k k' : Kernel) (t : TaskId) : Prop where
  readyBitmap : k'.readyBitmap = Function.update k.readyBitmap (k'.tcb t).priority true
  stateLists : k'.stateLists = k.stateLists.insertTail (.ready (k'.tcb t).priority) t
  waitLists : k'.waitLists = k.waitLists
  taskRegistry : k'.taskRegistry = k.taskRegistry.insertTail t
  currentTcb : k'.currentTcb = k.currentTcb
  lockNesting : k'.lockNesting = k.lockNesting
  timeSlicingEnabled : k'.timeSlicingEnabled = k.timeSlicingEnabled
  tcb_of_ne : ∀ u, u ≠ t → k'.tcb u = k.tcb u
  state : (k'.tcb t).state = .ready
  consistent : (k'.tcb t).Consistent

namespace Joined

variable {k' : Kernel}

theorem live (hj : Joined k k' t) : k'.Live u ↔ k.Live u ∨ u = t := by
  rw [Live, hj.taskRegistry]
  exact LinkedList.mem_insertTail

theorem tcb_of_live (hj : Joined k k' t) (hu : k.Live u) (ht : ¬ k.Live t) : k'.tcb u = k.tcb u :=
  hj.tcb_of_ne u (ne_of_live hu ht)

theorem listInv (hj : Joined k k' t) (h : k.ListInv) (ht : ¬ k.Live t) : k'.ListInv where
  bitmap := by
    refine h.bitmap.insertTail hj.readyBitmap (List.ne_nil_of_mem (a := t) ?_) fun q hq => ?_
    · simp [readyQueue, hj.stateLists]
    · simp only [readyQueue, hj.stateLists]
      rw [Bundle.insertTail_of_ne (by simpa using hq)]
  stateWF := by
    rw [hj.stateLists]
    exact h.stateWF.insertTail fun L hm => ht (h.live_of_mem_stateLists hm)
  waitWF := hj.waitLists ▸ h.waitWF
  registryWF := hj.taskRegistry ▸ h.registryWF.insertTail ht
  consistent u hu := by
    rcases hj.live.1 hu with hu | rfl
    · rw [hj.tcb_of_live hu ht]; exact h.consistent u hu
    · exact hj.consistent
  mem_stateLists L u := by
    rw [hj.live, hj.stateLists, Bundle.mem_insertTail]
    by_cases hut : u = t
    · subst hut
      rw [h.mem_stateLists]
      simp [ht, Tcb.stateList, hj.state, eq_comm]
    · rw [h.mem_stateLists, hj.tcb_of_ne u hut]
      simp [hut]
  mem_waitLists W u := by
    rw [hj.live, hj.waitLists, h.mem_waitLists]
    by_cases hut : u = t
    · subst hut
      simp [ht, Tcb.eventList, hj.state]
    · rw [hj.tcb_of_ne u hut]
      simp [hut]

theorem inv (hj : Joined k k' t) (h : k.Inv) (ht : ¬ k.Live t) : k'.Inv where
  lists := hj.listInv h.lists ht
  current_live c hc := hj.live.2 (Or.inl (h.current_live c (hj.currentTcb ▸ hc)))
  running u hu hs := by
    rw [hj.currentTcb]
    rcases hj.live.1 hu with hu | rfl
    · rw [hj.tcb_of_live hu ht] at hs
      exact h.running u hu hs
    · rw [hj.state] at hs
      exact absurd hs (by simp)

theorem settled (hj : Joined k k' t) (h : k.Settled) (ht : ¬ k.Live t) : k'.Settled :=
  { hj.inv h.toInv ht with
    current_running := fun c hc => by
      rw [hj.currentTcb] at hc
      rw [hj.tcb_of_live (h.current_live c hc) ht]
      exact h.current_running c hc }

theorem ready (hj : Joined k k' t) (ht : ¬ k.Live t) (hu : k.Ready u) : k'.Ready u := by
  rw [Ready, hj.tcb_of_live hu.1 ht]
  exact ⟨hj.live.2 (Or.inl hu.1), hu.2⟩

end Joined

theorem joined_enroll (hp : config.priority < maxPriorities) : Joined k (k.enroll t config) t where
  readyBitmap := by rw [enroll_tcb_same]; rfl
  stateLists := by rw [enroll_tcb_same]; rfl
  waitLists := rfl
  taskRegistry := rfl
  currentTcb := rfl
  lockNesting := rfl
  timeSlicingEnabled := rfl
  tcb_of_ne _ hu := enroll_tcb_of_ne hu
  state := by rw [enroll_tcb_same]; rfl
  consistent := by
    rw [enroll_tcb_same]
    exact ⟨hp, Or.inl rfl, fun _ => ⟨rfl, rfl⟩, fun e => by simp [Task.initTcb] at e, rfl, rfl⟩

theorem Inv.enroll (h : k.Inv) (ht : ¬ k.Live t) (hp : config.priority < maxPriorities) :
    (k.enroll t config).Inv :=
  (joined_enroll hp).inv h ht

theorem Settled.enroll (h : k.Settled) (ht : ¬ k.Live t) (hp : config.priority < maxPriorities) :
    (k.enroll t config).Settled :=
  (joined_enroll hp).settled h ht

theorem ready_enroll (ht : ¬ k.Live t) (hu : k.Ready u) : (k.enroll t config).Ready u := by
  rw [Ready, enroll_tcb_of_live hu.1 ht]
  exact ⟨live_enroll.2 (Or.inl hu.1), hu.2⟩

end Kernel

namespace Task

open Kernel

variable {k : Kernel} {t u : TaskId} {config : TaskConfig}

/-- The checks of a configuration. -/
theorem validateTaskConfig_eq_ok : validateTaskConfig config = .ok ↔
    config.entryFunc ≠ none ∧ config.priority < maxPriorities ∧
      minimalStackSize ≤ config.stackSize ∧
      ∀ a, config.stackBuffer = some a → a % stackAlignmentBytes = 0 := by
  rw [validateTaskConfig]
  by_cases hentry : config.entryFunc = none
  · simp [hentry]
  by_cases hpriority : maxPriorities ≤ config.priority
  · simp [hentry, hpriority, not_lt.2 hpriority]
  by_cases hsize : config.stackSize < minimalStackSize
  · simp [hentry, hpriority, hsize, not_le.2 hsize]
  rw [if_neg hentry, if_neg hpriority, if_neg hsize]
  cases config.stackBuffer with
  | none => simp [hentry, not_le.1 hpriority, not_lt.1 hsize]
  | some a => simp [hentry, not_le.1 hpriority, not_lt.1 hsize]

theorem priority_lt_of_validate (h : validateTaskConfig config = .ok) :
    config.priority < maxPriorities :=
  (validateTaskConfig_eq_ok.1 h).2.1

/-- What creation does to the kernel, once the configuration is valid. -/
theorem registerTask_addReady (k : Kernel) (t : TaskId) (hp : config.priority < maxPriorities) :
    (Scheduler.addReady (initTcbAndStack k t config) t).2 = .ok ∧
      Scheduler.registerTask (Scheduler.addReady (initTcbAndStack k t config) t).1 t =
        k.enroll t config := by
  have htp : ((initTcbAndStack k t config).tcb t).priority < maxPriorities := by
    simpa [initTcbAndStack, initTcb] using hp
  refine ⟨Scheduler.addReady_status htp, ?_⟩
  rw [Scheduler.addReady_eq htp, Scheduler.registerTask]
  simp [Kernel.enroll, initTcbAndStack, Kernel.modify, initTcb]

/-- With a valid configuration and a buffer the task is enrolled. -/
theorem createStaticSection_of_valid (k : Kernel) (t : TaskId) (hb : config.stackBuffer ≠ none)
    (hv : validateTaskConfig config = .ok) :
    createStaticSection k config t = (k.enroll t config, .ok) := by
  obtain ⟨hok, henroll⟩ := registerTask_addReady k t (priority_lt_of_validate hv)
  rw [createStaticSection, if_neg hb, hv]
  simp only [hok, if_true, henroll]

/-- Creation either fails and changes nothing, or enrolls the task. -/
theorem createStaticSection_cases (k : Kernel) (config : TaskConfig) (t : TaskId) :
    ((createStaticSection k config t).2 ≠ .ok ∧ (createStaticSection k config t).1 = k) ∨
    (config.priority < maxPriorities ∧
      createStaticSection k config t = (k.enroll t config, .ok)) := by
  by_cases hb : config.stackBuffer = none
  · exact Or.inl (by simp [createStaticSection, hb])
  · cases hv : validateTaskConfig config with
    | ok => exact Or.inr ⟨priority_lt_of_validate hv, createStaticSection_of_valid k t hb hv⟩
    | _ => exact Or.inl (by simp [createStaticSection, hb, hv])

/-- The whole call: nothing, or the new task enrolled and a reschedule if the scheduler runs. -/
theorem createStatic_cases (k : Kernel) (config : TaskConfig) (t : TaskId) :
    ((createStatic k config t).2 ≠ .ok ∧ (createStatic k config t).1 = k) ∨
    (config.priority < maxPriorities ∧ (createStatic k config t).2 = .ok ∧
      (createStatic k config t).1 =
        if k.isRunning then Scheduler.reschedule (k.enroll t config) else k.enroll t config) := by
  rw [createStatic]
  rcases createStaticSection_cases k config t with ⟨h2, h1⟩ | ⟨hp, e⟩
  · exact Or.inl (by simp [h1, h2])
  · refine Or.inr ⟨hp, ?_⟩
    rw [e]
    by_cases hrun : k.isRunning = true <;> simp [hrun]

/-- With memory of the pool: nothing, or the new task enrolled and a reschedule if the scheduler
runs. -/
theorem create_cases (k : Kernel) (config : TaskConfig) (tcb : Option TaskId)
    (stackBuf : Option ℕ) :
    ((create k config tcb stackBuf).2 ≠ .ok ∧ (create k config tcb stackBuf).1 = k) ∨
    ∃ t a, tcb = some t ∧ (create k config tcb stackBuf).2 = .ok ∧
      (create k config tcb stackBuf).1 =
        if k.isRunning then Scheduler.reschedule (k.enroll t { config with stackBuffer := some a })
        else k.enroll t { config with stackBuffer := some a } := by
  unfold create
  cases hv : validateTaskConfig config with
  | ok =>
    cases tcb with
    | none => exact Or.inl (by simp)
    | some t =>
      cases stackBuf with
      | none => exact Or.inl (by simp)
      | some a =>
        have hp : config.priority < maxPriorities := priority_lt_of_validate hv
        obtain ⟨hok, henroll⟩ := registerTask_addReady k t
          (show TaskConfig.priority { config with stackBuffer := some a } < maxPriorities from hp)
        refine Or.inr ⟨t, a, rfl, ?_⟩
        simp only [hok, if_true, henroll, true_and]
        rfl
  | _ => exact Or.inl (by simp)

theorem settled_createStatic (h : k.Settled) (ht : ¬ k.Live t) :
    (createStatic k config t).1.Settled := by
  rcases createStatic_cases k config t with ⟨-, e⟩ | ⟨hp, -, e⟩
  · rw [e]; exact h
  · rw [e]
    split
    · exact (h.enroll ht hp).reschedule
    · exact h.enroll ht hp

end Task

namespace Scheduler

open Kernel

variable {mem : Kernel} {config : Option Config} {idleStack : ℕ}

/-- Before the Idle task is created there are no tasks and all lists are empty. -/
theorem initData_settled (mem : Kernel) (config : Option Config) :
    (initData mem config).Settled where
  lists :=
    { bitmap := fun p => by simp [initData, readyQueue]
      stateWF := Bundle.init_wf
      waitWF := Bundle.init_wf
      registryWF := LinkedList.init_wf
      consistent := fun t ht => absurd ht List.not_mem_nil
      mem_stateLists := fun L t => by simp [initData, Live]
      mem_waitLists := fun W t => by simp [initData, Live] }
  current_live c hc := by simp [initData] at hc
  running t ht := absurd ht List.not_mem_nil
  current_running c hc := by simp [initData] at hc

theorem initWithConfig_sameCore (mem : Kernel) (config : Option Config) (idleStack : ℕ) :
    SameCore (Task.createStatic (initData mem config) (idleConfig config idleStack) idleTcb).1
      (initWithConfig mem config idleStack).1 :=
  ⟨rfl, rfl, rfl, rfl, rfl, rfl⟩

/-- Initialisation leaves the kernel settled, also where it reports an error. -/
theorem initWithConfig_settled (mem : Kernel) (config : Option Config) (idleStack : ℕ) :
    (initWithConfig mem config idleStack).1.Settled :=
  (initWithConfig_sameCore mem config idleStack).settled
    (Task.settled_createStatic (initData_settled mem config) List.not_mem_nil)

/-- What a successful initialisation leaves: the Idle task is ready, nothing runs yet. -/
theorem initWithConfig_eq (h : (initWithConfig mem config idleStack).2 = .ok) :
    SameCore ((initData mem config).enroll idleTcb (idleConfig config idleStack))
      (initWithConfig mem config idleStack).1 ∧
    (initWithConfig mem config idleStack).1.isRunning = false ∧
    (initWithConfig mem config idleStack).1.lockNesting = 0 ∧
    (initWithConfig mem config idleStack).1.reschedulePending = false := by
  rcases Task.createStatic_cases (initData mem config) (idleConfig config idleStack) idleTcb with
    ⟨hne, -⟩ | ⟨-, -, e⟩
  · exact absurd h hne
  · have e' : (Task.createStatic (initData mem config) (idleConfig config idleStack) idleTcb).1
        = (initData mem config).enroll idleTcb (idleConfig config idleStack) := by
      rw [e]; rfl
    refine ⟨e' ▸ initWithConfig_sameCore mem config idleStack, ?_⟩
    simp only [initWithConfig, e']
    exact ⟨rfl, rfl, rfl⟩

/-- Nobody waits yet. -/
theorem initWithConfig_waitLists (mem : Kernel) (config : Option Config) (idleStack : ℕ) :
    (initWithConfig mem config idleStack).1.waitLists = fun _ => LinkedList.init := by
  rw [(initWithConfig_sameCore mem config idleStack).waitLists]
  rcases Task.createStatic_cases (initData mem config) (idleConfig config idleStack) idleTcb with
    ⟨-, e⟩ | ⟨-, -, e⟩ <;> rw [e] <;> rfl

theorem ready_idleTcb_initWithConfig (h : (initWithConfig mem config idleStack).2 = .ok) :
    (initWithConfig mem config idleStack).1.Ready idleTcb := by
  rw [(initWithConfig_eq h).1.ready, Ready, enroll_tcb_same]
  exact ⟨live_enroll.2 (Or.inr rfl), rfl⟩

end Scheduler

end Sertos
