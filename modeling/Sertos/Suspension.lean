import Sertos.Orderly

/-!
# Suspension and resumption

A suspended task should stay away until it is resumed, and a task that is not suspended should not
be resumed at all.  Both calls consult the table of state transitions, and neither looks at the
lists.  `sertos_task_suspend` unlinks a `READY` task only: a `RUNNING` one stays in its ready queue,
and is selected again, and a `BLOCKED` one stays in the delay list or in its wait list, from where
the next tick or event makes it ready.  `sertos_task_resume` accepts a `RUNNING` or `BLOCKED` task,
for which the table has a way to `READY` as well, and links its node a second time.

`suspension_holds` and `resume_right_iff` are about the runs in which neither happens.
-/

set_option autoImplicit false

namespace Sertos

open Intrusive Lts Scheduler

namespace Tasks

/-- The suspension of `t` holds: whatever is called afterwards, up to a resumption or deletion of
`t`, the task stays `SUSPENDED`, is not selected and is not the current one. -/
def SuspensionHolds (s : Tasks) (handle : Option TaskId) (t : TaskId) : Prop :=
  ∀ ops s', Trace TaskOp.Step ((TaskOp.suspend handle).run s) ops s' →
    (∀ op ∈ ops, ¬ op.Changes t) →
      (s'.kernel.tcb t).state = .suspended ∧ selectNextTask s'.kernel ≠ some t ∧
        s'.kernel.currentTcb ≠ some t

/-- `sertos_task_resume` does what it should for `t`. -/
structure ResumeRight (s : Tasks) (t : TaskId) : Prop where
  /-- A suspended task is resumed, and no other. -/
  ok_iff : (Task.resume s.kernel s.magic (some t)).2 = .ok ↔ (s.kernel.tcb t).state = .suspended
  /-- A task that is resumed is in the ready queue of its priority once, and in no other list. -/
  linked : (Task.resume s.kernel s.magic (some t)).2 = .ok →
    ((Task.resume s.kernel s.magic (some t)).1.readyQueue (s.kernel.tcb t).priority).nodes.count t = 1 ∧
      (∀ L, L ≠ .ready (s.kernel.tcb t).priority →
        t ∉ ((Task.resume s.kernel s.magic (some t)).1.stateLists L).nodes) ∧
      (Task.resume s.kernel s.magic (some t)).1.waitLists.Free t
  /-- A call that fails changes nothing. -/
  refused : (Task.resume s.kernel s.magic (some t)).2 ≠ .ok →
    (Task.resume s.kernel s.magic (some t)).1 = s.kernel

variable {P : Kernel → Prop} [Kernel.Lasting P] {s : Tasks} {r : LinkedList TaskId}
  {handle : Option TaskId} {t : TaskId}

/-! ## Suspension -/

/-- A `READY` task that is suspended is in no list afterwards. -/
theorem Ordered.retired_suspend (h : s.Ordered P r) (ht : handle.or s.kernel.currentTcb = some t)
    (hidle : t ≠ idleTcb) (hs : (s.kernel.tcb t).state = .ready)
    (hok : (Task.suspend s.kernel s.magic handle).2 = .ok) :
    ((TaskOp.suspend handle).run s).kernel.Retired t ∧
      (((TaskOp.suspend handle).run s).kernel.tcb t).state = .suspended := by
  obtain ⟨haccepts, e⟩ := Task.suspend_of_ok ht hok
  obtain ⟨hm, -⟩ := Task.accepts_iff.1 haccepts
  have hcur := h.not_current (t := t) (by simp [hs])
  have hkernel : ((TaskOp.suspend handle).run s).kernel = Task.suspendSection s.kernel t := by
    simp only [TaskOp.run, setKernel_kernel, e, hcur, false_and, if_false]
  have hstate : (((TaskOp.suspend handle).run s).kernel.tcb t).state = .suspended := by
    rw [hkernel, Task.suspendSection, Kernel.modify_tcb_same]
  have hretired := (h.suspendSection hm hs hcur hidle).retired (t := t) hm
    fun hmem => (h.wf.mem_remove.1 hmem).1 rfl
  rw [setKernel_kernel, ← hkernel] at hretired
  exact ⟨hretired, hstate⟩

variable {mem : Kernel} {config : Option Config} {idleStack : ℕ} {sems : ℕ → Semaphore}
  {ops : List TaskOp}

/-- **Suspension holds until resume**, for a task that is `READY` when it is suspended, after every
run whose calls are in order, and whatever is called afterwards.  Any other task is left in a list
by the call. -/
theorem suspension_holds (hinit : (initWithConfig mem config idleStack).2 = .ok)
    (hrun : Trace TaskOp.OrderStep (init (initWithConfig mem config idleStack).1 sems) ops s)
    (ht : handle.or s.kernel.currentTcb = some t) (hidle : t ≠ idleTcb)
    (hok : (Task.suspend s.kernel s.magic handle).2 = .ok) :
    ((s.kernel.tcb t).state = .ready → s.SuspensionHolds handle t) ∧
      ((s.kernel.tcb t).state ≠ .ready → ((TaskOp.suspend handle).run s).kernel.Linked t) := by
  obtain ⟨r, h⟩ := steady_of_run hinit hrun
  constructor
  · intro hs ops' s' hrun' hops'
    obtain ⟨hretired, hstate⟩ := h.retired_suspend ht hidle hs hok
    obtain ⟨hretired', hstate'⟩ := TaskOp.retired_run hrun' hops' hretired
    exact ⟨hstate'.trans hstate, hretired'.not_selected, hretired'.not_current⟩
  · intro hs
    obtain ⟨hm, hvalid⟩ := Task.accepts_iff.1 (Task.suspend_of_ok ht hok).1
    refine Task.suspend_linked s.magic ht hs (h.linked hm ?_)
    rcases Task.isValidTransition_suspended.1 hvalid with hr | hb
    · exact Or.inl ((TaskState.isReady_iff.1 hr).resolve_left hs)
    · exact Or.inr hb

/-- Task 2 runs, and task 1 of lower priority is ready. -/
def twoTasks : List TaskOp :=
  [.create (.ofPriority 1) 1, .create (.ofPriority 2) 2, .api (.sched (.start .ok))]

theorem suspension_holds_preempted :
    ((twoTasks.foldl TaskOp.run fresh).kernel.tcb 1).state = .ready ∧
      (twoTasks.foldl TaskOp.run fresh).SuspensionHolds (some 1) 1 :=
  ⟨by decide +kernel, (suspension_holds (by decide) (Trace.of_guards (by decide +kernel)) rfl
    (by decide) (by decide +kernel)).1 (by decide +kernel)⟩

/-- **A task that suspends itself goes on running.**  It stays in its ready queue, so the yield at
the end of the call selects it again. -/
theorem self_suspended_runs :
    ∃ s, Trace TaskOp.Step fresh oneTask s ∧ s.kernel.currentTcb = some 1 ∧
      (s.kernel.tcb 1).state = .running ∧ (Task.suspend s.kernel s.magic none).2 = .ok ∧
      ((TaskOp.suspend none).run s).kernel.currentTcb = some 1 ∧ ¬ s.SuspensionHolds none 1 := by
  have hcur : ((TaskOp.suspend none).run (oneTask.foldl TaskOp.run fresh)).kernel.currentTcb
      = some 1 := by decide +kernel
  refine ⟨_, Trace.of_guards (by decide +kernel), by decide +kernel, by decide +kernel,
    by decide +kernel, hcur, fun h => ?_⟩
  exact (h [] _ (.nil _) (by simp)).2.2 hcur

/-! ## Resumption -/

/-- A suspended task is linked once. -/
theorem Ordered.resume_linked (h : s.Ordered P r) (hm : s.magic t = Task.magicWord)
    (hs : (s.kernel.tcb t).state = .suspended) :
    (Task.resume s.kernel s.magic (some t)).2 = .ok ∧
    ((Task.resume s.kernel s.magic (some t)).1.readyQueue (s.kernel.tcb t).priority).nodes.count t = 1 ∧
      (∀ L, L ≠ .ready (s.kernel.tcb t).priority →
        t ∉ ((Task.resume s.kernel s.magic (some t)).1.stateLists L).nodes) ∧
      (Task.resume s.kernel s.magic (some t)).1.waitLists.Free t := by
  obtain ⟨-, -, hres⟩ := h.of_suspended hm hs
  have haccepts : Task.accepts s.kernel s.magic t .ready = true :=
    Task.accepts_iff.2 ⟨hm, Task.isValidTransition_ready.2 (Or.inr (Or.inr hs))⟩
  have hresume := Task.resume_of_accepts haccepts hres.priority_lt
  have hcond : (TaskOp.resume (some t)).KeepsLists s := by
    intro u hu _
    obtain rfl := Option.some_inj.1 hu
    simp [hs]
  obtain ⟨r', h'⟩ := h.resume hcond
  have hadded : (addReady s.kernel t).1.tcb t
      = { s.kernel.tcb t with stateLinked := true, state := .ready } := by
    rw [addReady_eq hres.priority_lt]
    simp
  -- the reschedule leaves the task ready or running, with the priority it had
  obtain ⟨hready, hprio⟩ : ((Task.resume s.kernel s.magic (some t)).1.tcb t).state.isReady = true ∧
      ((Task.resume s.kernel s.magic (some t)).1.tcb t).priority = (s.kernel.tcb t).priority := by
    rw [hresume]
    simp only
    split
    · refine ⟨reschedule_isReady _ _ (by rw [hadded]; rfl), ?_⟩
      rw [reschedule_priority, hadded]
    · rw [hadded]
      exact ⟨rfl, rfl⟩
  have hready' : (((TaskOp.resume (some t)).run s).kernel.tcb t).state.isReady = true := hready
  have hmem : t ∈ r'.nodes := by
    refine h'.mem_of_active hm (fun e => ?_) fun e => ?_ <;> rw [e] at hready' <;>
      exact absurd hready' (by simp [TaskState.isReady])
  have hrep := h'.inv.lists.represented
  have hlinked := hrep.ready t hmem (TaskState.isReady_iff.1 hready)
  have hwaits := hrep.awake t hmem (TaskState.ne_blocked_of_isReady hready)
  rw [← hprio]
  exact ⟨by rw [hresume], hlinked.1, hlinked.2, hwaits⟩

/-- **Resume never double-links a task** if and only if it is called for no task that is `RUNNING`
or `BLOCKED`, after every run whose calls are in order; and after such a run no node is in two
lists, or in one twice. -/
theorem resume_right_iff (hinit : (initWithConfig mem config idleStack).2 = .ok)
    (hrun : Trace TaskOp.OrderStep (init (initWithConfig mem config idleStack).1 sems) ops s)
    (hm : s.magic t = Task.magicWord) :
    (s.ResumeRight t ↔ (s.kernel.tcb t).state ≠ .running ∧ (s.kernel.tcb t).state ≠ .blocked) ∧
      s.kernel.stateLists.WF := by
  obtain ⟨r, h⟩ := steady_of_run hinit hrun
  refine ⟨⟨fun hright => ?_, fun ⟨hrunning, hblocked⟩ => ?_⟩, h.inv.lists.stateWF⟩
  · -- the table has a way from both states to `READY`
    have hcall : ∀ b, (b = .running ∨ b = .blocked) → (s.kernel.tcb t).state ≠ b := by
      rintro b hb rfl
      have hmem : t ∈ r.nodes := by
        refine h.mem_of_active hm ?_ ?_ <;> rcases hb with e | e <;> rw [e] <;> simp
      have haccepts : Task.accepts s.kernel s.magic t .ready = true :=
        Task.accepts_iff.2 ⟨hm, Task.isValidTransition_ready.2 (by tauto)⟩
      have hok := Task.resume_of_accepts haccepts (h.inv.lists.priority_lt (t := t) hmem)
      have hsuspended := hright.ok_iff.1 (by rw [hok])
      rcases hb with e | e <;> rw [hsuspended] at e <;> exact absurd e (by simp)
    exact ⟨hcall _ (Or.inl rfl), hcall _ (Or.inr rfl)⟩
  · by_cases hs : (s.kernel.tcb t).state = .suspended
    · obtain ⟨hok, hlinked⟩ := h.resume_linked hm hs
      exact ⟨iff_of_true hok hs, fun _ => hlinked, fun hne => absurd hok hne⟩
    · have haccepts : Task.accepts s.kernel s.magic t .ready = false := by
        rw [Bool.eq_false_iff, ne_eq, Task.accepts_iff, Task.isValidTransition_ready]
        tauto
      have hrefused : Task.resume s.kernel s.magic (some t) = (s.kernel, .errorInvalidParam) := by
        simp [Task.resume, haccepts]
      refine ⟨?_, fun hok => ?_, fun _ => ?_⟩
      · rw [hrefused]
        exact iff_of_false (by simp) hs
      · rw [hrefused] at hok
        exact absurd hok (by simp)
      · rw [hrefused]

/-- Task 2 has suspended task 1. -/
def oneSuspended : List TaskOp := twoTasks ++ [.suspend (some 1)]

theorem resume_right_iff_suspended :
    ((oneSuspended.foldl TaskOp.run fresh).kernel.tcb 1).state = .suspended ∧
      (oneSuspended.foldl TaskOp.run fresh).ResumeRight 1 := by
  have hsuspended : ((oneSuspended.foldl TaskOp.run fresh).kernel.tcb 1).state = .suspended := by
    decide +kernel
  have hcase : ((oneSuspended.foldl TaskOp.run fresh).kernel.tcb 1).state ≠ .running ∧
      ((oneSuspended.foldl TaskOp.run fresh).kernel.tcb 1).state ≠ .blocked := by
    rw [hsuspended]
    simp
  exact ⟨hsuspended, (resume_right_iff (by decide) (Trace.of_guards (by decide +kernel))
    (by decide +kernel)).1.2 hcase⟩

/-- **A running task that is resumed is linked twice.** -/
theorem running_resumed :
    ∃ s, Trace TaskOp.Step fresh oneTask s ∧ s.kernel.Live 1 ∧ (s.kernel.tcb 1).state = .running ∧
      (Task.resume s.kernel s.magic (some 1)).2 = .ok ∧
      ((Task.resume s.kernel s.magic (some 1)).1.readyQueue 1).nodes = [1, 1] ∧
        ¬ s.ResumeRight 1 := by
  have hrunning : ((oneTask.foldl TaskOp.run fresh).kernel.tcb 1).state = .running := by
    decide +kernel
  have hok : (Task.resume (oneTask.foldl TaskOp.run fresh).kernel
      (oneTask.foldl TaskOp.run fresh).magic (some 1)).2 = .ok := by decide +kernel
  refine ⟨_, Trace.of_guards (by decide +kernel), by decide +kernel, hrunning, hok,
    by decide +kernel, fun h => ?_⟩
  exact absurd (hrunning.symm.trans (h.ok_iff.1 hok)) (by simp)

end Tasks

end Sertos
