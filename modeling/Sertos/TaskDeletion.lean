import Sertos.Suspension

/-!
# Deleting a task

The memory of a deleted task goes back to its pool, so no list may lead to it any more.
`sertos_task_delete` takes a `READY` task out of its ready queue and every task out of the registry.
A `RUNNING` task stays in its ready queue, and a `BLOCKED` one in the delay list or in its wait
list.  `deletion_complete_iff` says that these are the only cases in which something is left.
-/

set_option autoImplicit false

namespace Sertos

open Intrusive Lts Scheduler

/-- Nothing leads to the task: it is in no list, not the current one, not selected and not ready. -/
structure Kernel.OutOfReach (k : Kernel) (t : TaskId) : Prop where
  state_free : k.stateLists.Free t
  wait_free : k.waitLists.Free t
  not_current : k.currentTcb ≠ some t
  not_selected : selectNextTask k ≠ some t
  not_ready : (k.tcb t).state ≠ .ready

namespace Tasks

/-- The deletion of `t` leaves nothing behind: the task is in no list and not registered, and
nothing leads to it later, until its control block is used again. -/
structure DeletionComplete (s : Tasks) (handle : Option TaskId) (t : TaskId) : Prop where
  state_free : ((TaskOp.delete handle).run s).kernel.stateLists.Free t
  wait_free : ((TaskOp.delete handle).run s).kernel.waitLists.Free t
  not_registered : ¬ ((TaskOp.delete handle).run s).kernel.Live t
  later : ∀ ops s', Trace TaskOp.Step ((TaskOp.delete handle).run s) ops s' →
    (∀ config, .create config t ∉ ops) → s'.kernel.OutOfReach t

variable {P : Kernel → Prop} [Kernel.Lasting P] {s : Tasks} {r : LinkedList TaskId}
  {handle : Option TaskId} {t : TaskId}

/-- What is left of a task that was `READY` or `SUSPENDED`. -/
theorem Ordered.retired_delete (h : s.Ordered P r) (ht : handle.or s.kernel.currentTcb = some t)
    (hidle : t ≠ idleTcb)
    (hs : (s.kernel.tcb t).state ≠ .running ∧ (s.kernel.tcb t).state ≠ .blocked)
    (hok : (Task.delete s.kernel s.magic handle).2 = .ok) :
    ((TaskOp.delete handle).run s).kernel.Retired t ∧
      (((TaskOp.delete handle).run s).kernel.tcb t).state = .terminated ∧
      ¬ ((TaskOp.delete handle).run s).kernel.Live t := by
  have hallowed : (TaskOp.delete handle).Allowed s := by
    intro e
    exact hidle (Option.some_inj.1 (ht.symm.trans e))
  have hcond : (TaskOp.delete handle).KeepsLists s := by
    intro u hu _
    obtain rfl := Option.some_inj.1 (ht.symm.trans hu)
    exact hs
  obtain ⟨r', h'⟩ := h.delete hallowed hcond
  obtain ⟨haccepts, e⟩ := Task.delete_of_ok ht hok
  obtain ⟨hm, hvalid⟩ := Task.accepts_iff.1 haccepts
  have hcur := h.not_current hs.1
  have hkernel : ((TaskOp.delete handle).run s).kernel = Task.deleteSection s.kernel t := by
    simp only [TaskOp.run, setKernel_kernel, e, hcur, false_and, if_false]
  have hstate : (((TaskOp.delete handle).run s).kernel.tcb t).state = .terminated := by
    rw [hkernel, Task.deleteSection, Kernel.modify_tcb_same]
  have hlive : s.kernel.Live t := by
    by_cases hsus : (s.kernel.tcb t).state = .suspended
    · exact (h.of_suspended hm hsus).2.1
    · exact h.registered (h.mem_of_active hm hsus (Task.isValidTransition_terminated.1 hvalid))
  have hout : t ∉ r'.nodes := by
    intro hmem
    rcases h'.active hmem with e | e | e <;> rw [hstate] at e <;> exact absurd e (by simp)
  refine ⟨h'.retired hm hout, hstate, ?_⟩
  rw [hkernel, Kernel.Live, Task.deleteSection_taskRegistry hlive, h.registryWF.mem_remove]
  simp

variable {mem : Kernel} {config : Option Config} {idleStack : ℕ} {sems : ℕ → Semaphore}
  {ops : List TaskOp}

/-- **A deleted task is gone from every list** exactly if it was neither `RUNNING` nor `BLOCKED`,
after every run whose calls are in order. -/
theorem deletion_complete_iff (hinit : (initWithConfig mem config idleStack).2 = .ok)
    (hrun : Trace TaskOp.OrderStep (init (initWithConfig mem config idleStack).1 sems) ops s)
    (ht : handle.or s.kernel.currentTcb = some t) (hidle : t ≠ idleTcb)
    (hok : (Task.delete s.kernel s.magic handle).2 = .ok) :
    s.DeletionComplete handle t ↔
      (s.kernel.tcb t).state ≠ .running ∧ (s.kernel.tcb t).state ≠ .blocked := by
  obtain ⟨r, h⟩ := steady_of_run hinit hrun
  constructor
  · intro hcomplete
    have hm : s.magic t = Task.magicWord := (Task.accepts_iff.1 (Task.delete_of_ok ht hok).1).1
    -- a task in either state is in some list, and stays there
    have hlinked : ∀ b, (b = .running ∨ b = .blocked) → (s.kernel.tcb t).state ≠ b := by
      rintro b hb rfl
      have hne : (s.kernel.tcb t).state ≠ .ready := by
        rcases hb with e | e <;> rw [e] <;> simp
      rcases Task.delete_linked s.magic ht hne (h.linked hm hb) with ⟨L, hL⟩ | ⟨W, hW⟩
      · exact hcomplete.state_free L hL
      · exact hcomplete.wait_free W hW
    exact ⟨hlinked _ (Or.inl rfl), hlinked _ (Or.inr rfl)⟩
  · intro hs
    obtain ⟨hretired, hstate, hlive⟩ := h.retired_delete ht hidle hs hok
    refine ⟨hretired.state_free, hretired.wait_free, hlive, fun ops' s' hrun' hops' => ?_⟩
    obtain ⟨hretired', hstate'⟩ := TaskOp.terminated_run hrun' hops' hretired hstate
    exact ⟨hretired'.state_free, hretired'.wait_free, hretired'.not_current, hretired'.not_selected,
      by simp [hstate']⟩

theorem deletion_complete_iff_preempted :
    ((twoTasks.foldl TaskOp.run fresh).kernel.tcb 1).state = .ready ∧
      (twoTasks.foldl TaskOp.run fresh).DeletionComplete (some 1) 1 := by
  have hready : ((twoTasks.foldl TaskOp.run fresh).kernel.tcb 1).state = .ready := by decide +kernel
  have hcase : ((twoTasks.foldl TaskOp.run fresh).kernel.tcb 1).state ≠ .running ∧
      ((twoTasks.foldl TaskOp.run fresh).kernel.tcb 1).state ≠ .blocked := by
    rw [hready]
    simp
  refine ⟨hready, ?_⟩
  exact (deletion_complete_iff (by decide) (Trace.of_guards (by decide +kernel)) rfl (by decide)
    (by decide +kernel)).2 hcase

/-- **A task that deletes itself stays in its ready queue**, and is selected again. -/
theorem self_deleted_selected :
    ∃ s, Trace TaskOp.Step fresh oneTask s ∧ s.kernel.currentTcb = some 1 ∧
      (s.kernel.tcb 1).state = .running ∧ (Task.delete s.kernel s.magic none).2 = .ok ∧
      1 ∈ (((TaskOp.delete none).run s).kernel.readyQueue 1).nodes ∧
      selectNextTask ((TaskOp.delete none).run s).kernel = some 1 ∧
        ¬ s.DeletionComplete none 1 := by
  have hmem : 1 ∈ (((TaskOp.delete none).run (oneTask.foldl TaskOp.run fresh)).kernel.readyQueue
      1).nodes := by decide +kernel
  exact ⟨_, Trace.of_guards (by decide +kernel), by decide +kernel, by decide +kernel,
    by decide +kernel, hmem, by decide +kernel, fun h => h.state_free (.ready 1) hmem⟩

end Tasks

end Sertos
