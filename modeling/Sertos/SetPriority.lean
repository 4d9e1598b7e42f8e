import Sertos.Lifecycle
import Sertos.WakeUp

/-!
# Changing a priority

`sertos_task_set_priority` moves a task to another ready queue if its state is `READY`.  A `RUNNING`
task is linked in a ready queue too, and is not moved: its control block then names a queue that the
task is not in.

`Kernel.Scheduled` is what the scheduler's ready structure has to satisfy, and `PriorityKept` what
is to hold after the call.  It holds unless the task is `RUNNING` and its priority changes
(`setPriority_keeps_ready_structure_iff`).
-/

set_option autoImplicit false

namespace Sertos

open Intrusive Lts Scheduler

namespace Task

variable {k : Kernel} {t : TaskId} {p : ℕ}

/-- A `READY` task is moved to the queue of its new priority. -/
theorem setPrioritySection_of_ready (hs : (k.tcb t).state = .ready)
    (hlt : (k.tcb t).priority < maxPriorities) (hlinked : (k.tcb t).stateLinked = true)
    (hp : p < maxPriorities) :
    setPrioritySection k t p =
      (k.requeue t p).modify t fun b => { b with priority := p, basePriority := p } := by
  have hw : ((removeReady k t).1.modify t
      fun b => { b with priority := p, basePriority := p }).tcb t =
      { k.tcb t with priority := p, basePriority := p } := by
    rw [removeReady_eq hlt hlinked]
    simp
  simp only [setPrioritySection, hs, if_true]
  rw [addReady_eq (by rw [hw]; exact hp), hw, removeReady_eq hlt hlinked]
  simp [Kernel.requeue, Kernel.modify, hs, hlinked]

end Task

namespace Kernel

/-! ## The ready structure -/

/-- The ready queues hold the ready tasks, each under its priority, the bitmap agrees with them, and
the lists keep the contract of the list module. -/
structure Scheduled (k : Kernel) : Prop extends ReadyInv k where
  stateWF : k.stateLists.WF
  linked : ∀ t, k.Ready t → (k.tcb t).stateLinked = true

variable {k k' : Kernel} {t u c : TaskId} {p : ℕ}

theorem ListInv.scheduled (h : k.ListInv) : k.Scheduled where
  toReadyInv := h.readyInv
  stateWF := h.stateWF
  linked _ ht := (links_of_consistent (h.consistent _ ht.1) ht.2).1

/-- A set bit over a queue that is not empty lets the scheduler find a task. -/
theorem BitmapOk.selectNextTask_ne_none (h : k.BitmapOk) (hp : p < maxPriorities)
    (hm : u ∈ (k.readyQueue p).nodes) : Scheduler.selectNextTask k ≠ none := by
  have hbit : k.readyBitmap p = true := (h p).2 (List.ne_nil_of_mem hm)
  rw [Scheduler.selectNextTask]
  cases hf : k.readyBitmap.findLastSet maxPriorities with
  | none =>
    rw [Bitmap.findLastSet_eq_none.1 hf p hp] at hbit
    exact absurd hbit (by simp)
  | some q =>
    have hne := (h q).1 (Bitmap.findLastSet_spec hf).2.1
    simpa using hne

/-- A task in a ready queue is a ready one, so a task that is selected is. -/
theorem ready_of_selectNextTask (h : ∀ p u, u ∈ (k.readyQueue p).nodes → k.Ready u)
    (hn : Scheduler.selectNextTask k = some u) : k.Ready u := by
  obtain ⟨p, -, hhead⟩ := Scheduler.selectNextTask_cases hn
  exact h p u (List.mem_of_mem_head? hhead)

theorem readyQueue_insertTail_delay (k : Kernel) (t : TaskId) (q : ℕ) :
    (k.insertTail .delay t).readyQueue q = k.readyQueue q := by
  have hne : StateList.ready q ≠ .delay := by simp
  show k.stateLists.insertTail .delay t (.ready q) = k.stateLists (.ready q)
  exact Bundle.insertTail_of_ne hne

theorem ReadyInv.ready_of_mem (h : k.ReadyInv) (hm : u ∈ (k.readyQueue p).nodes) : k.Ready u :=
  ⟨((h.mem_readyQueue p u).1 hm).1, ((h.mem_readyQueue p u).1 hm).2.1⟩

/-- After a reschedule that is not held up no ready task exceeds the current one. -/
theorem ReadyInv.reschedule_top (h : k.ReadyInv) (hrun : k.isRunning = true)
    (hl : k.lockNesting = 0) (hu : (Scheduler.reschedule k).Ready u) :
    ∃ c, (Scheduler.reschedule k).currentTcb = some c ∧
      ((Scheduler.reschedule k).tcb u).priority ≤ ((Scheduler.reschedule k).tcb c).priority := by
  rcases h.reschedule_cases with e | ⟨e, htop⟩
  · rw [e] at hu ⊢
    rcases Scheduler.switchContext_cases_of_readyInv h with
      ⟨hl', -⟩ | ⟨-, hnone, e⟩ | ⟨-, n, hn, hc, e⟩ | ⟨-, n, hn, e⟩
    · omega
    · exact absurd (e ▸ hu) (hnone u)
    · rw [e] at hu ⊢
      exact ⟨n, hc, hn.max u hu⟩
    · rw [e] at hu ⊢
      exact ⟨n, dispatch_currentTcb k n, (isTop_dispatch hn).max u hu⟩
  · rw [e] at hu ⊢
    exact htop hrun u hu

namespace Scheduled

/-- Exchanging `READY` and `RUNNING` keeps the ready structure. -/
theorem of_switched (h : k.Scheduled) (hs : Switched k k') : k'.Scheduled where
  bitmap q := by rw [hs.readyBitmap, readyQueue, hs.stateLists]; exact h.bitmap q
  mem_readyQueue q u := by
    rw [readyQueue, hs.stateLists, hs.live, hs.isReady, hs.tcb]
    exact h.mem_readyQueue q u
  priority_lt u hu := by rw [hs.tcb]; exact h.priority_lt u (hs.ready.1 hu)
  stateWF := hs.stateLists ▸ h.stateWF
  linked u hu := by rw [hs.tcb]; exact h.linked u (hs.ready.1 hu)

theorem reschedule (h : k.Scheduled) : (Scheduler.reschedule k).Scheduled :=
  h.of_switched (Switched.reschedule_of_ready fun _ hn => (h.selectNextTask_isTop hn).ready)

/-- A control block that changes keeps the ready structure if its task stays in the queue it
names. -/
theorem modify (h : k.Scheduled) {f : Tcb → Tcb} (hstate : (f (k.tcb t)).state = (k.tcb t).state)
    (hlinked : (f (k.tcb t)).stateLinked = (k.tcb t).stateLinked)
    (hp : (k.tcb t).state.isReady = true → (f (k.tcb t)).priority = (k.tcb t).priority) :
    (k.modify t f).Scheduled := by
  have hready : ∀ u, (k.modify t f).Ready u ↔ k.Ready u := fun u => by
    by_cases hut : u = t
    · subst hut
      rw [Ready, Ready, modify_tcb_same, hstate]
      rfl
    · rw [Ready, Ready, modify_tcb_of_ne _ _ _ hut]
      rfl
  have hprio :
      ∀ u, k.Ready u → ((k.modify t f).tcb u).priority = (k.tcb u).priority := fun u hu => by
    by_cases hut : u = t
    · subst hut
      rw [modify_tcb_same, hp hu.2]
    · rw [modify_tcb_of_ne _ _ _ hut]
  refine ⟨⟨h.bitmap, fun q u => ?_, fun u hu => ?_⟩, h.stateWF, fun u hu => ?_⟩
  · refine (h.mem_readyQueue q u).trans ?_
    rw [← and_assoc, ← and_assoc]
    refine (and_congr_right fun hu => ?_).trans (and_congr_left fun _ => (hready u).symm)
    rw [hprio u hu]
  · rw [hprio u ((hready u).1 hu)]
    exact h.priority_lt u ((hready u).1 hu)
  · have hu' := h.linked u ((hready u).1 hu)
    by_cases hut : u = t
    · subst hut
      rw [modify_tcb_same, hlinked]
      exact hu'
    · rw [modify_tcb_of_ne _ _ _ hut]
      exact hu'

theorem mem_readyQueue_self (h : k.Scheduled) (ht : k.Ready t) :
    t ∈ (k.readyQueue (k.tcb t).priority).nodes :=
  h.mem_readyQueue_iff_ready.2 ht

/-- The bitmap with the bit of the queue of `t` cleared if nothing else is in it. -/
theorem bitmapOk_remove (h : k.Scheduled) (ht : k.Ready t) :
    ({ k with
      readyBitmap :=
        if (k.readyQueue (k.tcb t).priority).nodes.erase t = [] then
          Function.update k.readyBitmap (k.tcb t).priority false
        else k.readyBitmap
      stateLists := k.stateLists.remove (.ready (k.tcb t).priority) t } : Kernel).BitmapOk :=
  h.bitmap.remove h.stateWF (h.mem_readyQueue_self ht) rfl fun _ => rfl

theorem requeue (h : k.Scheduled) (ht : k.Ready t) (hp : p < maxPriorities) :
    (k.requeue t p).Scheduled := by
  have hm := h.mem_readyQueue_self ht
  have hwf : (k.stateLists.remove (.ready (k.tcb t).priority) t).WF := h.stateWF.remove hm
  have hfree : (k.stateLists.remove (.ready (k.tcb t).priority) t).Free t := h.stateWF.free_remove
  have hready : ∀ u, (k.requeue t p).Ready u ↔ k.Ready u := fun u => by
    by_cases hut : u = t
    · subst hut
      rw [Ready, Ready, requeue_tcb_same]
      rfl
    · rw [Ready, Ready, requeue_tcb_of_ne _ _ _ hut]
      rfl
  refine ⟨⟨?_, fun q u => ?_, fun u hu => ?_⟩, hwf.insertTail hfree, fun u hu => ?_⟩
  · refine (h.bitmapOk_remove ht).insertTail rfl ?_ fun q hq => ?_
    · exact List.ne_nil_of_mem (a := t) (by simp [readyQueue, Kernel.requeue])
    · simp only [readyQueue, Kernel.requeue]
      rw [Bundle.insertTail_of_ne (by simpa using hq)]
  · rw [readyQueue, Kernel.requeue, Bundle.mem_insertTail]
    by_cases hut : u = t
    · subst hut
      have hlive : u ∈ k.taskRegistry.nodes := ht.1
      simp [hfree (.ready q), hlive, ht.2, Live, eq_comm]
    · simp only [hut, and_false, or_false, Function.update_of_ne, ne_eq, not_false_eq_true]
      rw [Bundle.mem_remove_of_ne hut]
      exact h.mem_readyQueue q u
  · by_cases hut : u = t
    · subst hut
      simpa using hp
    · rw [requeue_tcb_of_ne _ _ _ hut]
      exact h.priority_lt u ((hready u).1 hu)
  · by_cases hut : u = t
    · subst hut
      simpa using h.linked u ht
    · rw [requeue_tcb_of_ne _ _ _ hut]
      exact h.linked u ((hready u).1 hu)

/-- The call keeps the ready structure, unless the task is `RUNNING` and its priority changes. -/
theorem setPrioritySection (h : k.Scheduled) (ht : k.Live t) (hp : p < maxPriorities)
    (hcond : (k.tcb t).state ≠ .running ∨ p = (k.tcb t).priority) :
    (Task.setPrioritySection k t p).Scheduled := by
  by_cases hs : (k.tcb t).state = .ready
  · have hready : k.Ready t := ⟨ht, by rw [hs]; rfl⟩
    rw [Task.setPrioritySection_of_ready hs (h.priority_lt t hready) (h.linked t hready) hp]
    exact (h.requeue hready hp).modify rfl rfl fun _ => by rw [requeue_tcb_same]
  · rw [Task.setPrioritySection_of_ne_ready hs]
    refine h.modify rfl rfl fun hr => ?_
    exact hcond.resolve_left (not_not.2 ((TaskState.isReady_iff.1 hr).resolve_left hs))

/-- After a ready task is taken out of its queue the bitmap is right, and the others are found. -/
theorem removed (h : k.Scheduled) (ht : k.Ready t)
    (hb : k'.readyBitmap = (removeReady k t).1.readyBitmap)
    (hq : ∀ q, k'.readyQueue q = (removeReady k t).1.readyQueue q) :
    k'.BitmapOk ∧ ∀ u, k.Ready u → u ≠ t → Scheduler.selectNextTask k' ≠ none := by
  rw [removeReady_eq (h.priority_lt t ht) (h.linked t ht)] at hb hq
  have hbitmap : k'.BitmapOk := fun q => by
    rw [hb, hq]
    exact h.bitmapOk_remove ht q
  refine ⟨hbitmap, fun u hu hut => hbitmap.selectNextTask_ne_none (u := u) (h.priority_lt u hu) ?_⟩
  rw [hq]
  exact (Bundle.mem_remove_of_ne hut).2 (h.mem_readyQueue_self hu)

theorem delaySection (h : k.Scheduled) (ht : k.Ready t) (ticks : ℕ) :
    (Scheduler.delaySection k t ticks).BitmapOk ∧
      ∀ u, k.Ready u → u ≠ t → Scheduler.selectNextTask (Scheduler.delaySection k t ticks) ≠ none :=
  h.removed ht rfl fun q => readyQueue_insertTail_delay _ t q

theorem waitListBlockSection (h : k.Scheduled) (ht : k.Ready t) (W : WaitList) (timeout : ℕ) :
    (Scheduler.waitListBlockSection k t W timeout).BitmapOk ∧
      ∀ u, k.Ready u → u ≠ t →
        Scheduler.selectNextTask (Scheduler.waitListBlockSection k t W timeout) ≠ none := by
  rw [Scheduler.waitListBlockSection]
  split
  · exact h.removed ht rfl fun q => readyQueue_insertTail_delay _ t q
  · exact h.removed ht rfl fun _ => rfl

end Scheduled

/-! ## After the call -/

/-- What is to hold after the priority of `t` was changed. -/
structure PriorityKept (k : Kernel) (t : TaskId) : Prop where
  scheduled : k.Scheduled
  /-- With the scheduler running and unlocked no ready task exceeds the current one. -/
  top : k.isRunning = true → k.lockNesting = 0 → ∀ u, k.Ready u →
    ∃ c, k.currentTcb = some c ∧ (k.tcb u).priority ≤ (k.tcb c).priority
  /-- A delay by `t` clears the right bit, and a task that is left is found. -/
  delay : k.Ready t → ∀ ticks, (Scheduler.delaySection k t ticks).BitmapOk ∧
    ∀ u, k.Ready u → u ≠ t → Scheduler.selectNextTask (Scheduler.delaySection k t ticks) ≠ none
  /-- So does a block. -/
  block : k.Ready t → ∀ W timeout, (Scheduler.waitListBlockSection k t W timeout).BitmapOk ∧
    ∀ u, k.Ready u → u ≠ t →
      Scheduler.selectNextTask (Scheduler.waitListBlockSection k t W timeout) ≠ none

theorem Scheduled.priorityKept (h : k.Scheduled) : (Scheduler.reschedule k).PriorityKept t := by
  have hs := h.reschedule
  refine ⟨hs, fun hrun hl u hu => ?_, fun ht => hs.delaySection ht,
    fun ht => hs.waitListBlockSection ht⟩
  have hsw : Switched k (Scheduler.reschedule k) :=
    Switched.reschedule_of_ready fun _ hn => (h.selectNextTask_isTop hn).ready
  exact h.reschedule_top (hsw.isRunning ▸ hrun) (hsw.lockNesting ▸ hl) hu

/-- A running task whose priority changes stays in the queue of the old one. -/
theorem Scheduled.not_scheduled_of_running (h : k.Scheduled) (ht : k.Live t)
    (hs : (k.tcb t).state = .running) (hp : p ≠ (k.tcb t).priority) :
    ¬ (Scheduler.reschedule (Task.setPrioritySection k t p)).Scheduled := by
  intro hsched
  have hready : k.Ready t := ⟨ht, by rw [hs]; rfl⟩
  rw [Task.setPrioritySection_of_ne_ready (by rw [hs]; simp)] at hsched
  -- nothing has moved, and the tasks that are selected are still ready ones
  have hready' : ∀ u, k.Ready u →
      (k.modify t fun b => { b with priority := p, basePriority := p }).Ready u := fun u hu => by
    refine ⟨hu.1, ?_⟩
    by_cases hut : u = t
    · subst hut
      rw [modify_tcb_same]
      exact hu.2
    · rw [modify_tcb_of_ne _ _ _ hut]
      exact hu.2
  have hsw := Switched.reschedule_of_ready fun n hn =>
    ready_of_selectNextTask (fun _ u hu => hready' u (h.ready_of_mem hu)) hn
  have hmem := hsched.mem_readyQueue_self (hsw.ready.2 (hready' t hready))
  rw [readyQueue, hsw.stateLists, hsw.tcb, modify_tcb_same] at hmem
  have := h.stateWF.unique _ _ t hmem (h.mem_readyQueue_self hready)
  exact hp (by simpa using this)

/-- **When a change of priority keeps the ready structure.**  The call on a live task keeps it, with
a current task of maximal priority and queues from which the task can block, if and only if the task
is not `RUNNING` or its priority stays the same. -/
theorem setPriority_keeps_ready_structure_iff {magic : TaskId → ℕ} {handle : Option TaskId}
    (h : k.Scheduled) (ht : k.Live t) (hhandle : handle.or k.currentTcb = some t)
    (hm : magic t = Task.magicWord) (hp : p < maxPriorities) :
    (Task.setPriority k magic handle p).1.PriorityKept t ↔
      ((k.tcb t).state ≠ .running ∨ p = (k.tcb t).priority) := by
  rw [Task.setPriority_of_valid hhandle hm hp]
  constructor
  · intro hkept
    by_contra hcond
    rw [not_or, not_not] at hcond
    exact h.not_scheduled_of_running ht hcond.1 hcond.2 hkept.scheduled
  · intro hcond
    exact (h.setPrioritySection ht hp hcond).priorityKept

theorem oneTask_scheduled : oneTask.Scheduled := by
  have hrun : Trace Call.UnlockedStep (initWithConfig bss none 0).1
      [.create (.ofPriority 1) 1, .start .ok] oneTask := Trace.of_guards (by decide +kernel)
  have hunlocked : oneTask.Unlocked :=
    hrun.invariant (fun _ _ _ => Unlocked.step) (initWithConfig_unlocked (by decide))
  exact hunlocked.lists.scheduled

/-- While task 1 runs, the Idle task is given priority 3. -/
theorem setPriority_keeps_ready_structure_idle :
    (Task.setPriority oneTask (fun _ => Task.magicWord) (some idleTcb) 3).1.PriorityKept idleTcb :=
  (setPriority_keeps_ready_structure_iff (t := idleTcb) oneTask_scheduled (by decide +kernel)
    (by decide) rfl (by decide)).2 (Or.inl (by decide +kernel))

/-- **A task that changes its own priority.**  Task 1 runs at priority 1 and asks for priority 5.
When it then delays, the bit of queue 1 stays set over an empty queue, and no task is found,
although the Idle task is ready. -/
theorem setPriority_of_running_loses_idle :
    oneTask.Scheduled ∧ oneTask.currentTcb = some 1 ∧ oneTask.Live 1 ∧
      (Task.setPriority oneTask (fun _ => Task.magicWord) none 5).2 = .ok ∧
      (Task.setPriority oneTask (fun _ => Task.magicWord) none 5).1.Ready idleTcb ∧
      Scheduler.selectNextTask (Scheduler.delaySection
        (Task.setPriority oneTask (fun _ => Task.magicWord) none 5).1 1 2) = none ∧
      ¬ (Task.setPriority oneTask (fun _ => Task.magicWord) none 5).1.PriorityKept 1 := by
  have hready : ∀ t < 2, (Task.setPriority oneTask (fun _ => Task.magicWord) none 5).1.Live t ∧
      ((Task.setPriority oneTask (fun _ => Task.magicWord) none 5).1.tcb t).state.isReady = true := by
    decide +kernel
  have hnone : Scheduler.selectNextTask (Scheduler.delaySection
      (Task.setPriority oneTask (fun _ => Task.magicWord) none 5).1 1 2) = none := by decide +kernel
  refine ⟨oneTask_scheduled, by decide +kernel, by decide +kernel, by decide +kernel,
    hready idleTcb (by decide), hnone, fun h => ?_⟩
  exact (h.delay (hready 1 (by decide)) 2).2 idleTcb (hready idleTcb (by decide)) (by decide) hnone

end Kernel

end Sertos
