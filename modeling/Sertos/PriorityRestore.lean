import Sertos.Orderly

/-!
# Giving an inherited priority back

A mutex owner of low priority inherits the priority of a task that wants the mutex, and gives it
back when it releases the mutex; the task it kept waiting should run then.  The two halves treat the
ready queues differently.  The owner is raised while it is `READY` or blocked, by another task, and
is moved to the queue of its new priority.  It gives the priority back while it is `RUNNING`, and
then only the field is written: the task stays in the queue of the inherited priority.

`release_hands_back_iff` is about runs of whole calls: the releases leave the ready queues right and
hand the processor to the woken waiter exactly if each of them is made by a task that has nothing to
give back.
-/

set_option autoImplicit false

namespace Sertos

open Intrusive Lts Scheduler

/-- One step of a run whose calls are in order, the releases of mutexes apart. -/
abbrev TaskOp.ListStep : Tasks → TaskOp → Tasks → Prop :=
  Guarded (fun s a => a.Allowed s ∧ a.KeepsLists s ∧ a.BlocksUnlocked s) TaskOp.run

namespace Tasks

/-! ## The property -/

/-- If this step releases a mutex, it leaves the ready queues right, and if the scheduler is
unlocked and the step wakes a waiter of higher priority than the task that released the mutex has
now, another task runs, of maximal priority. -/
structure HandsBack (s : Tasks) (a : TaskOp) (s' : Tasks) : Prop where
  linked : ∀ m c, a = .api (.unlock m) → s.system.Releases m c →
    (∀ t, s'.kernel.Ready t → t ∈ (s'.kernel.readyQueue (s'.system.priority t)).nodes) ∧
      s'.kernel.BitmapOk
  preempted : ∀ m c w, a = .api (.unlock m) → s.system.Releases m c →
    s.kernel.isRunning = true → s.kernel.lockNesting = 0 → (s.system.waiters m).head? = some w →
    s'.system.priority c < s'.system.priority w →
    ∃ n, s'.kernel.currentTcb = some n ∧ n ≠ c ∧ s'.kernel.IsTop n

variable {P : Kernel → Prop} [hP : Kernel.Lasting P] {s s' : Tasks} {r : LinkedList TaskId}
  {a : TaskOp} {m : ℕ} {c w : TaskId}

/-- The state after the release of a mutex. -/
def released (s : Tasks) (m : ℕ) : Tasks := { s with system := (Mutex.unlock s.system m).1 }

/-! ## A release with nothing to give back -/

theorem Ordered.released_linked (h : s.Ordered P r)
    (hcond : (TaskOp.api (.unlock m)).NothingInherited s) :
    (∀ t, (s.released m).kernel.Ready t →
      t ∈ ((s.released m).kernel.readyQueue ((s.released m).system.priority t)).nodes) ∧
      (s.released m).kernel.BitmapOk := by
  have h' : (s.released m).Ordered P r := h.unlock hcond
  exact ⟨fun t ht => h'.inv.lists.mem_readyQueue_iff_ready.2 (h'.ready_among.2 ht),
    h'.inv.lists.bitmap⟩

/-- Such a release hands the processor on. -/
theorem Ordered.released_preempted (h : s.Ordered P r) (hr : s.system.Releases m c)
    (hp : s.system.priority c = (s.system.mutexes m).originalOwnerPriority)
    (hrun : s.kernel.isRunning = true) (hl : s.kernel.lockNesting = 0)
    (hw : (s.system.waiters m).head? = some w)
    (hlt : (s.released m).system.priority c < (s.released m).system.priority w) :
    ∃ n, (s.released m).kernel.currentTcb = some n ∧ n ≠ c ∧ (s.released m).kernel.IsTop n := by
  have hwoken := h.unblock (.mutex m)
  have hkernel : (s.released m).kernel
      = Scheduler.reschedule (waitListUnblockHighest s.kernel (.mutex m)).1 :=
    System.unlock_kernel hr.1 hr.2 hp
  generalize hk : (waitListUnblockHighest s.kernel (.mutex m)).1 = k at hwoken hkernel
  have hframe : k.currentTcb = some c ∧ k.isRunning = true ∧ k.lockNesting = 0 := by
    rw [← hk, unblockHighest_frame]
    exact ⟨hr.2.1, hrun, hl⟩
  -- the waiter is ready once it is woken
  have hready : (k.among r).Ready w := by
    rw [← hk, ← Kernel.unblockHighest_among]
    rcases Kernel.unblockHighest_cases h.inv.lists (.mutex m) with
      ⟨hnil, -⟩ | ⟨t, ht, hlive, -, -, e⟩
    · rw [System.waiters] at hw
      rw [Kernel.among_waitLists] at hnil
      rw [show s.system.kernel = s.kernel from rfl, hnil] at hw
      exact absurd hw (by simp)
    · obtain rfl := Option.some_inj.1 (ht.symm.trans hw)
      rw [e]
      exact ⟨hlive, by simp [TaskState.isReady]⟩
  have hprio : ∀ t, (s.released m).system.priority t = (k.tcb t).priority := fun t => by
    rw [System.priority, show (s.released m).system.kernel = Scheduler.reschedule k from hkernel,
      reschedule_priority]
  rw [hprio, hprio] at hlt
  have hresched := hwoken.reschedule
  rw [setKernel_kernel] at hresched
  rw [hkernel]
  -- the tasks of the cycle are the ready ones
  have htop : ∀ {n}, ((Scheduler.reschedule k).among r).IsTop n →
      (Scheduler.reschedule k).IsTop n := fun ht =>
    ⟨hresched.ready_among.1 ht.ready, fun u hu => ht.max u (hresched.ready_among.2 hu)⟩
  rcases reschedule_cases hwoken.inv.lists with e | ⟨-, hmax⟩
  · obtain ⟨n, hn, hmaximal⟩ := hwoken.inv.switchContext_top hframe.2.2 hready
    rw [setKernel_kernel, Kernel.reschedule_among] at e
    rw [setKernel_kernel, ← e] at hn hmaximal
    refine ⟨n, hn, ?_, htop hmaximal⟩
    rintro rfl
    have hready' : ((Scheduler.reschedule k).among r).Ready w := by
      rw [← Kernel.reschedule_among]
      exact (Kernel.Switched.reschedule hwoken.inv.lists).ready.2 hready
    have hle := hmaximal.max w hready'
    simp only [Kernel.among_tcb, reschedule_priority] at hle
    omega
  · obtain ⟨d, hd, hle⟩ := hmax hframe.2.1 w hready
    obtain rfl := Option.some_inj.1 (hframe.1.symm.trans hd)
    simp only [setKernel_kernel, Kernel.among_tcb] at hle
    omega

/-! ## A release of an inherited priority -/

/-- **A task that gives back an inherited priority is lost.**  It is ready, and not in the queue of
its priority. -/
theorem Ordered.not_linked (h : s.Ordered P r) (hr : s.system.Releases m c)
    (hp : s.system.priority c ≠ (s.system.mutexes m).originalOwnerPriority) :
    (s.released m).kernel.Ready c ∧
      c ∉ ((s.released m).kernel.readyQueue ((s.released m).system.priority c)).nodes := by
  obtain ⟨hmagic, hc, ho, hcount⟩ := hr
  have hmem := h.mem_current hc
  have hrunning : (s.kernel.tcb c).state = .running := h.settled.current_running c hc
  have hne : (s.kernel.tcb c).state ≠ .ready := by rw [hrunning]; simp
  -- the running task is not moved
  have hrestore : Mutex.restoreOwnerPriority s.kernel (s.system.mutexes m) c =
      s.kernel.modify c fun b =>
        { b with priority := (s.system.mutexes m).originalOwnerPriority } := by
    have hp' : (s.kernel.tcb c).priority ≠ (s.system.mutexes m).originalOwnerPriority := hp
    rw [Mutex.restoreOwnerPriority, if_pos hp', Mutex.changePriority, if_neg hne]
  have hstays : c ∉ (s.kernel.readyQueue (s.system.mutexes m).originalOwnerPriority).nodes :=
    fun hm => hp ((h.inv.lists.mem_readyQueue _).1 hm).2.2
  -- all that matters is a kernel in which `c` is where it was, with the new priority
  have hfinal : ∀ k : Kernel, k.taskRegistry = s.kernel.taskRegistry →
      k.tcb c = { s.kernel.tcb c with priority := (s.system.mutexes m).originalOwnerPriority } →
      (∀ L, c ∈ (k.stateLists L).nodes ↔ c ∈ (s.kernel.stateLists L).nodes) →
      (Scheduler.reschedule k).Ready c ∧
        c ∉ ((Scheduler.reschedule k).readyQueue ((Scheduler.reschedule k).tcb c).priority).nodes := by
    intro k hreg htcb hlists
    refine ⟨⟨?_, reschedule_isReady k c ?_⟩, ?_⟩
    · rw [Kernel.Live, reschedule_frame]
      exact hreg ▸ h.registered hmem
    · rw [htcb, hrunning]
      rfl
    · rw [reschedule_tcb, Kernel.readyQueue, reschedule_frame, htcb]
      exact fun hm => hstays ((hlists _).1 hm)
  have he := Mutex.unlock_effect s.system m
  rw [released]
  generalize Mutex.unlock s.system m = x at he ⊢
  cases he with
  | invalid hinv =>
    rcases hinv with hne | hown
    · exact absurd hmagic hne
    · exact absurd ho (hown c hc)
  | nested _ _ hn => exact absurd hcount hn
  | @release c' hc' =>
    obtain rfl := Option.some_inj.1 (hc.symm.trans hc')
    refine hfinal _ ?_ ?_ fun L => ?_
    · rw [show s.system.kernel = s.kernel from rfl, hrestore, Kernel.modify_taskRegistry]
    · rw [show s.system.kernel = s.kernel from rfl, hrestore, Kernel.modify_tcb_same]
    · rw [show s.system.kernel = s.kernel from rfl, hrestore, Kernel.modify_stateLists]
  | @handOver c' w rest hc' _ _ hW =>
    obtain rfl := Option.some_inj.1 (hc.symm.trans hc')
    have hwait : w ∈ s.system.waiters m := by rw [hW]; exact List.mem_cons_self
    have hcw : c ≠ w := by
      rintro rfl
      have hb : (s.kernel.tcb c).state = .blocked := ((h.inv.lists.mem_waitList _).1 hwait).2.1
      exact absurd (hb.symm.trans hrunning) (by simp)
    have hW' : ((Mutex.restoreOwnerPriority s.kernel (s.system.mutexes m) c).waitLists
        (.mutex m)).nodes = w :: rest := by
      rw [Mutex.restoreOwnerPriority_waitLists]
      exact hW
    refine hfinal _ ?_ ?_ fun L => ?_
    · rw [Mutex.handedKernel, unblockHighest_frame, Mutex.restoreOwnerPriority_frame]
      rfl
    · rw [Mutex.handedKernel_tcb_of_ne hW hcw, show s.system.kernel = s.kernel from rfl, hrestore,
        Kernel.modify_tcb_same]
    · rw [Mutex.handedKernel, show s.system.kernel = s.kernel from rfl,
        unblockHighest_mem_stateLists _ _ _ hW' hcw, hrestore, Kernel.modify_stateLists]

/-! ## Runs -/

theorem Ordered.handsBack_iff (h : s.Ordered P r) (hs : TaskOp.ListStep s a s') :
    s.HandsBack a s' ↔ a.NothingInherited s := by
  obtain ⟨-, rfl⟩ := hs
  by_cases ha : ∃ m, a = .api (.unlock m)
  · obtain ⟨m, rfl⟩ := ha
    constructor
    · intro hback c hr
      by_contra hp
      obtain ⟨hready, hnot⟩ := h.not_linked hr hp
      exact hnot ((hback.linked m c rfl hr).1 c hready)
    · intro hcond
      constructor
      · rintro m' c e -
        obtain rfl : m = m' := by simpa using e
        exact h.released_linked hcond
      · rintro m' c w e hr hrun hl hw hlt
        obtain rfl : m = m' := by simpa using e
        exact h.released_preempted hr (hcond c hr) hrun hl hw hlt
  · have hne : ∀ m, a ≠ .api (.unlock m) := fun m e => ha ⟨m, e⟩
    refine iff_of_true ⟨fun m c e => absurd e (hne m), fun m c w e => absurd e (hne m)⟩ ?_
    rcases a with (_ | _ | _ | _ | m) | _ | _ | _ | _ | _ | _ | _ <;>
      first | exact trivial | exact absurd rfl (hne m)

/-- **When a release hands the processor back.**  In every run whose other calls are in order: every
full release leaves each ready task in the queue of its priority, with the right bitmap, and lets
the woken waiter preempt if its priority is higher, exactly if every full release is made by a task
that has the priority recorded in the mutex. -/
theorem release_hands_back_iff {mem : Kernel} {config : Option Config} {idleStack : ℕ}
    (hinit : (initWithConfig mem config idleStack).2 = .ok) (sems : ℕ → Semaphore)
    (ops : List TaskOp) (s : Tasks) :
    Trace.AllSteps TaskOp.ListStep HandsBack
        (init (initWithConfig mem config idleStack).1 sems) ops s ↔
      Trace.AllSteps TaskOp.ListStep (fun s a _ => a.NothingInherited s)
        (init (initWithConfig mem config idleStack).1 sems) ops s := by
  refine Trace.allSteps_iff (I := fun s : Tasks => ∃ r, s.Ordered Kernel.Steady r)
    (fun s a s' ⟨r, h⟩ hs hC => ?_) (fun s a s' ⟨r, h⟩ hs => h.handsBack_iff hs)
    ⟨_, init_ordered hinit (Kernel.initWithConfig_steady hinit)⟩
  obtain ⟨⟨ha, hlists, hblocks⟩, hrun⟩ := hs
  exact h.step ⟨⟨ha, hlists, hC, hblocks⟩, hrun⟩

/-- Task 2, of priority 2, locks the mutex and sleeps for a tick; task 1, of priority 1, waits for
it; task 2 wakes up and releases it, and the mutex is deleted. -/
def lowWaiter : List TaskOp :=
  [.create (.ofPriority 1) 1, .create (.ofPriority 2) 2, .api (.sched (.start .ok)),
    .api (.lock 0 waitForever), .api (.sched (.delay 1)), .api (.lock 0 waitForever),
    .api (.sched .tick), .api (.unlock 0), .deleteMutex 0]

/-- A waiter of lower priority: nothing is inherited, and the release leaves the queues right. -/
theorem release_hands_back_iff_low_waiter :
    Trace TaskOp.ListStep fresh lowWaiter (lowWaiter.foldl TaskOp.run fresh) ∧
    Trace.AllSteps TaskOp.ListStep HandsBack fresh lowWaiter (lowWaiter.foldl TaskOp.run fresh) :=
  ⟨Trace.of_guards (by decide +kernel), (release_hands_back_iff (by decide) _ lowWaiter _).2
    (Trace.allSteps_of_guards (by decide +kernel))⟩

/-- Task 1, of priority 1, locks the mutex; task 2, of priority 5, preempts it and waits for the
mutex, so that task 1 runs again, with priority 5. -/
def highWaiter : List TaskOp :=
  [.create (.ofPriority 1) 1, .api (.sched (.start .ok)), .api (.lock 0 waitForever),
    .create (.ofPriority 5) 2, .api (.lock 0 waitForever)]

/-- The state in which task 1 is about to release the mutex. -/
def boosted : Tasks := highWaiter.foldl TaskOp.run fresh

/-- **The processor is not handed back.**  Task 1 owns one mutex, once, and has inherited priority 5
from the waiter.  It releases the mutex, is not in the queue of its priority, and runs on, with a
task of priority 5 ready. -/
theorem boosted_release_runs_on :
    Trace TaskOp.Step fresh highWaiter boosted ∧
    boosted.kernel.isRunning = true ∧ (boosted.kernel.tcb 1).state = .running ∧
    boosted.system.Releases 0 1 ∧ boosted.system.priority 1 = 5 ∧
    (boosted.system.mutexes 0).originalOwnerPriority = 1 ∧ boosted.system.waiters 0 = [2] ∧
    (∀ m, m ≠ 0 → (boosted.system.mutexes m).owner ≠ some 1) ∧
    ((boosted.released 0).kernel.tcb 1).state = .running ∧
    (boosted.released 0).system.priority 1 = 1 ∧
    ((boosted.released 0).kernel.readyQueue 1).nodes = [] ∧
    (boosted.released 0).system.priority 2 = 5 ∧
    (boosted.released 0).kernel.currentTcb = some 1 ∧
    ¬ boosted.HandsBack (.api (.unlock 0)) (boosted.released 0) := by
  have hrelease : boosted.system.Releases 0 1 :=
    ⟨by decide +kernel, by decide +kernel, by decide +kernel, by decide +kernel⟩
  have hprio : (boosted.released 0).system.priority 1 = 1 := by decide +kernel
  have hqueue : ((boosted.released 0).kernel.readyQueue 1).nodes = [] := by decide +kernel
  have hready : (boosted.released 0).kernel.Ready 1 := ⟨by decide +kernel, by decide +kernel⟩
  refine ⟨Trace.of_guards (by decide +kernel), by decide +kernel, by decide +kernel, hrelease,
    by decide +kernel, by decide +kernel, by decide +kernel, fun m hm => ?_, by decide +kernel, hprio,
    hqueue, by decide +kernel, by decide +kernel, fun h => ?_⟩
  · cases m with
    | zero => exact absurd rfl hm
    | succ m => exact fun e => absurd (show none = some 1 from e) (by simp)
  · have hmem := (h.linked 0 1 rfl hrelease).1 1 hready
    rw [hprio, hqueue] at hmem
    exact absurd hmem (by simp)

end Tasks

end Sertos
