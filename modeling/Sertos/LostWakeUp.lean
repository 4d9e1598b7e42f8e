import Sertos.Interleaving

/-!
# No lost wake-up

A semaphore with a token and a waiting task, or a mutex without an owner and with a waiting task:
the waiter sleeps beside a free resource.  `sertos_sem_take` and `sertos_mutex_lock` test the object
in one critical section and queue the caller in another, so a give or an unlock in between finds
nobody to wake, and the caller is then queued on an object that has become free.

`no_lost_wake_up_iff` says that this is the only way: in a run of critical sections no wake-up is
lost exactly if each task that is queued still finds the object taken.
-/

set_option autoImplicit false

namespace Sertos

open Intrusive Lts Scheduler

/-! ## The wait lists under the scheduler's own sections -/

theorem Task.createStaticSection_waitLists (k : Kernel) (config : TaskConfig) (t : TaskId) :
    (Task.createStaticSection k config t).1.waitLists = k.waitLists := by
  rcases Task.createStaticSection_cases k config t with ⟨-, e⟩ | ⟨-, e⟩ <;> rw [e]
  rfl

/-- A section of the scheduler adds nobody to the wait list of a semaphore or a mutex. -/
theorem Section.run_subset {s : System} {a : Section} (ha : Atomic.AllowedSection s a)
    {V : WaitList} (hV : ¬ V.IsOther) :
    ((a.run s.kernel).waitLists V).nodes ⊆ (s.kernel.waitLists V).nodes := by
  cases a with
  | start tickInit =>
    simp only [Section.run, Scheduler.start]
    split
    · rw [performSwitch_frame]; exact fun u hu => hu
    · exact fun u hu => hu
  | switchContext => rw [Section.run, switchContext_frame]; exact fun u hu => hu
  | performSwitch => rw [Section.run, performSwitch_frame]; exact fun u hu => hu
  | critical a =>
    have hslice : ((processTimeSlicing s.kernel).waitLists V).nodes
        ⊆ (s.kernel.waitLists V).nodes := by
      rw [processTimeSlicing_frame]; exact fun u hu => hu
    cases a with
    | create config t =>
      rw [Section.run, Call.critical, Task.createStaticSection_waitLists]
      exact fun u hu => hu
    | tick => exact tickSection_subset s.kernel V
    | yield => exact hslice
    | delay n =>
      simp only [Section.run, Call.critical]
      split
      · exact hslice
      · split
        · rw [delaySection_waitLists]; exact fun u hu => hu
        · exact fun u hu => hu
    | block W timeout =>
      simp only [Section.run, Call.critical]
      split
      · have hne : V ≠ W := fun e => hV (e ▸ ha.1)
        rw [waitListBlockSection_waitLists, Bundle.insertByKey_of_ne hne]
        exact fun u hu => hu
      · exact fun u hu => hu
    | unblock W => exact unblockHighest_subset s.kernel W V
    | unlock =>
      rw [Section.run, Call.critical, (Call.sameCore_unlockSection s.kernel).waitLists]
      exact fun u hu => hu
    | _ => exact fun u hu => hu

namespace System

/-- No task waits for a semaphore that has a token, or for a mutex without an owner. -/
structure NoLostWakeUp (s : System) : Prop where
  sem : ∀ i, 0 < (s.sems i).count → (s.kernel.waitLists (.sem i)).nodes = []
  mutex : ∀ m, (s.mutexes m).owner = none → (s.kernel.waitLists (.mutex m)).nodes = []

/-- If the current task is queued by this step, it still finds the object taken. -/
def EnqueueJustified (s : System) (a : Atomic) : Prop :=
  a = .enqueue → s.kernel.isRunning = true → match s.currentPc with
    | some (.semEnqueue i _) => (s.sems i).count = 0
    | some (.mutexEnqueue m _) => (s.mutexes m).owner ≠ none
    | _ => True

variable {s s' : System} {c : TaskId}

/-- Nothing is lost where no object becomes free and no list grows. -/
theorem NoLostWakeUp.of_subset (h : s.NoLostWakeUp)
    (hsem : ∀ i, 0 < (s'.sems i).count → 0 < (s.sems i).count)
    (hmutex : ∀ m, (s'.mutexes m).owner = none → (s.mutexes m).owner = none)
    (hlists : ∀ V : WaitList, ¬ V.IsOther →
      (s'.kernel.waitLists V).nodes ⊆ (s.kernel.waitLists V).nodes) : s'.NoLostWakeUp := by
  constructor
  · intro i hi
    have hsub := hlists (.sem i) (fun e => e)
    rw [h.sem i (hsem i hi)] at hsub
    exact List.eq_nil_of_subset_nil hsub
  · intro m hm
    have hsub := hlists (.mutex m) (fun e => e)
    rw [h.mutex m (hmutex m hm)] at hsub
    exact List.eq_nil_of_subset_nil hsub

/-! ## The steps of the objects -/

theorem NoLostWakeUp.setPc (h : s.NoLostWakeUp) (p : Pc) : (s.setPc c p).NoLostWakeUp :=
  ⟨h.sem, h.mutex⟩

/-- A mutex that is written with an owner loses no wake-up. -/
theorem NoLostWakeUp.setMutex (h : s.NoLostWakeUp) {m : ℕ} {x : Mutex}
    (hx : x.owner = none → (s.mutexes m).owner = none) : (s.setMutex m x).NoLostWakeUp := by
  refine h.of_subset (fun _ hi => hi) (fun n hn => ?_) fun _ _ _ hu => hu
  by_cases hnm : n = m
  · subst hnm
    exact hx (by simpa [System.setMutex] using hn)
  · simpa [System.setMutex, hnm] using hn

theorem NoLostWakeUp.semTake (h : s.NoLostWakeUp) (i timeout : ℕ) :
    (Atomic.runTask s c (.semTake i timeout)).NoLostWakeUp := by
  simp only [Atomic.runTask, Sem.takeSection]
  split_ifs with hmagic hcount hwait
  · exact h
  · refine h.of_subset (fun j hj => ?_) (fun _ hm => hm) fun _ _ _ hu => hu
    by_cases hji : j = i
    · exact hji ▸ hcount
    · simpa [System.setSem, hji] using hj
  · exact h
  · exact h.setPc _

/-- A give wakes a waiter, or leaves a token where nobody waits. -/
theorem NoLostWakeUp.give (h : s.NoLostWakeUp) (i : ℕ) :
    (Sem.giveSection s i).1.NoLostWakeUp := by
  rcases Sem.giveSection_cases s i with ⟨t, rest, -, e⟩ | ⟨hW, -, e⟩ | ⟨-, -, e⟩ <;> rw [e]
  · exact h.of_subset (fun _ hj => hj) (fun _ hm => hm) fun V _ =>
      unblockHighest_subset s.kernel (.sem i) V
  · refine ⟨fun j hj => ?_, h.mutex⟩
    by_cases hji : j = i
    · exact hji ▸ hW
    · exact h.sem j (by simpa [System.setSem, hji] using hj)
  · exact h

theorem NoLostWakeUp.mutexLock (h : s.NoLostWakeUp) (m timeout : ℕ) :
    (Atomic.runTask s c (.mutexLock m timeout)).NoLostWakeUp := by
  by_cases hmagic : (s.mutexes m).magic ≠ mutexMagicWord
  · rw [Atomic.runTask, if_pos hmagic]; exact h
  · rw [Atomic.runTask, if_neg hmagic]
    cases ho : (s.mutexes m).owner with
    | none =>
      rw [Mutex.lockSection_of_free ho]
      exact h.setMutex fun e => absurd e (by simp)
    | some o =>
      by_cases hoc : o = c
      · subst hoc
        rw [Mutex.lockSection_of_owner ho]
        exact h.setMutex fun e => e
      · have hk : ({ s with
            kernel := Mutex.applyPriorityInheritance s.kernel o c } : System).NoLostWakeUp :=
          h.of_subset (fun _ hj => hj) (fun _ hm => hm) fun V _ => by
            simp only [Mutex.applyPriorityInheritance_waitLists]; exact fun u hu => hu
        rw [Mutex.lockSection_of_other ho hoc]
        by_cases ht : timeout = noWait
        · rw [if_pos ht]; exact hk
        · rw [if_neg ht]; exact hk.setPc _

/-- A full release hands the mutex to a waiter, or leaves it free where nobody waits. -/
theorem NoLostWakeUp.mutexUnlock (h : s.NoLostWakeUp) (m : ℕ) :
    (Mutex.unlockSection s m c).1.NoLostWakeUp := by
  have hwl := Mutex.restoreOwnerPriority_waitLists s.kernel (s.mutexes m) c
  by_cases hcount : (s.mutexes m).lockCount = 1
  · cases hW : (s.kernel.waitLists (.mutex m)).nodes with
    | nil =>
      -- nobody waits, so the mutex may be left free
      rw [Mutex.unlockSection_release hcount hW]
      refine ⟨fun i hi => ?_, fun n hn => ?_⟩
      · simp only [System.setMutex, hwl]
        exact h.sem i hi
      · simp only [System.setMutex, hwl]
        by_cases hnm : n = m
        · exact hnm ▸ hW
        · exact h.mutex n (by simpa [System.setMutex, hnm] using hn)
    | cons w rest =>
      have hk : ({ s with kernel := Mutex.handedKernel s m c } : System).NoLostWakeUp := by
        refine h.of_subset (fun _ hj => hj) (fun _ hm => hm) fun V _ => ?_
        rw [← hwl]
        exact unblockHighest_subset _ (.mutex m) V
      rw [Mutex.unlockSection_handOver hcount hW]
      exact hk.setMutex fun e => absurd e (by simp)
  · rw [Mutex.unlockSection_of_ne_one hcount]
    exact h.setMutex fun e => e

theorem NoLostWakeUp.resume (h : s.NoLostWakeUp) :
    (Atomic.runTask s c .resume).NoLostWakeUp := by
  simp only [Atomic.runTask]
  split
  · exact h.setPc _
  · simp only [Mutex.lockResume, Mutex.lockReturn]
    split_ifs
    · exact (h.setMutex fun e => absurd e (by simp)).setPc _
    · exact h.setPc _
  · exact h

/-- **Queueing loses a wake-up exactly if the object is free.** -/
theorem NoLostWakeUp.enqueueOn_sem (h : s.NoLostWakeUp) (hrun : s.kernel.isRunning = true)
    (i timeout : ℕ) (p : Pc) :
    (Atomic.enqueueOn s c (.sem i) timeout p).NoLostWakeUp ↔ (s.sems i).count = 0 := by
  have hwl := waitListBlockSection_waitLists s.kernel c (.sem i) timeout
  simp only [Atomic.enqueueOn, hrun, if_true]
  constructor
  · intro h'
    by_contra hne
    have := h'.sem i (Nat.pos_of_ne_zero hne)
    simp only [System.setPc, hwl] at this
    exact absurd this (List.ne_nil_of_mem (a := c) (by simp))
  · intro h0
    refine ⟨fun j hj => ?_, fun m hm => ?_⟩
    · have hji : j ≠ i := by
        rintro rfl
        exact absurd (h0 ▸ hj) (Nat.lt_irrefl 0)
      simp only [System.setPc, hwl]
      rw [Bundle.insertByKey_of_ne (by simpa using hji)]
      exact h.sem j hj
    · simp only [System.setPc, hwl]
      rw [Bundle.insertByKey_of_ne (by simp)]
      exact h.mutex m hm

theorem NoLostWakeUp.enqueueOn_mutex (h : s.NoLostWakeUp) (hrun : s.kernel.isRunning = true)
    (m timeout : ℕ) (p : Pc) :
    (Atomic.enqueueOn s c (.mutex m) timeout p).NoLostWakeUp ↔ (s.mutexes m).owner ≠ none := by
  have hwl := waitListBlockSection_waitLists s.kernel c (.mutex m) timeout
  simp only [Atomic.enqueueOn, hrun, if_true]
  constructor
  · intro h' hnone
    have := h'.mutex m hnone
    simp only [System.setPc, hwl] at this
    exact absurd this (List.ne_nil_of_mem (a := c) (by simp))
  · intro h0
    refine ⟨fun j hj => ?_, fun n hn => ?_⟩
    · simp only [System.setPc, hwl]
      rw [Bundle.insertByKey_of_ne (by simp)]
      exact h.sem j hj
    · have hnm : n ≠ m := by
        rintro rfl
        exact h0 hn
      simp only [System.setPc, hwl]
      rw [Bundle.insertByKey_of_ne (by simpa using hnm)]
      exact h.mutex n hn

/-! ## Runs -/

/-- **A step loses a wake-up exactly if it queues a task on a free object.** -/
theorem NoLostWakeUp.step_iff (h : s.NoLostWakeUp) {a : Atomic} (hs : Atomic.Step s a s') :
    s'.NoLostWakeUp ↔ s.EnqueueJustified a := by
  obtain ⟨ha, rfl⟩ := hs
  cases a with
  | kernel a =>
    refine iff_of_true ?_ fun e => absurd e (by simp)
    exact h.of_subset (fun _ hi => hi) (fun _ hm => hm) fun V hV => a.run_subset ha.2 hV
  | dispatch t => exact iff_of_true ⟨h.sem, h.mutex⟩ fun e => absurd e (by simp)
  | semGive i =>
    refine iff_of_true ?_ fun e => absurd e (by simp)
    rw [Atomic.run]
    split
    · exact h
    · exact h.give i
  | semGiveFromIsr i =>
    refine iff_of_true ?_ fun e => absurd e (by simp)
    rw [Atomic.run, Sem.giveFromIsr_fst]
    split
    · exact h
    · exact h.give i
  | semTake i timeout =>
    refine iff_of_true ?_ fun e => absurd e (by simp)
    obtain ⟨c, hc, -⟩ := exists_current ha
    simp only [Atomic.run, hc]
    exact h.semTake i timeout
  | mutexLock m timeout =>
    refine iff_of_true ?_ fun e => absurd e (by simp)
    obtain ⟨c, hc, -⟩ := exists_current ha
    simp only [Atomic.run, hc]
    exact h.mutexLock m timeout
  | mutexUnlock m =>
    refine iff_of_true ?_ fun e => absurd e (by simp)
    obtain ⟨c, hc, -⟩ := exists_current ha
    simp only [Atomic.run, hc, Atomic.runTask]
    split
    · exact h
    · exact h.mutexUnlock m
  | resume =>
    refine iff_of_true ?_ fun e => absurd e (by simp)
    simp only [Atomic.run]
    cases hc : s.kernel.currentTcb with
    | none => exact h
    | some c => exact h.resume
  | enqueue =>
    cases hc : s.kernel.currentTcb with
    | none => simp [Atomic.Allowed, System.currentPc, hc] at ha
    | some c =>
      simp only [Atomic.run, hc, Atomic.runTask, System.EnqueueJustified, currentPc_eq hc,
        forall_const]
      by_cases hrun : s.kernel.isRunning = true
      · cases hpc : s.pc c with
        | semEnqueue i timeout => simpa [hrun] using h.enqueueOn_sem hrun i timeout _
        | mutexEnqueue m timeout => simpa [hrun] using h.enqueueOn_mutex hrun m timeout _
        | _ => exact iff_of_true h fun _ => trivial
      · refine iff_of_true ?_ fun e => absurd e hrun
        cases s.pc c with
        | semEnqueue i timeout =>
          simp only [Atomic.enqueueOn, hrun]
          exact h.setPc _
        | mutexEnqueue m timeout =>
          simp only [Atomic.enqueueOn, hrun]
          exact h.setPc _
        | _ => exact h

/-- **When no wake-up is lost.**  In every interleaving of critical sections, from any initial
counts of the semaphores: no state has a semaphore with a token and a waiter, or a mutex with a
waiter and no owner, exactly if every task that is queued still finds its object taken. -/
theorem no_lost_wake_up_iff (mem : Kernel) (config : Option Config) (idleStack : ℕ)
    (sems : ℕ → Semaphore) (steps : List Atomic) (s : System) :
    Trace.AllStates Atomic.Step NoLostWakeUp
        (System.init (initWithConfig mem config idleStack).1 sems) steps s ↔
      Trace.AllSteps Atomic.Step (fun s a _ => s.EnqueueJustified a)
        (System.init (initWithConfig mem config idleStack).1 sems) steps s := by
  refine Trace.allStates_iff (I := NoLostWakeUp) (fun _ h => h)
    (fun s a s' h hs hC => (h.step_iff hs).2 hC) (fun s a s' h hs h' => (h.step_iff hs).1 h') ?_
  have hnil : ∀ V, ((initWithConfig mem config idleStack).1.waitLists V).nodes = [] := fun V => by
    rw [initWithConfig_waitLists]; rfl
  exact ⟨fun i _ => hnil _, fun m _ => hnil _⟩

/-- Two tasks of priorities 1 and 2, and a semaphore without a token. -/
def twoTasks : System :=
  [.kernel (.critical (.create (.ofPriority 1) 1)), .kernel (.critical (.create (.ofPriority 2) 2)),
    .kernel (.start .ok)].foldl Atomic.run
    (System.init (initWithConfig bss none 0).1 fun _ => ⟨0, 1, semMagicWord⟩)

/-- Task 2 tests the semaphore, an interrupt gives a token, and task 2 is queued. -/
def giveInTheGap : List Atomic := [.semTake 0 waitForever, .semGiveFromIsr 0, .enqueue]

/-- Task 2 holds the mutex and sleeps; task 1 tests the mutex; the tick wakes task 2, which releases
the mutex and sleeps again; task 1 is queued. -/
def unlockInTheGap : List Atomic :=
  [.mutexLock 0 waitForever, .kernel (.critical (.delay 1)), .kernel .switchContext,
    .mutexLock 0 waitForever, .kernel (.critical .tick), .kernel .switchContext, .mutexUnlock 0,
    .kernel (.critical (.delay 5)), .kernel .switchContext, .enqueue]

/-- **Two lost wake-ups.**  A task waits for a semaphore that has a token, and one for a mutex that
has no owner. -/
theorem wake_up_lost_in_gap :
    (∃ s, Trace Atomic.Step twoTasks giveInTheGap s ∧ (s.sems 0).count = 1 ∧
      (s.kernel.waitLists (.sem 0)).nodes = [2] ∧ ¬ s.NoLostWakeUp) ∧
    (∃ s, Trace Atomic.Step twoTasks unlockInTheGap s ∧ (s.mutexes 0).owner = none ∧
      (s.kernel.waitLists (.mutex 0)).nodes = [1] ∧ ¬ s.NoLostWakeUp) := by
  constructor
  · have hcount : ((giveInTheGap.foldl Atomic.run twoTasks).sems 0).count = 1 := by decide +kernel
    have hW : ((giveInTheGap.foldl Atomic.run twoTasks).kernel.waitLists (.sem 0)).nodes = [2] := by
      decide +kernel
    refine ⟨_, Trace.of_guards (by decide +kernel), hcount, hW, fun h => ?_⟩
    have := h.sem 0 (by omega)
    rw [hW] at this
    exact absurd this (by simp)
  · have howner : ((unlockInTheGap.foldl Atomic.run twoTasks).mutexes 0).owner = none := by
      decide +kernel
    have hW : ((unlockInTheGap.foldl Atomic.run twoTasks).kernel.waitLists (.mutex 0)).nodes
        = [1] := by decide +kernel
    refine ⟨_, Trace.of_guards (by decide +kernel), howner, hW, fun h => ?_⟩
    have := h.mutex 0 howner
    rw [hW] at this
    exact absurd this (by simp)

end System

end Sertos
