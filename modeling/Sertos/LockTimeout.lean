import Sertos.MutexCalls

/-!
# The status of a lock with a timeout

A call of `sertos_mutex_lock` with a finite timeout should tell its caller who has the mutex: on
`OK` the caller owns it, on any other status it does not.  Three functions take part.  A release
hands the mutex to the first waiter, the tick expires a wait, and the waiter reads its status from
its own control block when it runs again.  The first two leave the same control block behind, so
the waiter reads `ERROR_TIMEOUT` also when it has been given the mutex, and then nobody will ever
release it.

`lock_status_iff` says that this is the only way: the statuses agree with the ownership as long as
no release finds a first waiter with a finite timeout, and with the first release that does, they
no longer do.
-/

set_option autoImplicit false

namespace Sertos

open Intrusive Lts Scheduler

/-- Neither `SERTOS_NO_WAIT` nor `SERTOS_WAIT_FOREVER`. -/
def FiniteTimeout (timeout : ℕ) : Prop := 0 < timeout ∧ timeout < waitForever

instance (timeout : ℕ) : Decidable (FiniteTimeout timeout) :=
  inferInstanceAs (Decidable (0 < timeout ∧ timeout < waitForever))

namespace System

/-- The status a lock of `m` returned to `c` agrees with the ownership. -/
structure Truthful (s : System) (m : ℕ) (c : TaskId) (status : Status) : Prop where
  ok : status = .ok → (s.mutexes m).owner = some c ∧ (s.mutexes m).lockCount = 1
  error : status ≠ .ok → (s.mutexes m).owner ≠ some c

/-- If a lock with a finite timeout, by a task that did not own the mutex, returns in this step, its
status agrees with the ownership. -/
structure ReturnsTruth (s : System) (a : Api) (s' : System) : Prop where
  /-- The call returns without waiting. -/
  atOnce : ∀ m timeout c status, a = .lock m timeout → FiniteTimeout timeout →
    s.kernel.currentTcb = some c → (s.mutexes m).owner ≠ some c →
    (Mutex.lock s m timeout).2 = some status → s'.Truthful m c status
  /-- The call returns after its wait. -/
  afterWait : ∀ m timeout c, a = .resume → FiniteTimeout timeout →
    s.kernel.currentTcb = some c → s.pc c = .mutexWait m timeout →
    s'.Truthful m c (Mutex.lockResume s m c timeout).2

/-- Every task that waits with a finite timeout would be told the truth if its call returned now. -/
def PendingTruth (s : System) : Prop :=
  ∀ t m timeout, s.pc t = .mutexWait m timeout → FiniteTimeout timeout →
    (Mutex.lockResume s m t timeout).1.Truthful m t (Mutex.lockResume s m t timeout).2

/-- If this step releases a mutex, its first waiter has no finite timeout. -/
def HandOverUntimed (s : System) (a : Api) : Prop :=
  ∀ m c w timeout, a = .unlock m → s.kernel.currentTcb = some c → (s.mutexes m).owner = some c →
    (s.mutexes m).lockCount = 1 → (s.waiters m).head? = some w → s.pc w = .mutexWait m timeout →
    ¬ FiniteTimeout timeout

/-- No task that waits with a finite timeout owns the mutex it waits for. -/
structure Untimed (s : System) : Prop where
  magic : ∀ m, (s.mutexes m).magic = mutexMagicWord
  pending : ∀ t m timeout, s.pc t = .mutexWait m timeout → FiniteTimeout timeout →
    (s.mutexes m).owner ≠ some t

variable {s s' : System} {m timeout : ℕ} {c t : TaskId}

theorem Untimed.withKernel (h : s.Untimed) (k : Kernel) :
    ({ s with kernel := k } : System).Untimed :=
  ⟨h.magic, h.pending⟩

/-- The mutex gets an owner that is in no call, or none. -/
theorem Untimed.setMutex (h : s.Untimed) {x : Mutex} (hmagic : x.magic = mutexMagicWord)
    (hx : ∀ t n, x.owner = some t → s.pc t = .mutexWait m n → ¬ FiniteTimeout n) :
    (s.setMutex m x).Untimed := by
  refine ⟨setMutex_magic h.magic hmagic, fun t n timeout hpc ht => ?_⟩
  by_cases hn : n = m
  · subst hn
    rw [setMutex_mutexes_same]
    exact fun ho => hx t timeout ho hpc ht
  · rw [setMutex_mutexes_of_ne _ _ _ hn]
    exact h.pending t n timeout hpc ht

theorem Untimed.setPc (h : s.Untimed) {p : Pc}
    (hp : ∀ m n, p = .mutexWait m n → (s.mutexes m).owner ≠ some c) : (s.setPc c p).Untimed := by
  refine ⟨h.magic, fun t m timeout hpc ht => ?_⟩
  by_cases htc : t = c
  · subst htc
    rw [setPc_pc_same] at hpc
    exact hp m timeout hpc
  · rw [setPc_pc_of_ne _ _ _ htc] at hpc
    exact h.pending t m timeout hpc ht

/-! ## One step -/

theorem Untimed.lock (h : s.Untimed) (hcall : s.InNoCall) : (Mutex.lock s m timeout).1.Untimed := by
  have he := Mutex.lock_effect s m timeout
  generalize Mutex.lock s m timeout = r at he ⊢
  cases he with
  | invalid => exact h
  | noTask => exact h
  | acquire hc ho =>
    refine h.setMutex (h.magic m) fun t n ht hpc => ?_
    obtain rfl : _ = t := Option.some_inj.1 ht
    rw [hcall.idle hc] at hpc
    exact absurd hpc (by simp)
  | again hc ho =>
    refine h.setMutex (h.magic m) fun t n ht hpc => ?_
    obtain rfl := Option.some_inj.1 (ho.symm.trans ht)
    rw [hcall.idle hc] at hpc
    exact absurd hpc (by simp)
  | fail => exact h.withKernel _
  | @wait c o hc ho hoc =>
    refine Untimed.setPc (h.withKernel _) fun n _ e => ?_
    obtain rfl := (Pc.mutexWait.inj e).1
    show (s.mutexes m).owner ≠ some c
    rw [ho]
    exact fun e => hoc (Option.some_inj.1 e)

theorem Untimed.resume (h : s.Untimed) : (Mutex.lockResume s m c timeout).1.Untimed := by
  rw [Mutex.lockResume, Mutex.lockReturn]
  -- first the program counter, so that the new owner is in no call
  have hpc := h.setPc (c := c) (p := .idle) fun _ _ e => absurd e (by simp)
  split
  · refine hpc.setMutex (m := m) (h.magic m) fun t n ht hwait => ?_
    obtain rfl : c = t := Option.some_inj.1 ht
    rw [setPc_pc_same] at hwait
    exact absurd hwait (by simp)
  · exact hpc

theorem Untimed.unlock (h : s.Untimed) (hcond : s.HandOverUntimed (.unlock m)) :
    (Mutex.unlock s m).1.Untimed := by
  have he := Mutex.unlock_effect s m
  generalize Mutex.unlock s m = r at he ⊢
  cases he with
  | invalid => exact h
  | @nested c hc ho =>
    exact h.setMutex (h.magic m) fun t n ht hpc hn => h.pending t m n hpc hn ht
  | release =>
    refine Untimed.setMutex (h.withKernel _) ?_ fun t n ht => ?_
    · exact h.magic m
    · exact absurd ht (by simp)
  | @handOver c w rest hc ho hcount hW =>
    refine Untimed.setMutex (h.withKernel _) ?_ fun t n ht hpc => ?_
    · exact h.magic m
    · obtain rfl : w = t := Option.some_inj.1 ht
      exact hcond m c w n rfl hc ho hcount (by rw [hW]; rfl) hpc

theorem Untimed.step (h : s.Untimed) {a : Api} (hs : Api.Step s a s')
    (hcond : s.HandOverUntimed a) : s'.Untimed := by
  obtain ⟨ha, rfl⟩ := hs
  cases a with
  | sched a => exact h.withKernel _
  | dispatch t => exact h.withKernel _
  | lock m timeout => exact h.lock ha
  | resume =>
    obtain ⟨c, m, timeout, -, -, e⟩ := Api.returned_cases ha
    rw [e]
    exact h.resume
  | unlock m => exact h.unlock hcond

/-! ## What the waiters are told -/

/-- An `OK` is always right: the call itself makes its caller the owner. -/
theorem lockResume_truthful (h : (Mutex.lockResume s m c timeout).2 ≠ .ok →
    (s.mutexes m).owner ≠ some c) :
    (Mutex.lockResume s m c timeout).1.Truthful m c (Mutex.lockResume s m c timeout).2 := by
  constructor
  · intro hok
    have hstatus : waitListBlockStatus s.kernel c timeout = .ok := hok
    simp [Mutex.lockResume, Mutex.lockReturn, hstatus]
  · intro hne
    have hstatus : waitListBlockStatus s.kernel c timeout ≠ .ok := hne
    have howner := h hne
    simp only [Mutex.lockResume, Mutex.lockReturn, if_neg hstatus, setPc_mutexes]
    exact howner

theorem Untimed.pendingTruth (h : s.Untimed) : s.PendingTruth :=
  fun t m timeout hpc ht => lockResume_truthful fun _ => h.pending t m timeout hpc ht

theorem Untimed.returnsTruth (h : s.Untimed) {a : Api} (hs : Api.Step s a s') :
    s.ReturnsTruth a s' := by
  obtain ⟨-, rfl⟩ := hs
  constructor
  · rintro m timeout c status rfl - hc hown hstatus
    rw [Api.run]
    have he := Mutex.lock_effect s m timeout
    generalize Mutex.lock s m timeout = r at he hstatus ⊢
    cases he with
    | invalid hmagic => exact absurd (h.magic m) hmagic
    | noTask hnone => exact absurd (hnone.symm.trans hc) (by simp)
    | acquire hc' ho =>
      obtain rfl := Option.some_inj.1 (hc.symm.trans hc')
      obtain rfl := Option.some_inj.1 hstatus
      exact ⟨fun _ => by simp, fun hne => absurd rfl hne⟩
    | again hc' ho =>
      obtain rfl := Option.some_inj.1 (hc.symm.trans hc')
      exact absurd ho hown
    | fail hc' ho hoc hs =>
      obtain rfl := Option.some_inj.1 hstatus
      exact ⟨fun hok => absurd hok hs, fun _ => hown⟩
    | wait => exact absurd hstatus (by simp)
  · rintro m timeout c rfl ht hc hpc
    simp only [Api.run, Api.returned_eq hc hpc]
    exact lockResume_truthful fun _ => h.pending c m timeout hpc ht

/-- **A waiter that is given the mutex reads a timeout.** -/
theorem Untimed.handOverUntimed (h : s.Untimed) {a : Api} (hs : Api.Step s a s')
    (h' : s'.PendingTruth) : s.HandOverUntimed a := by
  obtain ⟨-, rfl⟩ := hs
  rintro m c w timeout rfl hc ho hcount hhead hpc ht
  obtain ⟨rest, hW⟩ := List.head?_eq_some_iff.1 hhead
  rw [Api.run] at h'
  have he := Mutex.unlock_effect s m
  generalize Mutex.unlock s m = r at he h'
  cases he with
  | invalid hinv => exact hinv.elim (fun hmagic => hmagic (h.magic m)) fun hne => hne c hc ho
  | nested _ _ hne => exact hne hcount
  | release _ _ _ hnil => exact absurd (hnil.symm.trans hW) (by simp)
  | @handOver c' w' rest' hc' _ _ hW' =>
    obtain ⟨rfl, rfl⟩ := List.cons.inj (hW.symm.trans hW')
    -- the release has cleared the two fields the waiter looks at
    have hclear : ((reschedule (Mutex.handedKernel s m c')).tcb w).delayTicks = 0 ∧
        ((reschedule (Mutex.handedKernel s m c')).tcb w).waitList = none := by
      rw [reschedule_tcb, Mutex.handedKernel_tcb_same hW]
      exact ⟨rfl, rfl⟩
    have hne : timeout ≠ waitForever := Nat.ne_of_lt ht.2
    have hstatus : waitListBlockStatus (reschedule (Mutex.handedKernel s m c')) w timeout
        = .errorTimeout := by
      simp [waitListBlockStatus, hne, hclear]
    have herror := (h' w m timeout hpc ht).error
    simp [Mutex.lockResume, Mutex.lockReturn, hstatus] at herror

/-- **When the status of a lock agrees with the ownership.**  In every run of calls: if no release
finds a first waiter with a finite timeout, every lock with a finite timeout by a task that does not
own the mutex returns a status that agrees with the ownership.  And in every state on the way all
waiters with finite timeouts would be told the truth exactly if no release found one of them
first. -/
theorem lock_status_iff (k : Kernel) (sems : ℕ → Semaphore) (steps : List Api) (s : System) :
    (Trace.AllSteps Api.Step (fun s a _ => s.HandOverUntimed a) (System.init k sems) steps s →
      Trace.AllSteps Api.Step ReturnsTruth (System.init k sems) steps s) ∧
    (Trace.AllStates Api.Step PendingTruth (System.init k sems) steps s ↔
      Trace.AllSteps Api.Step (fun s a _ => s.HandOverUntimed a) (System.init k sems) steps s) := by
  have hinit : (System.init k sems).Untimed :=
    ⟨fun _ => rfl, fun _ _ _ hpc => absurd hpc (by simp [System.init])⟩
  constructor
  · exact fun h => h.imp (fun s a s' hI hs hC => ⟨hI.step hs hC, hI.returnsTruth hs⟩) hinit
  · exact Trace.allStates_iff (fun s hI => hI.pendingTruth) (fun s a s' hI hs hC => hI.step hs hC)
      (fun s a s' hI hs h' => hI.handOverUntimed hs h') hinit

/-- Tasks 1 and 2, of priorities 1 and 2, with task 2 running. -/
def twoTaskCalls : List Api :=
  [.sched (.create (.ofPriority 1) 1), .sched (.create (.ofPriority 2) 2), .sched (.start .ok)]

/-- Task 2 locks the mutex and sleeps for a tick.  Task 1 locks it with a timeout of ten ticks; the
tick wakes task 2, which releases the mutex and sleeps again, and task 1 runs. -/
def timedHandOver : List Api :=
  [.lock 0 waitForever, .sched (.delay 1), .lock 0 10, .sched .tick, .unlock 0, .sched (.delay 5)]

/-- The state in which task 1 comes back from its wait. -/
def handedOver : System :=
  (twoTaskCalls ++ timedHandOver).foldl Api.run freshSystem

/-- **Told that it failed, and the owner.**  Task 1 is given the mutex in the first of its ten
ticks, and its call returns `ERROR_TIMEOUT`. -/
theorem owner_told_timeout :
    Trace Api.Step freshSystem (twoTaskCalls ++ timedHandOver) handedOver ∧
    handedOver.kernel.currentTcb = some 1 ∧ handedOver.pc 1 = .mutexWait 0 10 ∧
    (Mutex.lockResume handedOver 0 1 10).2 = .errorTimeout ∧
    ((Mutex.lockResume handedOver 0 1 10).1.mutexes 0).owner = some 1 ∧
    ∃ s', Api.Step handedOver .resume s' ∧ ¬ handedOver.ReturnsTruth .resume s' := by
  have hcur : handedOver.kernel.currentTcb = some 1 := by decide +kernel
  have hpc : handedOver.pc 1 = .mutexWait 0 10 := by decide +kernel
  have hstatus : (Mutex.lockResume handedOver 0 1 10).2 = .errorTimeout := by decide +kernel
  have howner : ((Mutex.lockResume handedOver 0 1 10).1.mutexes 0).owner = some 1 := by
    decide +kernel
  refine ⟨Trace.of_guards (by decide +kernel), hcur, hpc, hstatus, howner, _,
    ⟨by decide +kernel, rfl⟩, fun h => ?_⟩
  have htruth := h.afterWait 0 10 1 rfl (by decide) hcur hpc
  simp only [Api.run, Api.returned_eq hcur hpc] at htruth
  exact htruth.error (by rw [hstatus]; simp) howner

end System

end Sertos
