import Sertos.Interleaving
import Sertos.Lib.HandOver

/-!
# Mutual exclusion

All interleavings of `sertos_mutex_lock` and `sertos_mutex_unlock` on one mutex, one critical
section a step, with any scheduling: this implements the recursive lock with hand-over of
`Lib.HandOver` (`Exclusive.step`).

The state in between that neither function names is the one after a release with a waiter.  The
mutex has a new owner, whose call of `sertos_mutex_lock` has not returned: it is off the wait list
and still in its wait.  `holder` reads this off as `Holder.handed`, and `Exclusive.handed` says what
the mutex looks like then, so that the writes the waiter makes when it runs again, outside any
critical section, put back the values that are there already.
-/

set_option autoImplicit false

namespace Sertos

open Intrusive Lts Scheduler HandOver

namespace Atomic

/-! ## What the calls return -/

/-- The status that `sertos_mutex_lock` returns to the current task `c` in this step, if it does. -/
def lockStatus (s : System) (c : TaskId) : Atomic → Option Status
  | .mutexLock m timeout =>
    if (s.mutexes m).magic ≠ mutexMagicWord then some .errorInvalidParam
    else (Mutex.lockSection s m c timeout).2
  | .enqueue => match s.pc c with
    | .mutexEnqueue _ _ => if s.kernel.isRunning then none else some .errorNotInitialized
    | _ => none
  | .resume => match s.pc c with
    | .mutexWait m timeout => some (Mutex.lockResume s m c timeout).2
    | _ => none
  | _ => none

/-- The status that `sertos_mutex_unlock` returns in this step, if it does. -/
def unlockStatus (s : System) : Atomic → Option Status
  | .mutexUnlock m => some (Mutex.unlock s m).2
  | _ => none

/-- Which call of the current task returns `SERTOS_STATUS_OK` in this step. -/
def event (s : System) (a : Atomic) : Event TaskId :=
  match s.kernel.currentTcb with
  | none => .other
  | some c =>
    if lockStatus s c a = some .ok then .locked c
    else if unlockStatus s a = some .ok then .unlocked c
    else .other

/-- The steps of the two calls on the mutex `m`, without a finite timeout, and of the scheduler.  A
task in its wait goes on only when it has been taken off the wait list, and the count of nested
locks does not wrap. -/
def OnMutex (m : ℕ) (s : System) (a : Atomic) : Prop :=
  a.Allowed s ∧ match a with
    | .dispatch _ | .kernel .switchContext | .kernel .performSwitch | .enqueue => True
    | .mutexLock n timeout => n = m ∧ (timeout = noWait ∨ timeout = waitForever) ∧
      ((s.mutexes m).owner = s.kernel.currentTcb → (s.mutexes m).lockCount + 1 < 2 ^ 32)
    | .mutexUnlock n => n = m
    | .resume => ∀ c ∈ s.kernel.currentTcb, c ∉ s.waiters m
    | _ => False

instance (m : ℕ) (s : System) : DecidablePred (OnMutex m s) := fun a => by
  rcases a with (_ | _ | _ | _) | _ | _ | _ | _ | _ | _ | _ | _ <;> unfold OnMutex <;> infer_instance

/-- One step of an interleaving of calls on the mutex `m`. -/
abbrev LockStep (m : ℕ) : System → Atomic → System → Prop := Guarded (OnMutex m) Atomic.run

end Atomic

namespace System

/-! ## The invariant -/

/-- Who has the mutex. -/
def holder (m : ℕ) (s : System) : Holder TaskId :=
  match (s.mutexes m).owner with
  | none => .free
  | some t => if s.pc t = .idle then .held t ((s.mutexes m).lockCount - 1) else .handed t

/-- The state between two critical sections. -/
structure Exclusive (m : ℕ) (s : System) : Prop where
  magic : (s.mutexes m).magic = mutexMagicWord
  nodup : (s.waiters m).Nodup
  linked : ∀ t ∈ s.waiters m, (s.kernel.tcb t).eventLinked = true
  waiting : ∀ t ∈ s.waiters m, s.pc t = .mutexWait m waitForever
  calls : ∀ t, s.pc t = .idle ∨ s.pc t = .mutexEnqueue m waitForever ∨
    s.pc t = .mutexWait m waitForever
  /-- A task that has been taken off the wait list and has not yet run has been given the mutex. -/
  handed : ∀ t, s.pc t = .mutexWait m waitForever → t ∉ s.waiters m →
    s.mutexes m = ⟨some t, 1, (s.kernel.tcb t).basePriority, mutexMagicWord⟩
  owner : ∀ t, (s.mutexes m).owner = some t →
    0 < (s.mutexes m).lockCount ∧ t ∉ s.waiters m ∧ s.pc t ≠ .mutexEnqueue m waitForever

variable {m : ℕ} {s s' : System} {c t : TaskId}

/-- Steps that write none of the data the invariant is about. -/
theorem Exclusive.congr (h : Exclusive m s) (hm : s'.mutexes m = s.mutexes m)
    (hw : s'.waiters m = s.waiters m) (hpc : s'.pc = s.pc)
    (htcb : ∀ t, (s'.kernel.tcb t).eventLinked = (s.kernel.tcb t).eventLinked ∧
      (s'.kernel.tcb t).basePriority = (s.kernel.tcb t).basePriority) : Exclusive m s' := by
  refine ⟨?_, ?_, ?_, ?_, ?_, ?_, ?_⟩ <;> simp only [hm, hw, hpc]
  · exact h.magic
  · exact h.nodup
  · exact fun t ht => (htcb t).1.trans (h.linked t ht)
  · exact h.waiting
  · exact h.calls
  · exact fun t hpc ht => (htcb t).2 ▸ h.handed t hpc ht
  · exact h.owner

theorem holder_of_idle (ho : (s.mutexes m).owner = some t) (hpc : s.pc t = .idle) :
    holder m s = .held t ((s.mutexes m).lockCount - 1) := by
  simp only [holder, ho, hpc, if_true]

theorem holder_of_not_idle (ho : (s.mutexes m).owner = some t) (hpc : s.pc t ≠ .idle) :
    holder m s = .handed t := by
  simp only [holder, ho, hpc, if_false]

theorem holder_of_free (ho : (s.mutexes m).owner = none) : holder m s = .free := by
  simp only [holder, ho]

/-! ## Writing the mutex and the program counters -/

@[simp] theorem waiters_setMutex (x : Mutex) : (s.setMutex m x).waiters m = s.waiters m := rfl

@[simp] theorem waiters_setPc (p : Pc) : (s.setPc c p).waiters m = s.waiters m := rfl

/-- Nothing is being handed over while the mutex is free or its owner is in no call. -/
theorem Exclusive.not_handed (h : Exclusive m s) (hpc : s.pc c = .idle)
    (ho : (s.mutexes m).owner = none ∨ (s.mutexes m).owner = some c)
    (ht : s.pc t = .mutexWait m waitForever) : t ∈ s.waiters m := by
  by_contra hW
  have howner : (s.mutexes m).owner = some t := by rw [h.handed t ht hW]
  rcases ho with ho | ho
  · rw [ho] at howner
    exact absurd howner (by simp)
  · obtain rfl := Option.some_inj.1 (ho.symm.trans howner)
    rw [hpc] at ht
    exact absurd ht (by simp)

theorem Exclusive.not_waiting (h : Exclusive m s) (hpc : s.pc c ≠ .mutexWait m waitForever) :
    c ∉ s.waiters m :=
  fun hW => hpc (h.waiting c hW)

/-- The current task takes the mutex, locks it again, or unlocks it once. -/
theorem Exclusive.hold (h : Exclusive m s) (hpc : s.pc c = .idle)
    (ho : (s.mutexes m).owner = none ∨ (s.mutexes m).owner = some c) {x : Mutex}
    (hx : x.owner = some c) (hcount : 0 < x.lockCount) (hmagic : x.magic = mutexMagicWord) :
    Exclusive m (s.setMutex m x) where
  magic := by rw [setMutex_mutexes_same, hmagic]
  nodup := h.nodup
  linked := h.linked
  waiting := h.waiting
  calls := h.calls
  handed := fun t ht hW => absurd (h.not_handed hpc ho ht) hW
  owner := by
    intro t ht
    rw [setMutex_mutexes_same] at ht ⊢
    obtain rfl := Option.some_inj.1 (hx.symm.trans ht)
    refine ⟨hcount, h.not_waiting (by simp [hpc]), ?_⟩
    rw [setMutex_pc, hpc]
    simp

/-- The owner leaves the mutex free. -/
theorem Exclusive.setFree (h : Exclusive m s) (hpc : s.pc c = .idle)
    (ho : (s.mutexes m).owner = some c) {x : Mutex} (hx : x.owner = none)
    (hmagic : x.magic = mutexMagicWord) : Exclusive m (s.setMutex m x) where
  magic := by rw [setMutex_mutexes_same, hmagic]
  nodup := h.nodup
  linked := h.linked
  waiting := h.waiting
  calls := h.calls
  handed := fun t ht hW => absurd (h.not_handed hpc (Or.inr ho) ht) hW
  owner := by
    intro t ht
    rw [setMutex_mutexes_same, hx] at ht
    exact absurd ht (by simp)

/-- A task that is not queued goes into its call, or comes out of it. -/
theorem Exclusive.setPc (h : Exclusive m s) (hW : c ∉ s.waiters m) {p : Pc}
    (hp : p = .idle ∨ p = .mutexEnqueue m waitForever ∧ (s.mutexes m).owner ≠ some c) :
    Exclusive m (s.setPc c p) where
  magic := h.magic
  nodup := h.nodup
  linked := h.linked
  waiting := by
    intro t ht
    rw [setPc_pc_of_ne _ _ _ (fun e : t = c => hW (e ▸ ht))]
    exact h.waiting t ht
  calls := by
    intro t
    by_cases htc : t = c
    · subst htc
      rw [setPc_pc_same]
      exact hp.imp_right fun hp => Or.inl hp.1
    · rw [setPc_pc_of_ne _ _ _ htc]
      exact h.calls t
  handed := by
    intro t ht htW
    by_cases htc : t = c
    · subst htc
      rw [setPc_pc_same] at ht
      rcases hp with rfl | ⟨rfl, -⟩ <;> exact absurd ht (by simp)
    · rw [setPc_pc_of_ne _ _ _ htc] at ht
      exact h.handed t ht htW
  owner := by
    intro t ht
    obtain ⟨hpos, htW, hte⟩ := h.owner t ht
    refine ⟨hpos, htW, ?_⟩
    by_cases htc : t = c
    · subst htc
      rw [setPc_pc_same]
      rcases hp with rfl | ⟨-, ho⟩
      · simp
      · exact absurd ht ho
    · rw [setPc_pc_of_ne _ _ _ htc]
      exact hte

section Step

variable {h₀ : Holder TaskId} {e : Event TaskId}

theorem step_held {x : Mutex} (hx : x.owner = some t) (hpc : s.pc t = .idle)
    (hstep : Holder.Step h₀ e (.held t (x.lockCount - 1))) :
    Holder.Step h₀ e (holder m (s.setMutex m x)) := by
  simpa only [holder, setMutex_mutexes_same, hx, setMutex_pc, hpc, if_true] using hstep

theorem step_handed {x : Mutex} (hx : x.owner = some t) (hpc : s.pc t ≠ .idle)
    (hstep : Holder.Step h₀ e (.handed t)) : Holder.Step h₀ e (holder m (s.setMutex m x)) := by
  simpa only [holder, setMutex_mutexes_same, hx, setMutex_pc, hpc, if_false] using hstep

theorem step_free {x : Mutex} (hx : x.owner = none) (hstep : Holder.Step h₀ e .free) :
    Holder.Step h₀ e (holder m (s.setMutex m x)) := by
  simpa only [holder, setMutex_mutexes_same, hx] using hstep

/-- The program counter of a task that does not own the mutex does not matter. -/
theorem step_setPc (ho : (s.mutexes m).owner ≠ some c) {p : Pc}
    (hstep : Holder.Step h₀ e (holder m s)) : Holder.Step h₀ e (holder m (s.setPc c p)) := by
  cases howner : (s.mutexes m).owner with
  | none => simpa only [holder, setPc_mutexes, howner] using hstep
  | some t =>
    have htc : t ≠ c := fun e => ho (by rw [howner, e])
    simpa only [holder, setPc_mutexes, howner, setPc_pc_of_ne s c p htc] using hstep

end Step

/-! ## The calls -/

/-- What a call of the current task shows. -/
theorem event_eq (hc : s.kernel.currentTcb = some c) (a : Atomic) :
    a.event s = if a.lockStatus s c = some .ok then .locked c
      else if a.unlockStatus s = some .ok then .unlocked c else .other := by
  simp only [Atomic.event, hc]

/-- Raising the priority of the owner changes nothing here. -/
theorem Exclusive.boost (h : Exclusive m s) (o c : TaskId) :
    Exclusive m { s with kernel := Mutex.applyPriorityInheritance s.kernel o c } := by
  refine h.congr rfl ?_ rfl fun t => ?_
  · simp only [waiters, Mutex.applyPriorityInheritance_waitLists]
  · rw [Mutex.applyPriorityInheritance_tcb]
    exact ⟨rfl, rfl⟩

theorem Exclusive.restore (h : Exclusive m s) (x : Mutex) (c : TaskId) :
    Exclusive m { s with kernel := Mutex.restoreOwnerPriority s.kernel x c } := by
  refine h.congr rfl ?_ rfl fun t => ?_
  · simp only [waiters, Mutex.restoreOwnerPriority_waitLists]
  · rw [Mutex.restoreOwnerPriority_tcb]
    exact ⟨rfl, rfl⟩

theorem Exclusive.mutexLock (h : Exclusive m s) (hc : s.kernel.currentTcb = some c)
    (hpc : s.pc c = .idle) {timeout : ℕ} (ht : timeout = noWait ∨ timeout = waitForever)
    (hn : (s.mutexes m).owner = s.kernel.currentTcb → (s.mutexes m).lockCount + 1 < 2 ^ 32) :
    Exclusive m (Atomic.runTask s c (.mutexLock m timeout)) ∧
      Holder.Step (holder m s) (Atomic.event s (.mutexLock m timeout))
        (holder m (Atomic.runTask s c (.mutexLock m timeout))) := by
  have hmagic : ¬ (s.mutexes m).magic ≠ mutexMagicWord := not_not.2 h.magic
  have hevent := event_eq hc (.mutexLock m timeout)
  rw [Atomic.lockStatus, if_neg hmagic] at hevent
  cases ho : (s.mutexes m).owner with
  | none =>
    have hsection := Mutex.lockSection_of_free (c := c) ho timeout
    rw [hsection, if_pos rfl] at hevent
    rw [Atomic.runTask, if_neg hmagic, hsection, hevent, holder_of_free ho]
    refine ⟨h.hold hpc (Or.inl ho) rfl Nat.one_pos h.magic, ?_⟩
    exact step_held rfl hpc (.acquire c)
  | some o =>
    by_cases hoc : o = c
    · subst hoc
      have hsection := Mutex.lockSection_of_owner ho timeout
      rw [Nat.mod_eq_of_lt (hn (ho.trans hc.symm))] at hsection
      rw [hsection, if_pos rfl] at hevent
      rw [Atomic.runTask, if_neg hmagic, hsection, hevent, holder_of_idle ho hpc]
      refine ⟨h.hold hpc (Or.inr ho) ho (Nat.succ_pos _) h.magic, ?_⟩
      obtain ⟨hpos, -, -⟩ := h.owner o ho
      have hsub : (s.mutexes m).lockCount + 1 - 1 = (s.mutexes m).lockCount - 1 + 1 := by omega
      refine step_held ho hpc ?_
      simp only [hsub]
      exact .again o _
    · have howner : (s.mutexes m).owner ≠ some c := by
        rw [ho]
        exact fun e => hoc (Option.some_inj.1 e)
      have hsection := Mutex.lockSection_of_other ho hoc timeout
      have hother : Atomic.event s (.mutexLock m timeout) = .other := by
        rw [hevent, hsection]
        rcases ht with rfl | rfl <;> simp [Atomic.unlockStatus, noWait, waitForever]
      have hboost := h.boost o c
      rw [Atomic.runTask, if_neg hmagic, hsection, hother]
      rcases ht with rfl | rfl
      · exact ⟨hboost, .other _⟩
      · exact ⟨hboost.setPc (hboost.not_waiting (by simp [hpc])) (Or.inr ⟨rfl, howner⟩),
          step_setPc howner (.other _)⟩

/-- The first waiter is given the mutex. -/
theorem Exclusive.handOver (h : Exclusive m s) (hpc : s.pc c = .idle)
    (ho : (s.mutexes m).owner = some c) {w : TaskId} {rest : List TaskId}
    (hW : s.waiters m = w :: rest) {p : ℕ} (hp : p = (s.kernel.tcb w).basePriority) :
    Exclusive m (({ s with kernel := Mutex.handedKernel s m c } : System).setMutex m
      { s.mutexes m with owner := some w, lockCount := 1, originalOwnerPriority := p }) := by
  have hnodup := h.nodup
  rw [hW, List.nodup_cons] at hnodup
  have hmem : ∀ t, t ∈ s.waiters m ↔ t = w ∨ t ∈ rest := fun t => by rw [hW, List.mem_cons]
  have hw : w ∈ s.waiters m := (hmem w).2 (Or.inl rfl)
  have hwaiters : (({ s with kernel := Mutex.handedKernel s m c } : System).setMutex m
      { s.mutexes m with owner := some w, lockCount := 1, originalOwnerPriority := p }).waiters m
        = rest := Mutex.handedKernel_waiters hW (h.linked w hw)
  have hne : ∀ t ∈ rest, t ≠ w := fun t ht e => hnodup.1 (e ▸ ht)
  constructor
  · rw [setMutex_mutexes_same]
    exact h.magic
  · rw [hwaiters]
    exact hnodup.2
  · intro t ht
    rw [hwaiters] at ht
    rw [setMutex_kernel, Mutex.handedKernel_tcb_of_ne hW (hne t ht), Mutex.restoreOwnerPriority_tcb]
    exact h.linked t ((hmem t).2 (Or.inr ht))
  · intro t ht
    rw [hwaiters] at ht
    exact h.waiting t ((hmem t).2 (Or.inr ht))
  · exact h.calls
  · -- who is in the wait and off the list now was on it before, since nothing was handed over then
    intro t ht hrest
    rw [hwaiters] at hrest
    obtain rfl : t = w :=
      ((hmem t).1 (h.not_handed hpc (Or.inr ho) ht)).resolve_right hrest
    rw [setMutex_mutexes_same, setMutex_kernel, Mutex.handedKernel_basePriority hW]
    simp only [h.magic, hp]
  · intro t ht
    rw [setMutex_mutexes_same] at ht ⊢
    obtain rfl : w = t := Option.some_inj.1 ht
    rw [hwaiters, setMutex_pc, h.waiting w hw]
    exact ⟨Nat.one_pos, hnodup.1, by simp⟩

theorem Exclusive.mutexUnlock (h : Exclusive m s) (hc : s.kernel.currentTcb = some c)
    (hpc : s.pc c = .idle) :
    Exclusive m (Atomic.runTask s c (.mutexUnlock m)) ∧
      Holder.Step (holder m s) (Atomic.event s (.mutexUnlock m))
        (holder m (Atomic.runTask s c (.mutexUnlock m))) := by
  have hevent := event_eq hc (.mutexUnlock m)
  have hstatus := Mutex.unlock_eq_ok h.magic hc
  by_cases ho : (s.mutexes m).owner = some c
  · obtain ⟨hpos, -, -⟩ := h.owner c ho
    have hrun : Atomic.runTask s c (.mutexUnlock m) = (Mutex.unlockSection s m c).1 := by
      simp [Atomic.runTask, h.magic, ho]
    rw [show Atomic.event s (.mutexUnlock m) = .unlocked c by
      simp [hevent, Atomic.lockStatus, Atomic.unlockStatus, hstatus.2 ho], hrun,
      holder_of_idle ho hpc]
    obtain hone | ⟨n, hn⟩ : (s.mutexes m).lockCount = 1 ∨ ∃ n, (s.mutexes m).lockCount = n + 2 := by
      rcases hcount : (s.mutexes m).lockCount with _ | _ | n
      · omega
      · exact Or.inl rfl
      · exact Or.inr ⟨n, rfl⟩
    · rw [hone]
      cases hW : s.waiters m with
      | nil =>
        rw [Mutex.unlockSection_release hone hW]
        exact ⟨(h.restore _ c).setFree hpc ho rfl h.magic, step_free rfl (.release c)⟩
      | cons w rest =>
        rw [Mutex.unlockSection_handOver hone hW]
        refine ⟨h.handOver hpc ho hW (Mutex.handedKernel_basePriority hW w), ?_⟩
        refine step_handed rfl ?_ (.handOver c w)
        rw [h.waiting w (by simp [hW])]
        simp
    · have hdec : Mutex.decrement (s.mutexes m).lockCount = n + 1 := by rw [hn]; rfl
      rw [Mutex.unlockSection_of_ne_one (by omega), hdec, hn]
      exact ⟨h.hold hpc (Or.inr ho) ho (Nat.succ_pos n) h.magic, step_held ho hpc (.leave c n)⟩
  · have hrun : Atomic.runTask s c (.mutexUnlock m) = s := by
      simp [Atomic.runTask, ho]
    rw [show Atomic.event s (.mutexUnlock m) = .other by
      simp [hevent, Atomic.lockStatus, Atomic.unlockStatus, mt hstatus.1 ho], hrun]
    exact ⟨h, .other _⟩

/-- The caller is queued. -/
theorem Exclusive.enqueue (h : Exclusive m s) (hpc : s.pc c = .mutexEnqueue m waitForever) :
    Exclusive m (({ s with
      kernel := waitListBlockSection s.kernel c (.mutex m) waitForever } : System).setPc c
        (.mutexWait m waitForever)) := by
  have hW : c ∉ s.waiters m := h.not_waiting (by simp [hpc])
  have ho : (s.mutexes m).owner ≠ some c := fun e => (h.owner c e).2.2 hpc
  have hwl := waitListBlockSection_waitLists s.kernel c (.mutex m) waitForever
  have hmem : ∀ t, t ∈ (({ s with
      kernel := waitListBlockSection s.kernel c (.mutex m) waitForever } : System).setPc c
        (.mutexWait m waitForever)).waiters m ↔ t ∈ s.waiters m ∨ t = c := by
    intro t
    simp [waiters, hwl]
  have hne : ∀ t, t ∈ s.waiters m → t ≠ c := fun t ht e => hW (e ▸ ht)
  constructor
  · exact h.magic
  · simp only [waiters, setPc_kernel, hwl, Bundle.insertByKey_same]
    exact LinkedList.nodup_insertByKey h.nodup hW
  · intro t ht
    rcases (hmem t).1 ht with ht | rfl
    · rw [setPc_kernel, waitListBlockSection_tcb_of_ne _ _ _ _ (hne t ht)]
      exact h.linked t ht
    · rw [setPc_kernel, waitListBlockSection_tcb_same]
  · intro t ht
    rcases (hmem t).1 ht with ht | rfl
    · rw [setPc_pc_of_ne _ _ _ (hne t ht)]
      exact h.waiting t ht
    · rw [setPc_pc_same]
  · intro t
    by_cases htc : t = c
    · subst htc
      exact Or.inr (Or.inr (setPc_pc_same _ _ _))
    · rw [setPc_pc_of_ne _ _ _ htc]
      exact h.calls t
  · intro t ht htW
    obtain ⟨htW, htc⟩ := not_or.1 (mt (hmem t).2 htW)
    rw [setPc_pc_of_ne _ _ _ htc] at ht
    rw [setPc_mutexes, setPc_kernel, waitListBlockSection_tcb_of_ne _ _ _ _ htc]
    exact h.handed t ht htW
  · intro t ht
    have htc : t ≠ c := fun e => ho (e ▸ ht)
    obtain ⟨hpos, htW, hte⟩ := h.owner t ht
    rw [setPc_pc_of_ne _ _ _ htc]
    exact ⟨hpos, fun e => ((hmem t).1 e).elim htW htc, hte⟩

theorem Exclusive.runEnqueue (h : Exclusive m s) (hc : s.kernel.currentTcb = some c)
    (hpc : s.pc c = .mutexEnqueue m waitForever) :
    Exclusive m (Atomic.runTask s c .enqueue) ∧
      Holder.Step (holder m s) (Atomic.event s .enqueue)
        (holder m (Atomic.runTask s c .enqueue)) := by
  have ho : (s.mutexes m).owner ≠ some c := fun e => (h.owner c e).2.2 hpc
  have hW : c ∉ s.waiters m := h.not_waiting (by simp [hpc])
  have hevent : Atomic.event s .enqueue = .other := by
    rw [event_eq hc]
    simp only [Atomic.lockStatus, hpc, Atomic.unlockStatus]
    split_ifs <;> simp_all
  rw [hevent]
  simp only [Atomic.runTask, hpc, Atomic.enqueueOn]
  split
  · exact ⟨h.enqueue hpc, step_setPc ho (.other _)⟩
  · exact ⟨h.setPc hW (Or.inl rfl), step_setPc ho (.other _)⟩

/-- **The waiter comes back.**  What it writes is there already. -/
theorem Exclusive.runResume (h : Exclusive m s) (hc : s.kernel.currentTcb = some c)
    (hpc : s.pc c = .mutexWait m waitForever) (hW : c ∉ s.waiters m) :
    Exclusive m (Atomic.runTask s c .resume) ∧
      Holder.Step (holder m s) (Atomic.event s .resume)
        (holder m (Atomic.runTask s c .resume)) := by
  have hm := h.handed c hpc hW
  have ho : (s.mutexes m).owner = some c := by rw [hm]
  have hstatus := waitListBlockStatus_forever s.kernel c
  have hreturn : Mutex.lockReturn s m c .ok = s := by
    have hx : ({ s.mutexes m with
        owner := some c
        lockCount := 1
        originalOwnerPriority := (s.kernel.tcb c).basePriority } : Mutex) = s.mutexes m := by
      rw [hm]
    rw [Mutex.lockReturn, if_pos rfl, hx, setMutex, Function.update_eq_self]
  have hrun : Atomic.runTask s c .resume = s.setPc c .idle := by
    simp only [Atomic.runTask, hpc, Mutex.lockResume, hstatus, hreturn]
  have hevent : Atomic.event s .resume = .locked c := by
    rw [event_eq hc]
    simp [Atomic.lockStatus, hpc, Mutex.lockResume, hstatus]
  rw [hrun, hevent, holder_of_not_idle ho (by rw [hpc]; simp)]
  refine ⟨h.setPc hW (Or.inl rfl), ?_⟩
  rw [holder_of_idle (s := s.setPc c .idle) ho (setPc_pc_same _ _ _), setPc_mutexes, hm]
  exact .accept c

/-! ## Runs -/

/-- **The mutex implements the lock.**  Every step keeps the invariant, and is a step of the
abstract lock in which the same call succeeds. -/
theorem Exclusive.step (h : Exclusive m s) {a : Atomic} (ha : a.OnMutex m s) :
    Exclusive m (a.run s) ∧ Holder.Step (holder m s) (a.event s) (holder m (a.run s)) := by
  have hsilent : ∀ {k : Kernel}, k.waitLists = s.kernel.waitLists →
      (∀ t, k.tcb t = { s.kernel.tcb t with state := (k.tcb t).state }) →
      Exclusive m { s with kernel := k } := by
    intro k hk htcb
    refine h.congr rfl ?_ rfl fun t => ?_
    · simp only [waiters, hk]
    · rw [htcb t]
      exact ⟨rfl, rfl⟩
  have hother : ∀ k : Kernel, (∀ c, a.lockStatus s c = none) → a.unlockStatus s = none →
      Holder.Step (holder m s) (a.event s) (holder m { s with kernel := k }) := by
    intro k hlock hunlock
    have hevent : a.event s = .other := by
      cases hc : s.kernel.currentTcb with
      | none => simp only [Atomic.event, hc]
      | some c => simp [event_eq hc, hlock, hunlock]
    rw [hevent]
    exact .other _
  obtain ⟨hallowed, ha⟩ := ha
  cases a with
  | kernel a =>
    cases a with
    | switchContext =>
      refine ⟨hsilent ?_ fun t => switchContext_tcb _ t, hother _ (fun _ => rfl) rfl⟩
      rw [Section.run, switchContext_frame]
    | performSwitch =>
      refine ⟨hsilent ?_ fun t => performSwitch_tcb _ t, hother _ (fun _ => rfl) rfl⟩
      rw [Section.run, performSwitch_frame]
    | _ => exact ha.elim
  | dispatch t => exact ⟨hsilent rfl fun _ => rfl, hother _ (fun _ => rfl) rfl⟩
  | mutexLock n timeout =>
    obtain ⟨rfl, ht, hn⟩ := ha
    obtain ⟨c, hc, hpc⟩ := exists_current hallowed
    simp only [Atomic.run, hc]
    exact h.mutexLock hc hpc ht hn
  | mutexUnlock n =>
    obtain rfl : n = m := ha
    obtain ⟨c, hc, hpc⟩ := exists_current hallowed
    simp only [Atomic.run, hc]
    exact h.mutexUnlock hc hpc
  | enqueue =>
    cases hc : s.kernel.currentTcb with
    | none => simp [Atomic.Allowed, currentPc, hc] at hallowed
    | some c =>
      simp only [Atomic.run, hc]
      rcases h.calls c with hpc | hpc | hpc
      · simp [Atomic.Allowed, currentPc, hc, hpc] at hallowed
      · exact h.runEnqueue hc hpc
      · simp [Atomic.Allowed, currentPc, hc, hpc] at hallowed
  | resume =>
    cases hc : s.kernel.currentTcb with
    | none => simp [Atomic.Allowed, currentPc, hc] at hallowed
    | some c =>
      simp only [Atomic.run, hc]
      rcases h.calls c with hpc | hpc | hpc
      · simp [Atomic.Allowed, currentPc, hc, hpc] at hallowed
      · simp [Atomic.Allowed, currentPc, hc, hpc] at hallowed
      · exact h.runResume hc hpc (ha c hc)
  | _ => exact ha.elim

/-- No task is in a call and none waits for the mutex. -/
theorem exclusive_init {k : Kernel} (hW : (k.waitLists (.mutex m)).nodes = [])
    (sems : ℕ → Semaphore) : Exclusive m (System.init k sems) where
  magic := rfl
  nodup := by rw [waiters, System.init, hW]; exact List.nodup_nil
  linked := by intro t ht; rw [waiters, System.init, hW] at ht; exact absurd ht (by simp)
  waiting := by intro t ht; rw [waiters, System.init, hW] at ht; exact absurd ht (by simp)
  calls := fun _ => Or.inl rfl
  handed := fun _ ht => absurd ht (by simp [System.init])
  owner := fun _ ht => absurd ht (by simp [System.init, Mutex.fresh])

/-- The calls that returned `SERTOS_STATUS_OK` along a run. -/
def successes (s : System) (steps : List Atomic) : List (Event TaskId) :=
  outputs Atomic.run Atomic.event s steps

/-- The release of `m` in this state gives the mutex to the waiter `w`. -/
def HandsOver (s : System) (m : ℕ) (w : TaskId) : Prop :=
  (Mutex.unlock s m).2 = .ok ∧ w ∈ s.waiters m ∧
    ((Atomic.run s (.mutexUnlock m)).mutexes m).owner = some w

/-- After a hand-over the mutex is promised to the waiter. -/
theorem Exclusive.holder_of_handsOver (h : Exclusive m s) {w : TaskId} (hw : HandsOver s m w) :
    holder m (Atomic.run s (.mutexUnlock m)) = .handed w := by
  obtain ⟨-, hW, ho⟩ := hw
  have hpc : (Atomic.run s (.mutexUnlock m)).pc = s.pc := by
    simp only [Atomic.run]
    split
    · simp only [Atomic.runTask]
      split
      · rfl
      · exact Mutex.unlockSection_pc s m _
    · rfl
  refine holder_of_not_idle ho ?_
  rw [hpc, h.waiting w hW]
  simp

/-- **Mutual exclusion.**  In every interleaving of locks and unlocks of one mutex, at every point:
at most one task holds the mutex; it is the owner, and `lock_count` is how often it holds it; a task
in no call can unlock exactly if it holds the mutex; and after a release that hands the mutex to a
waiter `w`, no lock of another task succeeds before the lock of `w` has succeeded and `w` has
unlocked as often as it has locked. -/
theorem mutual_exclusion {k : Kernel} {sems : ℕ → Semaphore}
    (hW : (k.waitLists (.mutex m)).nodes = []) {steps : List Atomic}
    (h : Trace (Atomic.LockStep m) (System.init k sems) steps s) :
    (∀ t u, 0 < holdDepth (successes (System.init k sems) steps) t →
      0 < holdDepth (successes (System.init k sems) steps) u → t = u) ∧
    (∀ t, 0 < holdDepth (successes (System.init k sems) steps) t →
      (s.mutexes m).owner = some t ∧
        (s.mutexes m).lockCount = holdDepth (successes (System.init k sems) steps) t) ∧
    (∀ c, s.kernel.currentTcb = some c → s.pc c = .idle →
      ((Mutex.unlock s m).2 = .ok ↔ 0 < holdDepth (successes (System.init k sems) steps) c)) ∧
    ∀ before after v w, steps = before ++ .mutexUnlock m :: after →
      Trace (Atomic.LockStep m) (System.init k sems) before v → HandsOver v m w →
      ∀ (a : Atomic) u, a.OnMutex m s → a.event s = .locked u → u ≠ w →
        ∃ es fs, successes (Atomic.run v (.mutexUnlock m)) after = es ++ .unlocked w :: fs ∧
          .locked w ∈ es ∧ holdDepth (es ++ [.unlocked w]) w = 0 := by
  have hsim := fun {s s' steps} (h : Trace (Atomic.LockStep m) s steps s') (hs : Exclusive m s) =>
    h.simulation (S := Holder.Step) (p := holder m) (fun s a hs ha => Exclusive.step hs ha) hs
  obtain ⟨hs, htrace⟩ := hsim h (exclusive_init hW sems)
  have hdepth : ∀ t, holdDepth (successes (System.init k sems) steps) t = (holder m s).depth t := by
    intro t
    rw [Holder.depth_of_trace htrace t, holder_of_free rfl]
    simp [Holder.depth, successes]
  have hheld : ∀ t, 0 < (holder m s).depth t → (s.mutexes m).owner = some t ∧
      ((s.mutexes m).lockCount : ℤ) = (holder m s).depth t := by
    intro t ht
    obtain ⟨n, hn, hdt⟩ := Holder.of_depth_pos ht
    cases ho : (s.mutexes m).owner with
    | none =>
      rw [holder_of_free ho] at hn
      exact absurd hn (by simp)
    | some u =>
      obtain ⟨hpos, -, -⟩ := hs.owner u ho
      by_cases hpc : s.pc u = .idle
      · rw [holder_of_idle ho hpc] at hn
        obtain ⟨rfl, rfl⟩ := Holder.held.inj hn
        exact ⟨rfl, by omega⟩
      · rw [holder_of_not_idle ho hpc] at hn
        exact absurd hn (by simp)
  simp only [hdepth]
  refine ⟨fun t u ht hu => ?_, hheld, fun c hc hpc => ?_, ?_⟩
  · exact Option.some_inj.1 ((hheld t ht).1.symm.trans (hheld u hu).1)
  · rw [Mutex.unlock_eq_ok hs.magic hc]
    refine ⟨fun ho => ?_, fun hpos => (hheld c hpos).1⟩
    rw [holder_of_idle ho hpc]
    simp only [Holder.depth, if_true]
    omega
  · rintro before after v w rfl hv hw a u ha hlocked hu
    obtain ⟨v', h1, h2⟩ := Trace.append_iff.1 h
    obtain rfl : v' = v := h1.eq_foldl.trans hv.eq_foldl.symm
    obtain ⟨v'', ⟨hunlock, rfl⟩, h3⟩ := Trace.cons_iff.1 h2
    have hvI := (hsim hv (exclusive_init hW sems)).1
    obtain ⟨-, hafter⟩ := hsim h3 (hvI.step hunlock).1
    rw [hvI.holder_of_handsOver hw] at hafter
    have hstep := (hs.step ha).2
    rw [hlocked] at hstep
    exact Holder.handed_locked_first hafter hstep hu

/-- A started scheduler. -/
def started : Kernel := Scheduler.start (initWithConfig bss none 0).1 .ok

/-- Task 1 locks the mutex twice and task 2 queues up; task 1 releases it, task 3 tries in vain, and
task 2 comes back. -/
def contended : List Atomic :=
  [.dispatch 1, .mutexLock 0 waitForever, .mutexLock 0 noWait, .dispatch 2,
    .mutexLock 0 waitForever, .enqueue, .dispatch 1, .mutexUnlock 0, .mutexUnlock 0, .dispatch 3,
    .mutexLock 0 noWait, .dispatch 2, .resume]

theorem mutual_exclusion_contended :
    0 < holdDepth (successes (System.init started fun _ => ⟨0, 1, semMagicWord⟩) contended) 2 ∧
      ((contended.foldl Atomic.run (System.init started fun _ => ⟨0, 1, semMagicWord⟩)).mutexes
        0).owner = some 2 := by
  have hdepth :
      0 < holdDepth (successes (System.init started fun _ => ⟨0, 1, semMagicWord⟩) contended) 2 := by
    decide +kernel
  have hrun : Trace (Atomic.LockStep 0) (System.init started fun _ => ⟨0, 1, semMagicWord⟩)
      contended _ := Trace.of_guards (by decide +kernel)
  exact ⟨hdepth, ((mutual_exclusion (by decide +kernel) hrun).2.1 2 hdepth).1⟩

end System

end Sertos
