import Sertos.MutexCalls
import Sertos.SetPriority

/-!
# Setting the priority of a task that holds a mutex

Two places remember the priority a mutex owner should have after the release: `base_priority` in its
control block, and `original_owner_priority` in the mutex.  `sertos_task_set_priority` writes the
first, together with the active priority; `sertos_mutex_lock` and the hand-over write the second,
and the release reads only that.  So a priority that is set while the mutex is held is lost at the
release, and until then it takes away what the owner has inherited.

`set_priority_kept_iff` says when neither happens: what is set is at least the priority of every
waiter, and what was set last is what the mutex has recorded already.
-/

set_option autoImplicit false

namespace Sertos

open Intrusive Lts Scheduler

namespace Kernel

variable {k k' k'' : Kernel} {t u c : TaskId} {W : WaitList}

/-! ## The calls that write no priority -/

/-- The two priorities in a control block. -/
def priorityFields (b : Tcb) : ℕ × ℕ := (b.priority, b.basePriority)

/-- The tasks are still there, with the priorities they had, and a new one has its base priority. -/
structure SamePriorities (k k' : Kernel) : Prop where
  same : ∀ t, k.Live t → k'.Live t ∧ priorityFields (k'.tcb t) = priorityFields (k.tcb t)
  born : ∀ t, k'.Live t → k.Live t ∨ ∃ p < maxPriorities, priorityFields (k'.tcb t) = (p, p)

namespace SamePriorities

theorem refl (k : Kernel) : SamePriorities k k := ⟨fun _ ht => ⟨ht, rfl⟩, fun _ ht => .inl ht⟩

theorem trans (h : SamePriorities k k') (h' : SamePriorities k' k'') : SamePriorities k k'' := by
  refine ⟨fun t ht => ?_, fun t ht => ?_⟩
  · obtain ⟨ht', e⟩ := h.same t ht
    obtain ⟨ht'', e'⟩ := h'.same t ht'
    exact ⟨ht'', e'.trans e⟩
  · rcases h'.born t ht with ht' | hnew
    · refine (h.born t ht').imp_right fun ⟨p, hp, e⟩ => ⟨p, hp, ?_⟩
      exact (h'.same t ht').2.trans e
    · exact .inr hnew

theorem of_eq (hreg : k'.taskRegistry = k.taskRegistry)
    (htcb : ∀ t, priorityFields (k'.tcb t) = priorityFields (k.tcb t)) : SamePriorities k k' := by
  have hlive : ∀ t, k'.Live t ↔ k.Live t := fun t => by rw [Live, Live, hreg]
  exact ⟨fun t ht => ⟨(hlive t).2 ht, htcb t⟩, fun t ht => .inl ((hlive t).1 ht)⟩

theorem live (h : SamePriorities k k') (ht : k.Live t) : k'.Live t := (h.same t ht).1

theorem priority (h : SamePriorities k k') (ht : k.Live t) :
    (k'.tcb t).priority = (k.tcb t).priority :=
  (Prod.mk.inj (h.same t ht).2).1

theorem basePriority (h : SamePriorities k k') (ht : k.Live t) :
    (k'.tcb t).basePriority = (k.tcb t).basePriority :=
  (Prod.mk.inj (h.same t ht).2).2

theorem modify (f : Tcb → Tcb) (hf : ∀ b, priorityFields (f b) = priorityFields b) :
    SamePriorities k (k.modify t f) := by
  refine of_eq (modify_taskRegistry k t f) fun u => ?_
  by_cases hu : u = t
  · rw [hu, modify_tcb_same, hf]
  · rw [modify_tcb_of_ne k t f hu]

theorem addReady : SamePriorities k (addReady k t).1 := by
  refine of_eq (by rw [addReady_frame]) fun u => ?_
  by_cases hu : u = t
  · rw [hu, addReady_tcb_same]; rfl
  · rw [addReady_tcb_of_ne k t hu]

theorem performSwitch : SamePriorities k (performSwitch k) :=
  of_eq (by rw [performSwitch_frame]) fun u => by rw [performSwitch_tcb]; rfl

theorem switchContext : SamePriorities k (switchContext k) :=
  of_eq (by rw [switchContext_frame]) fun u => by rw [switchContext_tcb]; rfl

theorem reschedule : SamePriorities k (reschedule k) :=
  of_eq (by rw [reschedule_frame]) fun u => by rw [reschedule_tcb]; rfl

theorem waitListRemove : SamePriorities k (waitListRemove k W t) := by
  refine of_eq (by rw [waitListRemove_frame]) fun u => ?_
  by_cases hu : u = t
  · rw [hu, waitListRemove_tcb_same]; rfl
  · rw [waitListRemove_tcb_of_ne k t W hu]

theorem unblockHighest : SamePriorities k (waitListUnblockHighest k W).1 := by
  cases hW : (k.waitLists W).nodes with
  | nil => rw [waitListUnblockHighest_nil hW]; exact refl k
  | cons t rest =>
    refine of_eq (by rw [unblockHighest_frame]) fun u => ?_
    by_cases hu : u = t
    · rw [hu, unblockHighest_tcb_same k t W hW]; rfl
    · rw [unblockHighest_tcb_of_ne k t W hW hu]

theorem processDelayedTask : SamePriorities k (processDelayedTask k t).1 :=
  processDelayedTask_of_writes k t refl (fun _ _ _ => trans) (fun _ => modify _ fun _ => rfl)
    (fun _ => of_eq rfl fun _ => rfl)
    (fun _ _ => waitListRemove.trans (modify _ fun _ => rfl)) fun _ => addReady

theorem processDelayedFrom (l : List TaskId) (b : Bool) :
    SamePriorities k (processDelayedFrom k b l).1 :=
  processDelayedFrom_of_rounds k refl (fun _ _ _ => trans) (fun _ _ _ => processDelayedTask) b

theorem processTimeSlicing : SamePriorities k (processTimeSlicing k) :=
  of_eq (by rw [processTimeSlicing_frame]) fun u => by rw [processTimeSlicing_tcb]; rfl

theorem tickSection : SamePriorities k (tickSection k).1 := by
  have hbump : SamePriorities k { k with systemTicks := k.systemTicks + 1 } :=
    of_eq rfl fun _ => rfl
  exact hbump.trans ((processDelayedFrom _ false).trans processTimeSlicing)

theorem delaySection (n : ℕ) : SamePriorities k (delaySection k c n) :=
  of_eq (by rw [delaySection_frame]) fun u => by rw [delaySection_tcb]; rfl

theorem waitListBlockSection (timeout : ℕ) :
    SamePriorities k (waitListBlockSection k c W timeout) := by
  refine of_eq (by rw [waitListBlockSection_frame]) fun u => ?_
  by_cases hu : u = c
  · rw [hu, waitListBlockSection_tcb_same]; rfl
  · rw [waitListBlockSection_tcb_of_ne _ _ _ _ hu]

theorem createStaticSection {config : TaskConfig} (ht : ¬ k.Live t) :
    SamePriorities k (Task.createStaticSection k config t).1 := by
  rcases Task.createStaticSection_cases k config t with ⟨-, e⟩ | ⟨hp, e⟩
  · rw [e]; exact refl k
  · rw [e]
    refine ⟨fun u hu => ?_, fun u hu => (live_enroll.1 hu).imp_right ?_⟩
    · have hne : u ≠ t := fun e => ht (e ▸ hu)
      exact ⟨live_enroll.2 (Or.inl hu), by simp [enroll, hne]⟩
    · rintro rfl
      exact ⟨config.priority, hp, by simp [enroll, Task.initTcb, priorityFields]⟩

theorem critical {a : Call} (ha : ∀ config t, a = .create config t → ¬ k.Live t) :
    SamePriorities k (a.critical k) := by
  cases a with
  | create config t => exact createStaticSection (ha config t rfl)
  | start tickInit => exact of_eq rfl fun _ => rfl
  | tick => exact tickSection
  | yield => exact processTimeSlicing
  | delay n =>
    simp only [Call.critical]
    split
    · exact processTimeSlicing
    · split
      · exact delaySection n
      · exact refl k
  | block W timeout =>
    simp only [Call.critical]
    split
    · exact waitListBlockSection timeout
    · exact refl k
  | unblock W => exact unblockHighest
  | reschedule => exact refl k
  | lock => exact of_eq rfl fun _ => rfl
  | unlock =>
    have hcore := Call.sameCore_unlockSection k
    exact of_eq hcore.taskRegistry fun u => by rw [Call.critical, hcore.tcb]

/-- **No call of the scheduler's interface** writes a priority of a task. -/
theorem run {a : Call} (ha : a.Allowed k) : SamePriorities k (a.run k) := by
  have hcritical : SamePriorities k (a.critical k) := critical fun config t e => by
    rw [e] at ha
    exact ha
  rcases Call.run_cases k a with e | e | e | ⟨-, -, e⟩ <;> rw [e]
  · exact hcritical
  · exact hcritical.trans switchContext
  · exact hcritical.trans reschedule
  · exact hcritical.trans performSwitch

end SamePriorities

end Kernel

namespace Task

variable {k : Kernel} {t u : TaskId} {p : ℕ}

theorem setPrioritySection_tcb_of_ne (hu : u ≠ t) :
    (setPrioritySection k t p).tcb u = k.tcb u := by
  simp only [setPrioritySection]
  split
  · rw [addReady_tcb_of_ne _ _ hu, Kernel.modify_tcb_of_ne _ _ _ hu, removeReady_tcb]
  · exact Kernel.modify_tcb_of_ne k t _ hu

/-- Of the control block it writes the priorities, the state and the links of `state_node`. -/
theorem setPrioritySection_tcb_same :
    (setPrioritySection k t p).tcb t = { k.tcb t with
      priority := p
      basePriority := p
      state := ((setPrioritySection k t p).tcb t).state
      stateLinked := ((setPrioritySection k t p).tcb t).stateLinked } := by
  simp only [setPrioritySection]
  split
  · conv_lhs => rw [addReady_tcb_same]
    simp
  · simp

/-- Both priorities of the task are written. -/
theorem setPrioritySection_priorityFields :
    Kernel.priorityFields ((setPrioritySection k t p).tcb t) = (p, p) := by
  rw [setPrioritySection_tcb_same]
  rfl

end Task

/-! ## Calls -/

/-- The magic word is in the control blocks of the tasks that have been created; none is deleted
here. -/
def Kernel.taskMagic (k : Kernel) (t : TaskId) : ℕ := if k.Live t then Task.magicWord else 0

/-- One call: of the scheduler's or the mutexes' interface, or `sertos_task_set_priority`. -/
inductive PriorityCall
  | api (a : Api)
  | setPriority (handle : Option TaskId) (newPriority : ℕ)
deriving DecidableEq, Repr

namespace PriorityCall

/-- The state change of a call. -/
def run (s : System) : PriorityCall → System
  | .api a => a.run s
  | .setPriority handle p =>
    { s with kernel := (Task.setPriority s.kernel s.kernel.taskMagic handle p).1 }

/-- The calls that can come next. -/
def Allowed (s : System) : PriorityCall → Prop
  | .api a => a.Allowed s
  | .setPriority _ _ => s.InNoCall

instance (s : System) : DecidablePred (Allowed s)
  | .api a => inferInstanceAs (Decidable (a.Allowed s))
  | .setPriority _ _ => inferInstanceAs (Decidable s.InNoCall)

/-- The priority that the call sets for `t`, if it sets one. -/
def sets (s : System) (t : TaskId) : PriorityCall → Option ℕ
  | .api _ => none
  | .setPriority handle p =>
    if handle.or s.kernel.currentTcb = some t ∧
        (Task.setPriority s.kernel s.kernel.taskMagic handle p).2 = .ok then some p
    else none

variable {s : System} {t u : TaskId} {a : PriorityCall} {p : ℕ}

/-- **A call that sets a priority** writes it twice and touches nothing else of the mutexes. -/
theorem run_of_sets (h : a.sets s t = some p) :
    (a.run s).kernel.Live t ∧ (∀ m, (a.run s).waiters m = s.waiters m) ∧
      (a.run s).priority t = p ∧ (a.run s).basePriority t = p ∧
      ∀ u, u ≠ t → (a.run s).priority u = s.priority u ∧
        (a.run s).basePriority u = s.basePriority u := by
  cases a with
  | api a => exact absurd h (by simp [sets])
  | setPriority handle q =>
    obtain ⟨⟨ht, hok⟩, rfl⟩ : (handle.or s.kernel.currentTcb = some t ∧
        (Task.setPriority s.kernel s.kernel.taskMagic handle q).2 = .ok) ∧ q = p := by
      simpa [sets] using h
    rcases Task.setPriority_cases s.kernel s.kernel.taskMagic handle q with
      ⟨hne, -⟩ | ⟨t', ht', hmagic, -, e⟩
    · exact absurd hok hne
    · obtain rfl : t = t' := Option.some_inj.1 (ht.symm.trans ht')
      have hlive : s.kernel.Live t := by
        by_contra hdead
        rw [Kernel.taskMagic, if_neg hdead] at hmagic
        exact absurd hmagic (by decide)
      have hfields := Task.setPrioritySection_priorityFields (k := s.kernel) (t := t) (p := q)
      simp only [Kernel.priorityFields, Prod.mk.injEq] at hfields
      refine ⟨?_, fun m => ?_, ?_, ?_, fun u hu => ?_⟩
      · simp only [run, e]
        rw [Kernel.Live, reschedule_frame, Task.setPrioritySection_frame]
        exact hlive
      · simp only [run, e, System.waiters]
        rw [reschedule_frame, Task.setPrioritySection_frame]
      · simp only [run, e, System.priority]
        rw [reschedule_priority, hfields.1]
      · simp only [run, e, System.basePriority]
        rw [reschedule_tcb, hfields.2]
      · simp only [run, e, System.priority, System.basePriority]
        rw [reschedule_tcb, Task.setPrioritySection_tcb_of_ne hu]
        exact ⟨rfl, rfl⟩

end PriorityCall

namespace Api

variable {s : System} {t : TaskId} {a : Api}

/-- No call of the mutexes' or the scheduler's interface writes a base priority. -/
theorem run_basePriority (hlive : s.kernel.Live t) (ha : a.Allowed s) :
    (a.run s).kernel.Live t ∧ (a.run s).basePriority t = s.basePriority t := by
  cases a with
  | sched a =>
    have hk := Kernel.SamePriorities.run ha.1
    exact ⟨hk.live hlive, hk.basePriority hlive⟩
  | dispatch u => exact ⟨hlive, rfl⟩
  | lock m timeout =>
    have hboost : ∀ o c, (Mutex.applyPriorityInheritance s.kernel o c).Live t ∧
        ((Mutex.applyPriorityInheritance s.kernel o c).tcb t).basePriority = s.basePriority t := by
      intro o c
      rw [Kernel.Live, Mutex.applyPriorityInheritance_frame, Mutex.applyPriorityInheritance_tcb]
      exact ⟨hlive, rfl⟩
    have he := Mutex.lock_effect s m timeout
    rw [run]
    generalize Mutex.lock s m timeout = r at he ⊢
    cases he with
    | invalid | noTask | acquire | again => exact ⟨hlive, rfl⟩
    | @fail c o => exact hboost o c
    | @wait c o =>
      obtain ⟨hlive', hbase⟩ := hboost o c
      have hk := (Kernel.SamePriorities.waitListBlockSection (c := c) (W := .mutex m) timeout).trans
        Kernel.SamePriorities.switchContext (k := Mutex.applyPriorityInheritance s.kernel o c)
      exact ⟨hk.live hlive', (hk.basePriority hlive').trans hbase⟩
  | resume =>
    obtain ⟨c, m, timeout, -, -, e⟩ := returned_cases ha
    rw [e, System.basePriority, Mutex.lockResume_kernel]
    exact ⟨hlive, rfl⟩
  | unlock m =>
    have he := Mutex.unlock_effect s m
    rw [run]
    generalize Mutex.unlock s m = r at he ⊢
    cases he with
    | invalid | nested => exact ⟨hlive, rfl⟩
    | release =>
      refine ⟨?_, ?_⟩
      · rw [System.setMutex_kernel, Kernel.Live, reschedule_frame, Mutex.restoreOwnerPriority_frame]
        exact hlive
      · rw [System.basePriority, System.setMutex_kernel, reschedule_tcb,
          Mutex.restoreOwnerPriority_tcb]
        rfl
    | @handOver c w rest hc ho hcount hW =>
      refine ⟨?_, ?_⟩
      · rw [System.setMutex_kernel, Kernel.Live, reschedule_frame, Mutex.handedKernel,
          unblockHighest_frame, Mutex.restoreOwnerPriority_frame]
        exact hlive
      · rw [System.basePriority, System.setMutex_kernel, reschedule_tcb]
        exact Mutex.handedKernel_basePriority hW t

end Api

/-- **A full release** gives the owner the priority that the mutex has recorded. -/
theorem Mutex.unlock_priority {s : System} {m : ℕ} {c : TaskId}
    (hmagic : (s.mutexes m).magic = mutexMagicWord) (hr : s.FullRelease m c) :
    (Mutex.unlock s m).1.priority c = (s.mutexes m).originalOwnerPriority := by
  rcases hr.unlock_cases hmagic with ⟨-, e⟩ | ⟨w, rest, hW, e⟩
  · rw [e, System.priority, System.setMutex_kernel, reschedule_priority,
      restoreOwnerPriority_priority, if_pos rfl]
  · rw [e, System.priority, System.setMutex_kernel, reschedule_priority, handedKernel_priority hW,
      if_pos rfl]

/-- A base priority is written by a call that sets one, and by no other. -/
theorem PriorityCall.run_basePriority {s : System} {t : TaskId} {a : PriorityCall}
    (hlive : s.kernel.Live t) (ha : a.Allowed s) (h : a.sets s t = none) :
    (a.run s).kernel.Live t ∧ (a.run s).basePriority t = s.basePriority t := by
  cases a with
  | api a => exact Api.run_basePriority hlive ha
  | setPriority handle q =>
    rcases Task.setPriority_cases s.kernel s.kernel.taskMagic handle q with
      ⟨-, e⟩ | ⟨t', ht', -, -, e⟩
    · rw [run, e]
      exact ⟨hlive, rfl⟩
    · have hne : t ≠ t' := by
        rintro rfl
        simp [sets, ht', e] at h
      refine ⟨?_, ?_⟩
      · simp only [run, e]
        rw [Kernel.Live, reschedule_frame, Task.setPrioritySection_frame]
        exact hlive
      · simp only [run, e, System.basePriority]
        rw [reschedule_tcb, Task.setPrioritySection_tcb_of_ne hne]

/-! ## The time a task holds a mutex -/

/-- The system, and the last priority that was set for the task `t` while it held the mutex `m`, if
one was set since it got it. -/
structure Tenure (t : TaskId) (m : ℕ) where
  system : System
  lastSet : Option ℕ

/-- The task holds the mutex and no other. -/
def System.HoldsOnly (s : System) (t : TaskId) (m : ℕ) : Prop :=
  ∀ n, (s.mutexes n).owner = some t ↔ n = m

theorem System.holdsOnly_of_rest {s : System} {t : TaskId} (h : (s.mutexes 0).owner = some t)
    (hrest : ∀ n, (s.mutexes (n + 1)).owner = none) : s.HoldsOnly t 0 := by
  intro n
  cases n with
  | zero => simp [h]
  | succ n => simp [hrest n]

namespace Tenure

variable {t : TaskId} {m : ℕ}

/-- A call, and what it makes of the record. -/
def run (x : Tenure t m) (a : PriorityCall) : Tenure t m where
  system := a.run x.system
  lastSet :=
    if ((a.run x.system).mutexes m).owner = some t then (a.sets x.system t).or x.lastSet else none

/-- One call of a run. -/
abbrev Step : Tenure t m → PriorityCall → Tenure t m → Prop :=
  Guarded (fun x a => a.Allowed x.system) run

/-- The task holds only `m`, releases it, and its priority was last set to `q`. -/
structure Releases (x : Tenure t m) (a : PriorityCall) (q : ℕ) : Prop where
  unlock : a = .api (.unlock m)
  magic : (x.system.mutexes m).magic = mutexMagicWord
  holds : x.system.HoldsOnly t m
  full : x.system.FullRelease m t
  lastSet : x.lastSet = some q

/-- Setting a priority and releasing the mutex do not undo each other. -/
structure Agrees (x : Tenure t m) (a : PriorityCall) (x' : Tenure t m) : Prop where
  /-- A call that sets the priority of the owner leaves it at least that of every waiter. -/
  inherits : ∀ q, x.system.HoldsOnly t m → a.sets x.system t = some q →
    ∀ w ∈ x'.system.waiters m, x'.system.priority w ≤ x'.system.priority t
  /-- After the release both priorities are the one that was set last. -/
  keeps : ∀ q, x.Releases a q →
    x'.system.priority t = q ∧ x'.system.basePriority t = q

/-- What is set is at least the priority of every other task that waits for the mutex, and what was
set last is what the mutex has recorded. -/
structure Compatible (x : Tenure t m) (a : PriorityCall) : Prop where
  above : ∀ q, x.system.HoldsOnly t m → a.sets x.system t = some q →
    ∀ w ∈ x.system.waiters m, w ≠ t → x.system.priority w ≤ q
  recorded : ∀ q, x.Releases a q → (x.system.mutexes m).originalOwnerPriority = q

/-- The record is the base priority of the task. -/
def Recorded (x : Tenure t m) : Prop :=
  ∀ q, x.lastSet = some q → x.system.kernel.Live t ∧ x.system.basePriority t = q

variable {x x' : Tenure t m} {a : PriorityCall}

theorem Recorded.step (h : x.Recorded) (hs : Step x a x') : x'.Recorded := by
  obtain ⟨ha, rfl⟩ := hs
  intro q hq
  rw [run] at hq
  split at hq
  · cases hset : a.sets x.system t with
    | none =>
      rw [hset, Option.none_or] at hq
      obtain ⟨hlive, hbase⟩ := h q hq
      obtain ⟨hlive', hbase'⟩ := PriorityCall.run_basePriority hlive ha hset
      exact ⟨hlive', hbase'.trans hbase⟩
    | some p =>
      obtain ⟨hlive, -, -, hbase, -⟩ := PriorityCall.run_of_sets hset
      rw [hset, Option.some_or] at hq
      obtain rfl := Option.some_inj.1 hq
      exact ⟨hlive, hbase⟩
  · exact absurd hq (by simp)

theorem Recorded.agrees_iff (h : x.Recorded) (hs : Step x a x') :
    x.Agrees a x' ↔ x.Compatible a := by
  obtain ⟨ha, rfl⟩ := hs
  have hinherits : ∀ q, a.sets x.system t = some q →
      ((∀ w ∈ (x.run a).system.waiters m, (x.run a).system.priority w ≤ (x.run a).system.priority t) ↔
        ∀ w ∈ x.system.waiters m, w ≠ t → x.system.priority w ≤ q) := by
    intro q hset
    obtain ⟨-, hwaiters, hprio, -, hother⟩ := PriorityCall.run_of_sets hset
    rw [show (x.run a).system = a.run x.system from rfl, hwaiters, hprio]
    refine forall₂_congr fun w hw => ?_
    by_cases hwt : w = t
    · subst hwt
      simp [hprio]
    · rw [(hother w hwt).1]
      exact ⟨fun hle _ => hle, fun hle => hle hwt⟩
  have hkeeps : ∀ q, x.Releases a q →
      ((x.run a).system.priority t = q ∧ (x.run a).system.basePriority t = q ↔
        (x.system.mutexes m).originalOwnerPriority = q) := by
    intro q hr
    have hpriority := Mutex.unlock_priority hr.magic hr.full
    obtain ⟨hlive, hbase⟩ := h q hr.lastSet
    obtain ⟨-, hbase'⟩ := PriorityCall.run_basePriority hlive ha (by rw [hr.unlock]; rfl)
    have hbase'' : (x.run a).system.basePriority t = q := hbase'.trans hbase
    have hsys : (x.run a).system = (Mutex.unlock x.system m).1 := by
      rw [run, hr.unlock]
      rfl
    rw [hbase'', and_iff_left rfl, hsys, hpriority]
  constructor
  · exact fun hagree => ⟨fun q hholds hset => (hinherits q hset).1 (hagree.inherits q hholds hset),
      fun q hr => (hkeeps q hr).1 (hagree.keeps q hr)⟩
  · exact fun hcond => ⟨fun q hholds hset => (hinherits q hset).2 (hcond.above q hholds hset),
      fun q hr => (hkeeps q hr).2 (hcond.recorded q hr)⟩

/-- **When a priority that is set is kept.**  In every run of calls of the scheduler and the mutexes
and of `sertos_task_set_priority`, on any tasks and at any moments: every call that sets the
priority of the owner `t` of `m` leaves it at least that of every waiter, and every full release of
`m` by `t` leaves both its priorities at the value that was set last, exactly if every value set is
at least the priority of every waiter and the value set last is the one recorded in the mutex. -/
theorem set_priority_kept_iff (t : TaskId) (m : ℕ) (s : System) (calls : List PriorityCall)
    (x : Tenure t m) :
    Trace.AllSteps Step Agrees ⟨s, none⟩ calls x ↔
      Trace.AllSteps Step (fun x a _ => x.Compatible a) ⟨s, none⟩ calls x :=
  Trace.allSteps_iff (I := Recorded) (fun _ _ _ h hs _ => h.step hs)
    (fun _ _ _ h hs => h.agrees_iff hs)
    fun _ hq => absurd hq (by simp)

/-- Any other call meets the condition. -/
theorem compatible_of_other (hset : a.sets x.system t = none) (hunlock : a ≠ .api (.unlock m)) :
    x.Compatible a where
  above q _ hq := absurd (hset.symm.trans hq) (by simp)
  recorded _ hr := absurd hr.unlock hunlock

/-- The start of a run, for task 1 and mutex 0. -/
def fresh : Tenure 1 0 := ⟨System.freshSystem, none⟩

/-- Task 1, of priority 3, locks the mutex, task 2, of priority 2, waits for it, task 1 sets its own
priority to what it was when it locked the mutex, and releases the mutex. -/
def setAgain : List PriorityCall :=
  [.api (.sched (.create (.ofPriority 3) 1)), .api (.sched (.create (.ofPriority 2) 2)),
    .api (.sched (.start .ok)), .api (.lock 0 waitForever), .api (.dispatch 2),
    .api (.lock 0 waitForever), .api (.dispatch 1), .setPriority none 3, .api (.unlock 0)]

theorem set_priority_kept_iff_again :
    ((setAgain.take 7).foldl run fresh).system.waiters 0 = [2] ∧
    Trace.AllSteps Step Agrees fresh setAgain (setAgain.foldl run fresh) := by
  have hwaiters : ((setAgain.take 7).foldl run fresh).system.waiters 0 = [2] := by decide +kernel
  have hset : PriorityCall.sets ((setAgain.take 7).foldl run fresh).system 1 (.setPriority none 3) =
      some 3 := by decide +kernel
  have hlow : ((setAgain.take 7).foldl run fresh).system.priority 2 ≤ 3 := by decide +kernel
  have hlast : ((setAgain.take 8).foldl run fresh).lastSet = some 3 := by decide +kernel
  have hrecorded :
      (((setAgain.take 8).foldl run fresh).system.mutexes 0).originalOwnerPriority = 3 := by
    decide +kernel
  have hother : ∀ {y : Tenure 1 0} {a : Api}, a ≠ .unlock 0 → y.Compatible (.api a) :=
    fun ha => compatible_of_other rfl (by simpa using ha)
  refine ⟨hwaiters, (set_priority_kept_iff 1 0 _ setAgain _).2 (Trace.allSteps_of_guards
    ⟨hother (by simp), hother (by simp), hother (by simp), hother (by simp), hother (by simp),
      hother (by simp), hother (by simp), ⟨fun q _ hq w hw _ => ?_, fun _ hr => ?_⟩,
      ⟨fun _ _ hq => absurd hq (by simp [PriorityCall.sets]), fun q hr => ?_⟩, trivial⟩)⟩
  · obtain rfl := Option.some_inj.1 (hset.symm.trans hq)
    have hw' : w ∈ ((setAgain.take 7).foldl run fresh).system.waiters 0 := hw
    rw [hwaiters] at hw'
    obtain rfl := List.mem_singleton.1 hw'
    exact hlow
  · exact absurd hr.unlock (by simp)
  · exact hrecorded.trans (Option.some_inj.1 (hlast.symm.trans hr.lastSet))

/-- Task 1, of priority 1, locks the mutex, sets its own priority to 3 and releases the mutex. -/
def raised : List PriorityCall :=
  [.api (.sched (.create (.ofPriority 1) 1)), .api (.sched (.start .ok)), .api (.lock 0 waitForever),
    .setPriority none 3, .api (.unlock 0)]

/-- Task 1, of priority 1, locks the mutex; task 2, of priority 5, preempts it and waits for the
mutex, so that task 1 runs again, with priority 5, and sets its own priority to 2. -/
def lowered : List PriorityCall :=
  [.api (.sched (.create (.ofPriority 1) 1)), .api (.sched (.start .ok)), .api (.lock 0 waitForever),
    .api (.sched (.create (.ofPriority 5) 2)), .api (.lock 0 waitForever), .setPriority none 2]

/-- **Each undoes the other.**  The release gives task 1 back priority 1, with base priority 3; and
a call that sets priority 2 takes away what the owner inherited from the waiter of priority 5. -/
theorem set_priority_lost :
    Trace Step fresh raised (raised.foldl run fresh) ∧
    (raised.foldl run fresh).system.priority 1 = 1 ∧
    (raised.foldl run fresh).system.basePriority 1 = 3 ∧
    ¬ Trace.AllSteps Step Agrees fresh raised (raised.foldl run fresh) ∧
    Trace Step fresh lowered (lowered.foldl run fresh) ∧
    ((lowered.foldl run fresh).system.mutexes 0).owner = some 1 ∧
    (lowered.foldl run fresh).system.priority 1 = 2 ∧
    (lowered.foldl run fresh).system.waiters 0 = [2] ∧
    (lowered.foldl run fresh).system.priority 2 = 5 ∧
    ¬ Trace.AllSteps Step Agrees fresh lowered (lowered.foldl run fresh) := by
  have hraised : Trace Step fresh raised (raised.foldl run fresh) :=
    Trace.of_guards (by decide +kernel)
  have hlowered : Trace Step fresh lowered (lowered.foldl run fresh) :=
    Trace.of_guards (by decide +kernel)
  have hprio : (raised.foldl run fresh).system.priority 1 = 1 := by decide +kernel
  have hprio' : (lowered.foldl run fresh).system.priority 1 = 2 := by decide +kernel
  have hwaiters : (lowered.foldl run fresh).system.waiters 0 = [2] := by decide +kernel
  have hhigh : (lowered.foldl run fresh).system.priority 2 = 5 := by decide +kernel
  refine ⟨hraised, hprio, by decide +kernel, fun h => ?_, hlowered, by decide +kernel, hprio', hwaiters,
    hhigh, fun h => ?_⟩
  · have hstep :
        Step ((raised.take 4).foldl run fresh) (.api (.unlock 0)) (raised.foldl run fresh) :=
      ⟨by decide +kernel, rfl⟩
    have hagrees :=
      h (raised.take 4) _ [] _ _ rfl (Trace.of_guards (by decide +kernel)) hstep (.nil _)
    have hreleases : ((raised.take 4).foldl run fresh).Releases (.api (.unlock 0)) 3 :=
      ⟨rfl, by decide +kernel, System.holdsOnly_of_rest (by decide +kernel) fun _ => rfl,
        ⟨by decide +kernel, by decide +kernel, by decide +kernel⟩, by decide +kernel⟩
    exact absurd (hprio.symm.trans (hagrees.keeps 3 hreleases).1) (by decide)
  · have hstep : Step ((lowered.take 5).foldl run fresh) (.setPriority none 2)
        (lowered.foldl run fresh) := ⟨by decide +kernel, rfl⟩
    have hagrees :=
      h (lowered.take 5) _ [] _ _ rfl (Trace.of_guards (by decide +kernel)) hstep (.nil _)
    have hle := hagrees.inherits 2 (System.holdsOnly_of_rest (by decide +kernel) fun _ => rfl)
      (by decide +kernel) 2 (by rw [hwaiters]; exact List.mem_cons_self)
    rw [hhigh, hprio'] at hle
    exact absurd hle (by decide)

end Tenure

end Sertos
