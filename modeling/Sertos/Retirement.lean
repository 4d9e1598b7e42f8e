import Sertos.Lifecycle
import Sertos.Waiting

/-!
# A task in no list

A task that is `SUSPENDED` or `TERMINATED`, in no list and not the current one is out of the
scheduler's reach: `Kernel.Retired`.  Every function of the scheduler finds its tasks through a list
or through `sertos_current_tcb`, so none of them touches a retired one (`Spares`), whatever the
state of the rest of the kernel; a mutex can still write the priority of a retired owner, and no
more.

`TaskOp.retired_step` is the step, `retired_run` the run.
-/

set_option autoImplicit false

namespace Sertos

open Intrusive Lts Scheduler

namespace Kernel

variable {k k' k'' : Kernel} {t u c : TaskId}

/-- The task is suspended or terminated, in no list and not the current one. -/
structure Retired (k : Kernel) (t : TaskId) : Prop where
  inactive : (k.tcb t).state = .suspended ∨ (k.tcb t).state = .terminated
  state_free : k.stateLists.Free t
  wait_free : k.waitLists.Free t
  not_current : k.currentTcb ≠ some t

/-- A task that is retired in `k` is so in `k'`, and its control block is the same. -/
def Spares (t : TaskId) (k k' : Kernel) : Prop :=
  k.Retired t → k'.Retired t ∧ k'.tcb t = k.tcb t

theorem Retired.not_selected (h : k.Retired t) : selectNextTask k ≠ some t := by
  rw [selectNextTask]
  split
  · simp
  · rename_i p _
    exact fun e => h.state_free (.ready p) (List.mem_of_mem_head? e)

theorem Retired.ne_current (h : k.Retired t) (hc : k.currentTcb = some c) : c ≠ t :=
  fun e => h.not_current (e ▸ hc)

namespace Spares

theorem refl (t : TaskId) (k : Kernel) : Spares t k k := fun h => ⟨h, rfl⟩

theorem trans (h : Spares t k k') (h' : Spares t k' k'') : Spares t k k'' := by
  intro hk
  obtain ⟨hk', e⟩ := h hk
  obtain ⟨hk'', e'⟩ := h' hk'
  exact ⟨hk'', e'.trans e⟩

/-- A step that adds the node of `t` to no list. -/
theorem of_subset (hs : ∀ L, t ∈ (k'.stateLists L).nodes → t ∈ (k.stateLists L).nodes)
    (hw : ∀ W, t ∈ (k'.waitLists W).nodes → t ∈ (k.waitLists W).nodes)
    (hc : k'.currentTcb = k.currentTcb) (htcb : k'.tcb t = k.tcb t) : Spares t k k' := by
  intro h
  refine ⟨⟨?_, fun L hm => h.state_free L (hs L hm), fun W hm => h.wait_free W (hw W hm), ?_⟩, htcb⟩
  · rw [htcb]
    exact h.inactive
  · rw [hc]
    exact h.not_current

theorem of_eq (hs : k'.stateLists = k.stateLists) (hw : k'.waitLists = k.waitLists)
    (hc : k'.currentTcb = k.currentTcb) (htcb : k'.tcb t = k.tcb t) : Spares t k k' :=
  of_subset (fun _ => by rw [hs]; exact id) (fun _ => by rw [hw]; exact id) hc htcb

/-! ## The list operations -/

theorem modify (f : Tcb → Tcb) (hu : u ≠ t) : Spares t k (k.modify u f) :=
  of_eq rfl rfl rfl (modify_tcb_of_ne k u f hu.symm)

theorem insertTail (L : StateList) (hu : u ≠ t) : Spares t k (k.insertTail L u) := by
  refine of_subset (fun L' hm => ?_) (fun _ => id) rfl
    (by simp [Kernel.insertTail, Kernel.modify, hu.symm])
  rcases Bundle.mem_insertTail.1 hm with hm | ⟨-, e⟩
  · exact hm
  · exact absurd e.symm hu

theorem removeDirect (L : StateList) (u : TaskId) : Spares t k (k.removeDirect L u) :=
  of_subset (fun _ => Bundle.mem_of_mem_remove) (fun _ => id) rfl rfl

theorem waitListRemove (W : WaitList) (hu : u ≠ t) : Spares t k (waitListRemove k W u) := by
  refine of_subset (fun L => ?_) (fun V hm => waitListRemove_subset k u W V hm) ?_
    (waitListRemove_tcb_of_ne k u W hu.symm) <;> rw [waitListRemove_frame]
  exact id

theorem insertWaitListPriority (W : WaitList) (hu : u ≠ t) :
    Spares t k (insertWaitListPriority k W u) := by
  refine of_subset (fun _ => id) (fun V hm => ?_) rfl
    (by simp [Scheduler.insertWaitListPriority, Kernel.modify, hu.symm])
  rcases Bundle.mem_insertByKey.1 hm with hm | ⟨-, e⟩
  · exact hm
  · exact absurd e.symm hu

/-! ## The functions of the scheduler -/

theorem addReady (hu : u ≠ t) : Spares t k (addReady k u).1 := by
  rw [Scheduler.addReady]
  simp only
  split
  · exact refl t k
  · have hbit : ∀ x : Kernel, Spares t x { x with
        readyBitmap := Function.update x.readyBitmap (k.tcb u).priority true } :=
      fun x => of_eq rfl rfl rfl rfl
    simp only
    refine trans ?_ (modify _ hu)
    exact (insertTail _ hu).trans (hbit _)

theorem removeReady (u : TaskId) : Spares t k (removeReady k u).1 := by
  refine of_subset (fun L => ?_) (fun W => ?_) ?_ ?_
  · rw [Scheduler.removeReady]
    simp only
    split_ifs
    · exact id
    · exact Bundle.mem_of_mem_remove
    · exact Bundle.mem_of_mem_remove
    · exact id
  · rw [removeReady_waitLists]
    exact id
  · rw [removeReady_frame]
  · rw [removeReady_tcb]

/-- The task that is switched to is the head of a ready queue, and the outgoing one is the current
task. -/
theorem performSwitch : Spares t k (performSwitch k) := by
  intro h
  rw [Scheduler.performSwitch]
  split
  · exact ⟨h, rfl⟩
  · rename_i n hn
    have hne : t ≠ n := fun e => h.not_selected (e ▸ hn)
    have htcb : (dispatch k n).tcb t = k.tcb t := by
      rw [dispatch_tcb, dispatchedState, if_neg hne, if_neg fun e => h.not_current e.1]
    refine ⟨⟨?_, ?_, ?_, ?_⟩, htcb⟩
    · rw [htcb]
      exact h.inactive
    · rw [dispatch_stateLists]
      exact h.state_free
    · rw [dispatch_waitLists]
      exact h.wait_free
    · rw [dispatch_currentTcb]
      exact fun e => hne (Option.some_inj.1 e).symm

theorem switchContext : Spares t k (switchContext k) := by
  rw [Scheduler.switchContext]
  split
  · exact of_eq rfl rfl rfl rfl
  · split
    · exact refl t k
    · split
      · exact refl t k
      · exact performSwitch

theorem reschedule : Spares t k (reschedule k) := by
  rw [Scheduler.reschedule]
  split
  · split
    · exact refl t k
    · exact switchContext
    · split
      · exact switchContext
      · exact refl t k
  · exact refl t k

theorem processTimeSlicing : Spares t k (processTimeSlicing k) := by
  intro h
  rw [Scheduler.processTimeSlicing]
  split
  · rename_i c _ hc
    simp only
    split
    · exact (removeDirect _ c).trans (insertTail _ (h.ne_current hc)) h
    · exact ⟨h, rfl⟩
  · exact ⟨h, rfl⟩

theorem yield : Spares t k (yield k) := processTimeSlicing.trans switchContext

theorem delaySection (n : ℕ) (hc : c ≠ t) : Spares t k (delaySection k c n) :=
  (removeReady c).trans ((modify _ hc).trans (insertTail _ hc))

theorem waitListBlockSection (W : WaitList) (timeout : ℕ) (hc : c ≠ t) :
    Spares t k (waitListBlockSection k c W timeout) := by
  have hqueued : ∀ f : Tcb → Tcb, Spares t k
      (Scheduler.insertWaitListPriority ((Scheduler.removeReady k c).1.modify c f) W c) :=
    fun f => (removeReady c).trans ((modify f hc).trans (insertWaitListPriority W hc))
  rw [Scheduler.waitListBlockSection]
  split
  · refine trans ?_ (insertTail _ hc)
    exact (hqueued _).trans (modify _ hc)
  · exact (hqueued _).trans (modify _ hc)

theorem unblockHighest (W : WaitList) : Spares t k (waitListUnblockHighest k W).1 := by
  intro h
  rw [waitListUnblockHighest]
  split
  · exact ⟨h, rfl⟩
  · rename_i u rest hW
    have hu : u ≠ t := by
      rintro rfl
      exact h.wait_free W (by rw [hW]; exact List.mem_cons_self)
    have hoff : ∀ x : Kernel, Spares t x (if 0 < (x.tcb u).delayTicks then
        (x.removeDirect .delay u).modify u fun b => { b with delayTicks := 0 } else x) := by
      intro x
      split
      · exact (removeDirect _ u).trans (modify _ hu)
      · exact refl t x
    exact (waitListRemove W hu).trans ((hoff _).trans ((modify _ hu).trans (addReady hu))) h

theorem processDelayedTask (hu : u ≠ t) : Spares t k (processDelayedTask k u).1 :=
  processDelayedTask_of_writes k u (refl t) (fun _ _ _ => trans) (fun _ => modify _ hu)
    (fun _ => removeDirect .delay u) (fun _ W => (waitListRemove W hu).trans (modify _ hu))
    fun _ => addReady hu

theorem processDelayedFrom {l : List TaskId} (hl : t ∉ l) (b : Bool) :
    Spares t k (processDelayedFrom k b l).1 :=
  processDelayedFrom_of_rounds k (refl t) (fun _ _ _ => trans)
    (fun _ hu _ => processDelayedTask fun e => hl (e ▸ hu)) b

theorem tickSection : Spares t k (tickSection k).1 := by
  intro h
  have hbump : Spares t k { k with systemTicks := k.systemTicks + 1 } := of_eq rfl rfl rfl rfl
  exact hbump.trans ((processDelayedFrom (h.state_free .delay) false).trans processTimeSlicing) h

theorem enroll (config : TaskConfig) (hu : u ≠ t) : Spares t k (k.enroll u config) := by
  refine of_subset (fun L hm => ?_) (fun _ => id) rfl (enroll_tcb_of_ne hu.symm)
  rcases Bundle.mem_insertTail.1 hm with hm | ⟨-, e⟩
  · exact hm
  · exact absurd e.symm hu

theorem createStaticSection (config : TaskConfig) (hu : u ≠ t) :
    Spares t k (Task.createStaticSection k config u).1 := by
  rcases Task.createStaticSection_cases k config u with ⟨-, e⟩ | ⟨-, e⟩
  · rw [e]
    exact refl t k
  · rw [e]
    exact enroll config hu

end Spares

end Kernel

namespace Call

open Kernel

variable {k : Kernel} {t : TaskId}

theorem critical_spares {a : Call} (ha : ∀ config, a ≠ .create config t) :
    Spares t k (a.critical k) := by
  cases a with
  | create config u => exact .createStaticSection config fun e => ha config (e ▸ rfl)
  | start tickInit => exact .of_eq rfl rfl rfl rfl
  | tick => exact .tickSection
  | yield => exact .processTimeSlicing
  | delay n =>
    simp only [critical]
    split
    · exact .processTimeSlicing
    · split
      · rename_i c _ hc
        exact fun h => Spares.delaySection n (h.ne_current hc) h
      · exact .refl t k
  | block W timeout =>
    simp only [critical]
    split
    · rename_i c _ hc
      exact fun h => Spares.waitListBlockSection W timeout (h.ne_current hc) h
    · exact .refl t k
  | unblock W => exact .unblockHighest W
  | reschedule => exact .refl t k
  | lock => exact .of_eq rfl rfl rfl rfl
  | unlock =>
    have hsame := sameCore_unlockSection k
    exact .of_eq hsame.stateLists hsame.waitLists hsame.currentTcb (by rw [critical, hsame.tcb])

/-- **No call of the scheduler touches a retired task**, its own creation apart. -/
theorem spares {a : Call} (ha : ∀ config, a ≠ .create config t) : Spares t k (a.run k) := by
  have hcritical : Spares t k (a.critical k) := critical_spares ha
  rcases run_cases k a with e | e | e | ⟨-, -, e⟩ <;> rw [e]
  · exact hcritical
  · exact hcritical.trans .switchContext
  · exact hcritical.trans .reschedule
  · exact hcritical.trans .performSwitch

end Call

/-! ## Mutexes -/

namespace Kernel

variable {k k' k'' : Kernel} {t u c o : TaskId}

/-- Like `Spares`, but the task may get the priority of the current one. -/
def Lends (t : TaskId) (k k' : Kernel) : Prop :=
  k.Retired t → k'.Retired t ∧
    ∃ p, (p = (k.tcb t).priority ∨ ∃ c, k.currentTcb = some c ∧ p = (k.tcb c).priority) ∧
      k'.tcb t = { k.tcb t with priority := p }

theorem Spares.lends (h : Spares t k k') : Lends t k k' := by
  intro hk
  obtain ⟨hk', e⟩ := h hk
  exact ⟨hk', _, Or.inl rfl, e⟩

theorem Lends.spares (h : Lends t k k') (h' : Spares t k' k'') : Lends t k k'' := by
  intro hk
  obtain ⟨hk', p, hp, e⟩ := h hk
  obtain ⟨hk'', e'⟩ := h' hk'
  exact ⟨hk'', p, hp, e'.trans e⟩

theorem Spares.changePriority (p : ℕ) (hu : u ≠ t) : Spares t k (Mutex.changePriority k u p) := by
  rw [Mutex.changePriority]
  split
  · exact (removeReady u).trans ((modify _ hu).trans (addReady hu))
  · exact modify _ hu

/-- Of a retired task only the priority is written. -/
theorem Retired.changePriority (h : k.Retired t) (p : ℕ) :
    (Mutex.changePriority k t p).Retired t ∧
      (Mutex.changePriority k t p).tcb t = { k.tcb t with priority := p } := by
  have hne : (k.tcb t).state ≠ .ready := by
    rcases h.inactive with e | e <;> rw [e] <;> simp
  rw [Mutex.changePriority, if_neg hne]
  refine ⟨⟨?_, h.state_free, h.wait_free, h.not_current⟩, modify_tcb_same _ _ _⟩
  rw [modify_tcb_same]
  exact h.inactive

/-- Any task may be given another priority. -/
theorem Retired.of_changePriority (h : k.Retired t) (u : TaskId) (p : ℕ) :
    (Mutex.changePriority k u p).Retired t ∧
      ((Mutex.changePriority k u p).tcb t).state = (k.tcb t).state := by
  by_cases hu : u = t
  · subst hu
    obtain ⟨h', e⟩ := h.changePriority p
    exact ⟨h', by rw [e]⟩
  · obtain ⟨h', e⟩ := Spares.changePriority p hu h
    exact ⟨h', by rw [e]⟩

theorem Spares.unblockAll (W : WaitList) : Spares t k (unblockAll k W) :=
  unblockAll_induction (motive := Spares t k) W (.refl t k) fun _ h => h.trans (.unblockHighest W)

theorem Lends.boost (hc : k.currentTcb = some c) :
    Lends t k (Mutex.applyPriorityInheritance k o c) := by
  rw [Mutex.applyPriorityInheritance]
  split
  · by_cases ho : o = t
    · subst ho
      intro h
      obtain ⟨h', e⟩ := h.changePriority (k.tcb c).priority
      exact ⟨h', _, Or.inr ⟨c, hc, rfl⟩, e⟩
    · exact (Spares.changePriority _ ho).lends
  · exact (Spares.refl t k).lends

/-- The current task gives its own priority back. -/
theorem Spares.restore (x : Mutex) (hc : k.currentTcb = some c) :
    Spares t k (Mutex.restoreOwnerPriority k x c) := by
  intro h
  rw [Mutex.restoreOwnerPriority]
  split
  · exact Spares.changePriority _ (h.ne_current hc) h
  · exact ⟨h, rfl⟩

end Kernel

namespace Mutex

open Kernel

variable {t : TaskId}

theorem lock_lends (s : System) (m timeout : ℕ) :
    Lends t s.kernel (lock s m timeout).1.kernel := by
  have he := lock_effect s m timeout
  generalize lock s m timeout = r at he ⊢
  cases he with
  | invalid => exact (Spares.refl t _).lends
  | noTask => exact (Spares.refl t _).lends
  | acquire => exact (Spares.refl t _).lends
  | again => exact (Spares.refl t _).lends
  | fail hc => exact .boost hc
  | wait hc =>
    exact fun h => (Lends.boost hc).spares
      ((Spares.waitListBlockSection _ _ (h.ne_current hc)).trans .switchContext) h

theorem unlock_spares (s : System) (m : ℕ) : Spares t s.kernel (unlock s m).1.kernel := by
  have he := unlock_effect s m
  generalize unlock s m = r at he ⊢
  cases he with
  | invalid => exact .refl t _
  | nested => exact .refl t _
  | release hc => exact (Spares.restore _ hc).trans .reschedule
  | handOver hc => exact (Spares.restore _ hc).trans ((Spares.unblockHighest _).trans .reschedule)

/-- Of a retired task whose mutex is deleted only the priority is written. -/
theorem delete_retired {s : System} (m : ℕ) (h : s.kernel.Retired t) :
    (delete s m).1.kernel.Retired t ∧
      ((delete s m).1.kernel.tcb t).state = (s.kernel.tcb t).state := by
  rcases delete_cases s m with ⟨-, e⟩ | ⟨-, e⟩ <;> rw [e]
  · exact ⟨h, rfl⟩
  · obtain ⟨h₁, e₁⟩ : (restoreOwner s.kernel (s.mutexes m)).Retired t ∧
        ((restoreOwner s.kernel (s.mutexes m)).tcb t).state = (s.kernel.tcb t).state := by
      rcases restoreOwner_cases (k := s.kernel) (s.mutexes m) with e | ⟨o, -, -, e⟩ <;> rw [e]
      · exact ⟨h, rfl⟩
      · exact h.of_changePriority o _
    obtain ⟨h₂, e₂⟩ := ((Spares.unblockAll (.mutex m)).trans .reschedule) h₁
    exact ⟨h₂, (congrArg Tcb.state e₂).trans e₁⟩

end Mutex

theorem Api.lends {s : System} {a : Api} {t : TaskId} (ha : a.Scheduled s) :
    Kernel.Lends t s.kernel (a.run s).kernel := by
  cases a with
  | sched a =>
    refine (Call.spares fun config e => ?_).lends
    rw [e] at ha
    exact ha.2.1 trivial
  | dispatch u => exact ha.2.2.elim
  | lock m timeout => exact Mutex.lock_lends s m timeout
  | resume =>
    obtain ⟨c, m, timeout, -, -, e⟩ := returned_cases ha.1
    rw [e]
    simp only [Mutex.lockResume, Mutex.lockReturn]
    split
    · exact (Kernel.Spares.refl t s.kernel).lends
    · exact (Kernel.Spares.refl t s.kernel).lends
  | unlock m => exact (Mutex.unlock_spares s m).lends

/-! ## Tasks -/

namespace Task

open Kernel

variable {k : Kernel} {magic : TaskId → ℕ} {handle : Option TaskId} {t u : TaskId} {p : ℕ}

theorem withdraw_spares : Spares t k (withdraw k u) := by
  rw [withdraw]
  split
  · exact .removeReady u
  · exact .refl t k

theorem unregisterTask_spares : Spares t k (unregisterTask k u) := by
  rw [unregisterTask]
  split
  · exact .of_eq rfl rfl rfl rfl
  · exact .refl t k

theorem suspendSection_spares (hu : u ≠ t) : Spares t k (suspendSection k u) :=
  withdraw_spares.trans (.modify _ hu)

/-- A retired task cannot be suspended. -/
theorem suspend_spares : Spares t k (suspend k magic handle).1 := by
  intro h
  rcases suspend_cases k magic handle with ⟨-, e⟩ | ⟨u, -, ha, e⟩
  · rw [e]
    exact ⟨h, rfl⟩
  · have hu : u ≠ t := by
      rintro rfl
      have hvalid := isValidTransition_suspended.1 (accepts_iff.1 ha).2
      rcases h.inactive with hs | hs <;> simp [hs, TaskState.isReady] at hvalid
    have hsection : Spares t k (suspendSection k u) := suspendSection_spares hu
    rw [e]
    simp only
    split
    · exact hsection.trans .yield h
    · exact hsection h

theorem deleteSection_spares (hu : u ≠ t) : Spares t k (deleteSection k u) :=
  withdraw_spares.trans (unregisterTask_spares.trans (.modify _ hu))

theorem delete_spares (hu : handle ≠ some t) : Spares t k (delete k magic handle).1 := by
  intro h
  rcases delete_cases k magic handle with ⟨-, e⟩ | ⟨u, hor, -, e⟩
  · rw [e]
    exact ⟨h, rfl⟩
  · have hut : u ≠ t := by
      rintro rfl
      rcases Option.or_eq_some_iff.1 hor with ho | ⟨-, hc⟩
      · exact hu ho
      · exact h.not_current hc
    rw [e]
    simp only
    split
    · exact (deleteSection_spares hut).trans .yield h
    · exact deleteSection_spares hut h

theorem resume_spares (hu : handle ≠ some t) : Spares t k (resume k magic handle).1 := by
  rcases resume_cases k magic handle with ⟨-, e⟩ | ⟨u, ho, -, -, e⟩
  · rw [e]
    exact .refl t k
  · have hut : u ≠ t := fun e => hu (e ▸ ho)
    rw [e]
    simp only
    split
    · exact (Spares.addReady hut).trans .reschedule
    · exact .addReady hut

theorem setPrioritySection_spares (hu : u ≠ t) : Spares u k (setPrioritySection k t p) := by
  simp only [setPrioritySection]
  split
  · exact (Spares.removeReady t).trans
      ((Spares.modify _ hu.symm).trans (Spares.addReady hu.symm))
  · exact Spares.modify _ hu.symm

/-- Of a retired task that is given another priority only the two fields are written. -/
theorem setPriority_retired (h : k.Retired t) :
    (setPriority k magic handle p).1.Retired t ∧
      ((setPriority k magic handle p).1.tcb t).state = (k.tcb t).state := by
  rcases setPriority_cases k magic handle p with ⟨-, e⟩ | ⟨u, -, -, -, e⟩
  · rw [e]
    exact ⟨h, rfl⟩
  · obtain ⟨hsection, hstate⟩ : (setPrioritySection k u p).Retired t ∧
        ((setPrioritySection k u p).tcb t).state = (k.tcb t).state := by
      by_cases hut : t = u
      · subst hut
        have hne : (k.tcb t).state ≠ .ready := by
          rcases h.inactive with hs | hs <;> rw [hs] <;> simp
        rw [setPrioritySection_of_ne_ready hne]
        refine ⟨⟨?_, h.state_free, h.wait_free, h.not_current⟩, by rw [modify_tcb_same]⟩
        rw [modify_tcb_same]
        exact h.inactive
      · obtain ⟨h', htcb⟩ := setPrioritySection_spares hut h
        exact ⟨h', by rw [htcb]⟩
    obtain ⟨h', htcb⟩ := Spares.reschedule hsection
    rw [e]
    exact ⟨h', by rw [htcb, hstate]⟩

/-- Nothing can be done with a terminated task. -/
theorem not_accepts_of_terminated (h : (k.tcb t).state = .terminated) (magic : TaskId → ℕ)
    (after : TaskState) : accepts k magic t after = false := by
  have hvalid : isValidTransition .terminated after = false := by cases after <;> decide
  simp [accepts, h, hvalid]

end Task

namespace TaskOp

variable {s s' : Tasks} {op : TaskOp} {ops : List TaskOp} {t : TaskId}

/-- The calls that change the state of a suspended task: it is resumed or deleted, or its control
block is given to a new task. -/
def Changes (t : TaskId) : TaskOp → Prop
  | .create _ u => u = t
  | .resume handle | .delete handle => handle = some t
  | _ => False

instance (t : TaskId) : DecidablePred (Changes t)
  | .create _ u => inferInstanceAs (Decidable (u = t))
  | .resume handle | .delete handle => inferInstanceAs (Decidable (handle = some t))
  | .api _ | .switch | .suspend _ | .setPriority _ _ | .deleteMutex _ => .isFalse id

/-- A retired task stays retired, and its state the same. -/
theorem retired_step (ha : op.Allowed s) (hop : ¬ op.Changes t) (ht : s.kernel.Retired t) :
    (op.run s).kernel.Retired t ∧
      ((op.run s).kernel.tcb t).state = (s.kernel.tcb t).state := by
  have hlends : Kernel.Lends t s.kernel (op.run s).kernel →
      (op.run s).kernel.Retired t ∧
        ((op.run s).kernel.tcb t).state = (s.kernel.tcb t).state := fun h => by
    obtain ⟨ht', p, -, e⟩ := h ht
    exact ⟨ht', by rw [e]⟩
  cases op with
  | api a => exact hlends (Api.lends ha)
  | create config u =>
    have hcreate : Kernel.Spares t s.kernel (Task.createStatic s.kernel config u).1 :=
      Call.spares (a := .create config u) fun _ e => hop (Call.create.inj e).2
    refine hlends ?_
    simp only [run]
    split
    · exact hcreate.lends
    · exact hcreate.lends
  | switch => exact hlends Kernel.Spares.performSwitch.lends
  | suspend handle => exact hlends Task.suspend_spares.lends
  | resume handle => exact hlends (Task.resume_spares hop).lends
  | delete handle => exact hlends (Task.delete_spares hop).lends
  | setPriority handle p => exact Task.setPriority_retired ht
  | deleteMutex m => exact Mutex.delete_retired m ht

/-- A terminated task stays so whatever is called, until its control block is used again. -/
theorem terminated_step (ha : op.Allowed s) (hop : ∀ config, op ≠ .create config t)
    (ht : s.kernel.Retired t) (hs : (s.kernel.tcb t).state = .terminated) :
    (op.run s).kernel.Retired t ∧
      ((op.run s).kernel.tcb t).state = (s.kernel.tcb t).state := by
  by_cases hc : op.Changes t
  · have hrefused := Task.not_accepts_of_terminated hs s.magic
    cases op with
    | create config u => exact absurd (by rw [show u = t from hc]) (hop config)
    | resume handle =>
      obtain rfl : handle = some t := hc
      simp only [run, Task.resume, hrefused]
      exact ⟨ht, rfl⟩
    | delete handle =>
      obtain rfl : handle = some t := hc
      simp only [run, Task.delete, Option.some_or, hrefused]
      exact ⟨ht, rfl⟩
    | _ => exact hc.elim
  · exact retired_step ha hc ht

/-- **A retired task stays retired.** -/
theorem retired_run (h : Trace Step s ops s') (hops : ∀ op ∈ ops, ¬ op.Changes t)
    (ht : s.kernel.Retired t) :
    s'.kernel.Retired t ∧ (s'.kernel.tcb t).state = (s.kernel.tcb t).state := by
  induction h with
  | nil s => exact ⟨ht, rfl⟩
  | @cons s s₁ s' op ops hR _ ih =>
    obtain ⟨ha, rfl⟩ := hR
    obtain ⟨ht₁, e⟩ := retired_step ha (hops op List.mem_cons_self) ht
    obtain ⟨ht', e'⟩ := ih (fun a hm => hops a (List.mem_cons_of_mem op hm)) ht₁
    exact ⟨ht', e'.trans e⟩

/-- **A terminated task stays retired**, until its control block is used again. -/
theorem terminated_run (h : Trace Step s ops s') (hops : ∀ config, .create config t ∉ ops)
    (ht : s.kernel.Retired t) (hs : (s.kernel.tcb t).state = .terminated) :
    s'.kernel.Retired t ∧ (s'.kernel.tcb t).state = .terminated := by
  induction h with
  | nil s => exact ⟨ht, hs⟩
  | @cons s s₁ s' op ops hR _ ih =>
    obtain ⟨ha, rfl⟩ := hR
    have hop : ∀ config, op ≠ .create config t := fun config e =>
      hops config (e ▸ List.mem_cons_self)
    obtain ⟨ht₁, e⟩ := terminated_step ha hop ht hs
    exact ih (fun config hm => hops config (List.mem_cons_of_mem op hm)) ht₁ (e.trans hs)

end TaskOp

end Sertos
