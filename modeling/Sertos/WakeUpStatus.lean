import Sertos.Orderly
import Sertos.WakeUp

/-!
# The status of a wake-up

Over whole runs, a task that waits is taken off its wait list by a call that unblocks the first
waiter, which a release of a mutex is too, or by a tick.  A call that waits and a call that wakes do
the same to the wait lists whether they are made by a mutex or not: each step is, as far as the
waiting tasks are concerned, one call of the scheduler (`Ordered.waits_cases`).

`wake_up_truthful_iff` says exactly when the status of a wait tells which of the two it was.
-/

set_option autoImplicit false

namespace Sertos

open Intrusive Lts Scheduler

/-- The same wait lists, on which each task of `r` waits for as many ticks. -/
structure Kernel.SameWaits (r : LinkedList TaskId) (k k' : Kernel) : Prop where
  waitLists : k'.waitLists = k.waitLists
  delayTicks : ∀ t ∈ r.nodes, (k'.tcb t).delayTicks = (k.tcb t).delayTicks

namespace Kernel.SameWaits

variable {r : LinkedList TaskId} {k k' k'' : Kernel} {t o c : TaskId}

theorem refl (r : LinkedList TaskId) (k : Kernel) : SameWaits r k k := ⟨rfl, fun _ _ => rfl⟩

theorem symm (h : SameWaits r k k') : SameWaits r k' k :=
  ⟨h.waitLists.symm, fun t ht => (h.delayTicks t ht).symm⟩

theorem trans (h : SameWaits r k k') (h' : SameWaits r k' k'') : SameWaits r k k'' :=
  ⟨h'.waitLists.trans h.waitLists, fun t ht => (h'.delayTicks t ht).trans (h.delayTicks t ht)⟩

theorem reschedule (r : LinkedList TaskId) (k : Kernel) : SameWaits r k (reschedule k) :=
  ⟨reschedule_waitLists k, fun t _ => by rw [reschedule_tcb]⟩

theorem performSwitch (r : LinkedList TaskId) (k : Kernel) : SameWaits r k (performSwitch k) :=
  ⟨by rw [performSwitch_frame], fun t _ => by rw [performSwitch_tcb]⟩

theorem modify {f : Tcb → Tcb} (hf : ∀ b, (f b).delayTicks = b.delayTicks) :
    SameWaits r k (k.modify t f) := by
  refine ⟨rfl, fun u _ => ?_⟩
  by_cases hut : u = t
  · subst hut
    rw [modify_tcb_same, hf]
  · rw [modify_tcb_of_ne _ _ _ hut]

theorem changePriority (p : ℕ) : SameWaits r k (Mutex.changePriority k t p) :=
  ⟨by rw [Mutex.changePriority_frame], fun u _ => by rw [Mutex.changePriority_tcb]⟩

theorem applyPriorityInheritance : SameWaits r k (Mutex.applyPriorityInheritance k o c) :=
  ⟨Mutex.applyPriorityInheritance_waitLists k o c, fun u _ => by
    rw [Mutex.applyPriorityInheritance_tcb]⟩

theorem restoreOwner (x : Mutex) : SameWaits r k (Mutex.restoreOwner k x) := by
  rcases Mutex.restoreOwner_cases (k := k) x with e | ⟨o, -, -, e⟩ <;> rw [e]
  · exact refl r k
  · exact changePriority _

theorem setPrioritySection (p : ℕ) : SameWaits r k (Task.setPrioritySection k t p) := by
  rw [Task.setPrioritySection_eq]
  exact (changePriority p).trans (modify fun _ => rfl)

theorem addReady : SameWaits r k (addReady k t).1 := by
  refine ⟨by rw [addReady_frame], fun u _ => ?_⟩
  by_cases hut : u = t
  · subst hut
    rw [addReady_tcb_same]
  · rw [addReady_tcb_of_ne _ _ hut]

theorem withdraw : SameWaits r k (Task.withdraw k t) := by
  refine ⟨?_, fun u _ => by rw [Task.withdraw_tcb]⟩
  rw [Task.withdraw]
  split
  · rw [removeReady_frame]
  · rfl

theorem suspendSection : SameWaits r k (Task.suspendSection k t) :=
  withdraw.trans (modify fun _ => rfl)

theorem deleteSection : SameWaits r k (Task.deleteSection k t) := by
  rw [Task.deleteSection, Task.unregisterTask_eq]
  have hmodify : SameWaits r (Task.withdraw k t)
      ((Task.withdraw k t).modify t fun b => { b with state := .terminated }) := modify fun _ => rfl
  exact withdraw.trans ⟨hmodify.waitLists, hmodify.delayTicks⟩

/-- A task outside `r` can be created. -/
theorem enroll {config : TaskConfig} (ht : t ∉ r.nodes) : SameWaits r k (k.enroll t config) :=
  ⟨rfl, fun u hu => by rw [enroll_tcb_of_ne (ne_of_mem_of_not_mem hu ht)]⟩

end Kernel.SameWaits

/-! ## Calls that wait and calls that wake -/

/-- The call wakes the first waiter of `W`, if there is one, or all of them. -/
def TaskOp.Unblocks (W : WaitList) : TaskOp → Prop
  | .api (.sched (.unblock V)) => V = W
  | .api (.unlock m) | .deleteMutex m => .mutex m = W
  | _ => False

/-- The call of the current task `t` comes to the wait of
`sertos_scheduler_wait_list_block (W, timeout)`. -/
def TaskOp.Waits (s : Tasks) (t : TaskId) (W : WaitList) (timeout : ℕ) : TaskOp → Prop
  | .api (.sched (.block V n)) =>
    V = W ∧ n = timeout ∧ s.kernel.isRunning = true ∧ s.kernel.currentTcb = some t
  | .api (.lock m n) => .mutex m = W ∧ n = timeout ∧ (Mutex.lock s.system m n).2 = none ∧
    s.kernel.currentTcb = some t
  | _ => False

namespace Tasks

/-- The call `a` is, as the waiting tasks of `r` see it, the call `b` of the scheduler, made in the
kernel `k`. -/
structure SeenAs (P : Kernel → Prop) (r : LinkedList TaskId) (s : Tasks) (a : TaskOp) (s' : Tasks)
    (k : Kernel) (b : Call) : Prop where
  kernel : P (k.among r)
  currentTcb : k.currentTcb = s.kernel.currentTcb
  before : Kernel.SameWaits r s.kernel k
  allowed : b.Allowed (k.among r)
  after : Kernel.SameWaits r (b.run (k.among r)) s'.kernel
  tick : b = .tick → a = .api (.sched .tick)
  unblock : ∀ W, b = .unblock W → a.Unblocks W

variable {P : Kernel → Prop} {s s' s₁ s₂ : Tasks} {r : LinkedList TaskId} {t c o : TaskId}
  {W : WaitList} {a : TaskOp} {ops : List TaskOp} {m timeout : ℕ}

/-- A call that no wait depends on is a reschedule for the waiting tasks. -/
theorem Ordered.seenAs_reschedule (h : s.Ordered P r)
    (hw : Kernel.SameWaits r s.kernel s'.kernel) : SeenAs P r s a s' s.kernel .reschedule where
  kernel := h.kernel
  currentTcb := rfl
  before := .refl r _
  allowed := trivial
  after := (Kernel.SameWaits.reschedule r (s.kernel.among r)).symm.trans
    ⟨hw.waitLists, hw.delayTicks⟩
  tick := by simp
  unblock := by simp

/-- The wait for a mutex is a call of `sertos_scheduler_wait_list_block`, after the owner has
inherited a priority. -/
theorem Ordered.seenAs_block [Kernel.Kept P] (h : s.Ordered P r)
    (ha : (Api.lock m timeout).Scheduled s.system) (hc : s.kernel.currentTcb = some c)
    (ho : (s.system.mutexes m).owner = some o) (hoc : o ≠ c) (ht : timeout ≠ noWait)
    (hrun : s.kernel.isRunning = true)
    (hs : s'.kernel = switchContext (waitListBlockSection
      (Mutex.applyPriorityInheritance s.kernel o c) c (.mutex m) timeout)) :
    SeenAs P r s (.api (.lock m timeout)) s' (Mutex.applyPriorityInheritance s.kernel o c)
      (.block (.mutex m) timeout) := by
  refine ⟨h.boost hc (h.owner m o ho).1 hoc, ?_, .applyPriorityInheritance,
    (Call.allowed_among id).2 (ha.block_allowed ht), ?_, by simp, by simp⟩
  · rw [Mutex.applyPriorityInheritance_frame]
  · rw [Call.run_among (a := .block (.mutex m) timeout) _ _ trivial, hs, Mutex.wait_eq_block hc hrun]
    exact ⟨rfl, fun _ _ => rfl⟩

/-- **One call, as the waiting tasks see it.** -/
theorem Ordered.seenAs [Kernel.Lockable P] (h : s.Ordered P r) (hs : TaskOp.OrderStep s a s')
    (hdelete : ∀ m, a ≠ .deleteMutex m) : ∃ k b, SeenAs P r s a s' k b := by
  obtain ⟨⟨ha, hlists, hinherited, hblocks⟩, rfl⟩ := hs
  have hsame : ∀ {x : Tasks}, Kernel.SameWaits r s.kernel x.kernel →
      ∃ k b, SeenAs P r s a x k b := fun hw => ⟨_, _, h.seenAs_reschedule hw⟩
  cases a with
  | api a =>
    cases a with
    | sched a =>
      refine ⟨s.kernel, a, h.kernel, rfl, .refl r _, (Call.allowed_among ha.2.1).2 ha.1.1, ?_,
        fun e => by rw [e], fun W e => by rw [e]; rfl⟩
      rw [Call.run_among_of_not_creates _ _ ha.2.1]
      exact ⟨rfl, fun _ _ => rfl⟩
    | dispatch u => exact ha.2.2.elim
    | lock m timeout =>
      have he := Mutex.lock_effect s.system m timeout
      simp only [TaskOp.run, Api.run] at hsame ⊢
      generalize Mutex.lock s.system m timeout = x at he ⊢
      cases he with
      | invalid | noTask | acquire | again => exact hsame (.refl r _)
      | fail => exact hsame .applyPriorityInheritance
      | wait hc ho hoc ht hrun => exact ⟨_, _, h.seenAs_block ha hc ho hoc ht hrun rfl⟩
    | resume =>
      obtain ⟨c, m, timeout, -, -, e⟩ := Api.returned_cases ha.1
      have hkernel : ((TaskOp.api .resume).run s).kernel = s.kernel := by
        simp only [TaskOp.run, e]
        exact Mutex.lockResume_kernel s.system m c timeout
      exact hsame (hkernel ▸ .refl r _)
    | unlock m =>
      by_cases hmagic : (s.system.mutexes m).magic = mutexMagicWord
      swap
      · have hkernel : ((TaskOp.api (.unlock m)).run s).kernel = s.kernel := by
          simp only [TaskOp.run, Api.run, Mutex.unlock, ne_eq, hmagic, not_false_eq_true, if_true]
        exact hsame (hkernel ▸ .refl r _)
      by_cases hr : ∃ c, s.system.FullRelease m c
      · obtain ⟨c, hr⟩ := hr
        have hkernel : ((TaskOp.api (.unlock m)).run s).kernel =
            Scheduler.reschedule (waitListUnblockHighest s.kernel (.mutex m)).1 :=
          System.unlock_kernel hmagic hr (hinherited c ⟨hmagic, hr⟩)
        have hwaits := Kernel.SameWaits.reschedule r (waitListUnblockHighest s.kernel (.mutex m)).1
        rw [← hkernel] at hwaits
        refine ⟨s.kernel, .unblock (.mutex m), h.kernel, rfl, .refl r _, trivial, ?_, by simp,
          fun W e => Call.unblock.inj e⟩
        rw [Call.run_among (a := .unblock (.mutex m)) _ _ trivial]
        exact ⟨hwaits.waitLists, hwaits.delayTicks⟩
      · have hkernel : ((TaskOp.api (.unlock m)).run s).kernel = s.kernel := by
          simp only [TaskOp.run, Api.run]
          rcases System.unlock_cases_of_not_fullRelease hr with e | e
          · rw [e]
          · rw [e]
            rfl
        exact hsame (hkernel ▸ .refl r _)
  | create config u =>
    have htr : u ∉ r.nodes := fun hm => ha (h.registered hm)
    refine hsame ?_
    simp only [TaskOp.run]
    rcases Task.createStatic_cases s.kernel config u with ⟨hne, e⟩ | ⟨-, hok, e⟩
    · rw [if_neg hne, e]
      exact .refl r _
    · rw [if_pos hok, e]
      split
      · exact (Kernel.SameWaits.enroll htr).trans (.reschedule r _)
      · exact .enroll htr
  | switch => exact hsame (.performSwitch r _)
  | suspend handle =>
    refine hsame ?_
    simp only [TaskOp.run]
    rcases Task.suspend_cases s.kernel s.magic handle with ⟨-, e⟩ | ⟨t, ht, haccepts, e⟩
    · rw [e]
      exact .refl r _
    · have hcur := h.not_current (hlists t ht (Task.accepts_iff.1 haccepts).1).1
      simp only [e, hcur, false_and, if_false]
      exact .suspendSection
  | resume handle =>
    refine hsame ?_
    simp only [TaskOp.run]
    rcases Task.resume_cases s.kernel s.magic handle with ⟨-, e⟩ | ⟨t, -, -, -, e⟩
    · rw [e]
      exact .refl r _
    · rw [e]
      simp only
      split
      · exact Kernel.SameWaits.addReady.trans (.reschedule r _)
      · exact .addReady
  | delete handle =>
    refine hsame ?_
    simp only [TaskOp.run]
    rcases Task.delete_cases s.kernel s.magic handle with ⟨-, e⟩ | ⟨t, ht, haccepts, e⟩
    · rw [e]
      exact .refl r _
    · have hcur := h.not_current (hlists t ht (Task.accepts_iff.1 haccepts).1).1
      simp only [e, hcur, false_and, if_false]
      exact .deleteSection
  | setPriority handle p =>
    refine hsame ?_
    simp only [TaskOp.run]
    rcases Task.setPriority_cases s.kernel s.magic handle p with ⟨-, e⟩ | ⟨t, -, -, -, e⟩
    · rw [e]
      exact .refl r _
    · rw [e]
      exact (Kernel.SameWaits.setPrioritySection p).trans (.reschedule r _)
  | deleteMutex m => exact absurd rfl (hdelete m)

/-! ## On the wait list and off it -/

/-- The loop that empties one list leaves the tasks on another where they are. -/
theorem Ordered.unblockAll_waits [hP : Kernel.Lockable P] {V : WaitList} (h : s.Ordered P r)
    (hV : V ≠ W) (hm : t ∈ (s.kernel.waitLists W).nodes) :
    t ∈ ((Scheduler.unblockAll s.kernel V).waitLists W).nodes ∧
      ((s.kernel.tcb t).delayTicks = 0 →
        ((Scheduler.unblockAll s.kernel V).tcb t).delayTicks = 0) := by
  refine (unblockAll_induction (motive := fun k => (s.setKernel k).Ordered P r ∧
    t ∈ (k.waitLists W).nodes ∧ ((s.kernel.tcb t).delayTicks = 0 → (k.tcb t).delayTicks = 0))
    V ⟨{ h with }, hm, id⟩ fun k hk => ?_).2
  obtain ⟨hk, hm, ht⟩ := hk
  refine ⟨hk.unblock V, ?_⟩
  have hround := hk.settled.run_mem_waitList (a := .unblock V) trivial (W := W) hm
  rw [Call.run_among (a := .unblock V) _ _ trivial] at hround
  rcases hround with ⟨hin, hticks⟩ | ⟨-, ⟨e, -⟩ | ⟨e, -⟩⟩
  · exact ⟨hin, fun h0 => hticks (ht h0)⟩
  · exact absurd e (by simp)
  · exact absurd (Call.unblock.inj e) hV

/-- The deletion of a mutex takes its waiters off their list, and no other task off any list. -/
theorem Ordered.deleteMutex_waits [hP : Kernel.Lockable P] (h : s.Ordered P r)
    (hcond : (TaskOp.deleteMutex m).KeepsLists s) (hm : t ∈ (s.kernel.waitLists W).nodes) :
    (t ∈ (((TaskOp.deleteMutex m).run s).kernel.waitLists W).nodes ∧
      ((s.kernel.tcb t).delayTicks = 0 →
        (((TaskOp.deleteMutex m).run s).kernel.tcb t).delayTicks = 0)) ∨
    (t ∉ (((TaskOp.deleteMutex m).run s).kernel.waitLists W).nodes ∧ .mutex m = W) := by
  rcases Mutex.delete_cases s.system m with ⟨-, e⟩ | ⟨hmagic, e⟩
  · exact Or.inl (by rw [TaskOp.run, e]; exact ⟨hm, id⟩)
  have hrestored := h.restoreOwner (hcond hmagic)
  have hwaits : Kernel.SameWaits r s.kernel (Mutex.restoreOwner s.kernel (s.system.mutexes m)) :=
    .restoreOwner _
  have htr : t ∈ r.nodes := ((h.inv.lists.mem_waitList W).1 hm).1
  have hafter : ∀ k, k = Scheduler.unblockAll (Mutex.restoreOwner s.kernel (s.system.mutexes m))
      (.mutex m) → ((TaskOp.deleteMutex m).run s).kernel = Scheduler.reschedule k := by
    rintro k rfl
    rw [TaskOp.run, e]
    rfl
  rw [hafter _ rfl, reschedule_waitLists, reschedule_tcb, ← hwaits.delayTicks t htr]
  rw [← hwaits.waitLists] at hm
  by_cases hW : .mutex m = W
  · subst hW
    have hamong := hrestored.inv.lists.usable (.mutex m)
    have husable : (Mutex.restoreOwner s.kernel (s.system.mutexes m)).Usable (.mutex m) :=
      ⟨hamong.nodup, hamong.linked⟩
    exact Or.inr ⟨by rw [husable.unblockAll]; exact List.not_mem_nil, rfl⟩
  · exact Or.inl (hrestored.unblockAll_waits hW hm)

theorem Ordered.deleteMutex_subset [Kernel.Kept P] (h : s.Ordered P r) (m : ℕ) (W : WaitList) :
    (((TaskOp.deleteMutex m).run s).kernel.waitLists W).nodes ⊆ (s.kernel.waitLists W).nodes := by
  have hamong := h.inv.lists.usable W
  have husable : s.kernel.Usable W := ⟨hamong.nodup, hamong.linked⟩
  rcases Mutex.delete_cases s.system m with ⟨-, e⟩ | ⟨-, e⟩ <;> rw [TaskOp.run, e]
  · exact List.Subset.refl _
  · have hshrink : Kernel.Shrinks W s.kernel (Scheduler.reschedule (Scheduler.unblockAll
        (Mutex.restoreOwner s.kernel (s.system.mutexes m)) (.mutex m))) :=
      (Kernel.Shrinks.restoreOwner _).trans (Kernel.Shrinks.unblockAll.trans .reschedule)
    exact (hshrink husable).2

/-- **What a call does to a waiting task.**  The task stays on its wait list, or it is taken off by
an expiry or by a call that wakes the first waiter. -/
theorem Ordered.step_mem_waitList [hP : Kernel.Lockable P] (h : s.Ordered P r)
    (hs : TaskOp.OrderStep s a s') (hm : t ∈ (s.kernel.waitLists W).nodes) :
    (t ∈ (s'.kernel.waitLists W).nodes ∧
      ((s.kernel.tcb t).delayTicks = 0 → (s'.kernel.tcb t).delayTicks = 0)) ∨
    (t ∉ (s'.kernel.waitLists W).nodes ∧
      ((a = .api (.sched .tick) ∧ (s.kernel.tcb t).delayTicks = 1) ∨ a.Unblocks W)) := by
  by_cases hdelete : ∃ m, a = .deleteMutex m
  · obtain ⟨m, rfl⟩ := hdelete
    obtain ⟨⟨-, hlists, -⟩, rfl⟩ := hs
    exact (h.deleteMutex_waits hlists hm).imp_right fun ⟨hout, e⟩ => ⟨hout, Or.inr e⟩
  obtain ⟨k, b, hb⟩ := h.seenAs hs fun m e => hdelete ⟨m, e⟩
  have hsettled : (k.among r).Settled := hP.settled hb.kernel
  have htr : t ∈ r.nodes := ((h.inv.lists.mem_waitList W).1 hm).1
  have hm' : t ∈ ((k.among r).waitLists W).nodes := by
    rw [Kernel.among_waitLists, hb.before.waitLists]
    exact hm
  rw [hb.after.waitLists, hb.after.delayTicks t htr, ← hb.before.delayTicks t htr]
  rcases hsettled.run_mem_waitList hb.allowed hm' with hin | ⟨hout, ⟨e, h1⟩ | ⟨e, -⟩⟩
  · exact Or.inl hin
  · exact Or.inr ⟨hout, Or.inl ⟨hb.tick e, h1⟩⟩
  · exact Or.inr ⟨hout, Or.inr (hb.unblock W e)⟩

/-- A task that is not the current one is not put on a wait list. -/
theorem Ordered.step_notMem_waitList [hP : Kernel.Lockable P] (h : s.Ordered P r)
    (hs : TaskOp.OrderStep s a s') (hc : s.kernel.currentTcb ≠ some t)
    (hn : t ∉ (s.kernel.waitLists W).nodes) : t ∉ (s'.kernel.waitLists W).nodes := by
  by_cases hdelete : ∃ m, a = .deleteMutex m
  · obtain ⟨m, rfl⟩ := hdelete
    obtain ⟨-, rfl⟩ := hs
    exact fun hm => hn (h.deleteMutex_subset m W hm)
  obtain ⟨k, b, hb⟩ := h.seenAs hs fun m e => hdelete ⟨m, e⟩
  have hsettled : (k.among r).Settled := hP.settled hb.kernel
  rw [hb.after.waitLists]
  refine hsettled.run_notMem_waitList hb.allowed ?_ ?_
  · rw [Kernel.among_currentTcb, hb.currentTcb]
    exact hc
  · rw [Kernel.among_waitLists, hb.before.waitLists]
    exact hn

/-- A call that comes to its wait leaves its task on the wait list, with the ticks of its timeout. -/
theorem Ordered.step_waits [hP : Kernel.Lockable P] (h : s.Ordered P r)
    (hs : TaskOp.OrderStep s a s') (hw : a.Waits s t W timeout) :
    t ∈ (s'.kernel.waitLists W).nodes ∧ (s'.kernel.tcb t).delayTicks = Kernel.timeoutTicks timeout := by
  obtain ⟨⟨ha, -⟩, rfl⟩ := hs
  -- both kinds of calls are a call of `sertos_scheduler_wait_list_block`
  have hblock : ∀ k : Kernel, P (k.among r) → k.isRunning = true → k.currentTcb = some t →
      (Call.block W timeout).Allowed (k.among r) →
      Kernel.SameWaits r ((Call.block W timeout).run (k.among r)) (a.run s).kernel →
      t ∈ ((a.run s).kernel.waitLists W).nodes ∧
        ((a.run s).kernel.tcb t).delayTicks = Kernel.timeoutTicks timeout := by
    intro k hk hrun hc hallowed hafter
    have htr : t ∈ r.nodes := (hP.inv hk).current_live t hc
    rw [hafter.waitLists, hafter.delayTicks t htr]
    exact (hP.settled hk).run_block hrun hc hallowed
  cases a with
  | api a =>
    cases a with
    | sched b =>
      cases b with
      | block V n =>
        obtain ⟨rfl, rfl, hrun, hc⟩ := hw
        refine hblock s.kernel h.kernel hrun hc ((Call.allowed_among ha.2.1).2 ha.1.1) ?_
        rw [Call.run_among_of_not_creates _ _ ha.2.1]
        exact ⟨rfl, fun _ _ => rfl⟩
      | _ => exact hw.elim
    | lock m n =>
      obtain ⟨rfl, rfl, hnone, hc⟩ := hw
      have he := Mutex.lock_effect s.system m n
      have hs' : ((TaskOp.api (.lock m n)).run s).kernel = (Mutex.lock s.system m n).1.kernel := rfl
      generalize Mutex.lock s.system m n = x at he hnone hs'
      cases he with
      | invalid | noTask | acquire | again | fail => exact absurd hnone (by simp)
      | @wait c o hc' ho hoc ht hrun =>
        obtain rfl := Option.some_inj.1 (hc.symm.trans hc')
        have hseen := h.seenAs_block ha hc ho hoc ht hrun hs'
        refine hblock _ hseen.kernel ?_ (hseen.currentTcb.trans hc) hseen.allowed hseen.after
        rw [Mutex.applyPriorityInheritance_frame]
        exact hrun
    | dispatch u => exact hw.elim
    | resume => exact hw.elim
    | unlock m => exact hw.elim
  | _ => exact hw.elim

/-- On the run from `s₁` to `s₂`, a step of kind `p` took `t` off `W`. -/
def TakenOff (t : TaskId) (W : WaitList) (p : TaskOp → Prop) (s₁ : Tasks) (ops : List TaskOp)
    (s₂ : Tasks) : Prop :=
  ∃ before a after s s', ops = before ++ a :: after ∧ Trace TaskOp.OrderStep s₁ before s ∧
    TaskOp.OrderStep s a s' ∧ Trace TaskOp.OrderStep s' after s₂ ∧
    t ∈ (s.kernel.waitLists W).nodes ∧ t ∉ (s'.kernel.waitLists W).nodes ∧ p a

/-- A task that is no longer on `W` was taken off by an expiry or by an event. -/
theorem takenOff_of_run [Kernel.Lockable P] (hrun : Trace TaskOp.OrderStep s₁ ops s₂)
    (h₁ : ∃ r, s₁.Ordered P r) (hm : t ∈ (s₁.kernel.waitLists W).nodes)
    (hn : t ∉ (s₂.kernel.waitLists W).nodes) :
    TakenOff t W (· = .api (.sched .tick)) s₁ ops s₂ ∨ TakenOff t W (·.Unblocks W) s₁ ops s₂ := by
  obtain ⟨before, a, after, s, s', hsplit, hb, hstep, ha, hs, hs'⟩ :=
    hrun.exists_step (P := fun s => t ∈ (s.kernel.waitLists W).nodes) hm hn
  obtain ⟨r, h⟩ := ordered_of_run hb h₁
  rcases h.step_mem_waitList hstep hs with ⟨hin, -⟩ | ⟨-, ⟨e, -⟩ | e⟩
  · exact absurd hin hs'
  · exact Or.inl ⟨before, a, after, s, s', hsplit, hb, hstep, ha, hs, hs', e⟩
  · exact Or.inr ⟨before, a, after, s, s', hsplit, hb, hstep, ha, hs, hs', e⟩

/-- A task that waits without counting ticks is not taken off by an expiry. -/
theorem not_takenOff_tick [Kernel.Lockable P] (h₁ : ∃ r, s₁.Ordered P r)
    (hd : (s₁.kernel.tcb t).delayTicks = 0)
    (hnext : Trace.AllSteps TaskOp.OrderStep (fun s _ _ => s.kernel.currentTcb ≠ some t) s₁ ops s₂) :
    ¬ TakenOff t W (· = .api (.sched .tick)) s₁ ops s₂ := by
  -- as long as `t` does not run, it counts no ticks while it is on `W`
  have hall := hnext.invariant
    (I := fun s : Tasks => (∃ r, s.Ordered P r) ∧
      (t ∈ (s.kernel.waitLists W).nodes → (s.kernel.tcb t).delayTicks = 0))
    (fun s a s' ⟨⟨r, h⟩, hs⟩ hstep hc => by
      refine ⟨h.step hstep, fun hm' => ?_⟩
      by_cases hm : t ∈ (s.kernel.waitLists W).nodes
      · rcases h.step_mem_waitList hstep hm with ⟨-, hd'⟩ | ⟨hout, -⟩
        · exact hd' (hs hm)
        · exact absurd hm' hout
      · exact absurd hm' (h.step_notMem_waitList hstep hc hm))
    ⟨h₁, fun _ => hd⟩
  rintro ⟨before, a, after, s, s', hsplit, hb, hstep, ha, hs, hs', rfl⟩
  obtain ⟨⟨r, h⟩, hds⟩ := hall before (.api (.sched .tick) :: after) s hsplit hb (.cons hstep ha)
  rcases h.step_mem_waitList hstep hs with ⟨hin, -⟩ | ⟨-, ⟨-, h1⟩ | e⟩
  · exact hs' hin
  · exact absurd ((hds hs).symm.trans h1) (by simp)
  · exact e

/-! ## The status -/

/-- When the task runs again, it is on no wait list, and its call returns `OK` exactly if it waited
for ever. -/
theorem Ordered.returns [hP : Kernel.Lasting P] (h : s.Ordered P r)
    (hc : s.kernel.currentTcb = some t) (W : WaitList) (timeout : ℕ) :
    t ∉ (s.kernel.waitLists W).nodes ∧ waitListBlockStatus s.kernel t timeout =
      if timeout = waitForever then .ok else .errorTimeout :=
  ⟨(h.settled.current_clear hc).2.2 W, h.settled.waitListBlockStatus_eq hc timeout⟩

/-- **When the wake-up status is truthful.**  In a run whose calls are in order, take a call in which
the running task `t` comes to the wait of `sertos_scheduler_wait_list_block` and the state `s₂` in
which `t` runs next.  The wait returns `OK` exactly if an event took `t` off `W`, and
`ERROR_TIMEOUT` exactly if the expiry did, if and only if the timeout is `SERTOS_WAIT_FOREVER` or no
event took `t` off. -/
theorem wake_up_truthful_iff {mem : Kernel} {config : Option Config} {idleStack : ℕ}
    (hinit : (initWithConfig mem config idleStack).2 = .ok) {sems : ℕ → Semaphore}
    {pre : List TaskOp} {s₀ : Tasks}
    (hpre : Trace TaskOp.OrderStep (init (initWithConfig mem config idleStack).1 sems) pre s₀)
    (hwaits : a.Waits s₀ t W timeout) (hstep : TaskOp.OrderStep s₀ a s₁)
    (hrun : Trace TaskOp.OrderStep s₁ ops s₂) (ht₂ : s₂.kernel.currentTcb = some t)
    (hnext : ∀ before after s, ops = before ++ after → after ≠ [] →
      Trace TaskOp.OrderStep s₁ before s → s.kernel.currentTcb ≠ some t) :
    ((waitListBlockStatus s₂.kernel t timeout = .ok ↔ TakenOff t W (·.Unblocks W) s₁ ops s₂) ∧
      (waitListBlockStatus s₂.kernel t timeout = .errorTimeout ↔
        TakenOff t W (· = .api (.sched .tick)) s₁ ops s₂)) ↔
    (timeout = waitForever ∨ ¬ TakenOff t W (·.Unblocks W) s₁ ops s₂) := by
  obtain ⟨r₀, h₀⟩ := steady_of_run hinit hpre
  obtain ⟨hm₁, hd₁⟩ := h₀.step_waits hstep hwaits
  have h₁ := h₀.step hstep
  obtain ⟨r₂, h₂⟩ := ordered_of_run hrun h₁
  obtain ⟨hout, hstatus⟩ := h₂.returns ht₂ W timeout
  have hoff := takenOff_of_run hrun h₁ hm₁ hout
  rw [hstatus]
  by_cases hf : timeout = waitForever
  · -- the task counts no ticks, so an event took it off, and `OK` says so
    subst hf
    have hall : Trace.AllSteps TaskOp.OrderStep (fun s _ _ => s.kernel.currentTcb ≠ some t)
        s₁ ops s₂ := fun bs a cs s v hsplit h1 _ _ => hnext bs (a :: cs) s hsplit (by simp) h1
    have hnot := not_takenOff_tick (W := W) h₁ (hd₁.trans rfl) hall
    simp only [if_true, true_iff, true_or, iff_true, reduceCtorEq, false_iff]
    exact ⟨hoff.resolve_left hnot, hnot⟩
  · -- the status is `ERROR_TIMEOUT` whatever took the task off
    simp only [hf, if_false, false_or, reduceCtorEq, false_iff, true_iff]
    exact ⟨fun h => h.1, fun h => ⟨h, hoff.resolve_right h⟩⟩

/-- Task 1 runs. -/
def oneTaskRuns : Tasks := oneTask.foldl TaskOp.run fresh

/-- Task 1 blocks, an event wakes it, and it runs again after the reschedule. -/
def eventCalls : List TaskOp := [.api (.sched (.unblock (.sem 0))), .api (.sched .reschedule)]

/-- The wait of task 1. -/
def waitCall (timeout : ℕ) : TaskOp := .api (.sched (.block (.sem 0) timeout))

/-- An infinite timeout: the status tells that an event took the task off. -/
theorem wake_up_truthful_iff_forever :
    waitListBlockStatus
        (eventCalls.foldl TaskOp.run ((waitCall waitForever).run oneTaskRuns)).kernel 1 waitForever
      = .ok ∧
    TakenOff 1 (.sem 0) (·.Unblocks (.sem 0)) ((waitCall waitForever).run oneTaskRuns) eventCalls
      (eventCalls.foldl TaskOp.run ((waitCall waitForever).run oneTaskRuns)) := by
  have hstatus : waitListBlockStatus
      (eventCalls.foldl TaskOp.run ((waitCall waitForever).run oneTaskRuns)).kernel 1 waitForever
      = .ok := by decide +kernel
  have hpre : Trace TaskOp.OrderStep fresh oneTask oneTaskRuns := Trace.of_guards (by decide +kernel)
  have hrun : Guards (fun s a => a.Allowed s ∧ a.InOrder s) TaskOp.run
      ((waitCall waitForever).run oneTaskRuns) eventCalls := by decide +kernel
  have hcur : ∀ n < 2, ((eventCalls.take n).foldl TaskOp.run
      ((waitCall waitForever).run oneTaskRuns)).kernel.currentTcb ≠ some 1 := by decide +kernel
  have hwaits : (waitCall waitForever).Waits oneTaskRuns 1 (.sem 0) waitForever :=
    ⟨rfl, rfl, by decide +kernel, by decide +kernel⟩
  have h := (wake_up_truthful_iff (by decide) hpre hwaits ⟨by decide +kernel, rfl⟩
    (Trace.of_guards hrun) (by decide +kernel) (fun before after s hsplit hne h => by
      have hlen : 2 = before.length + after.length := by
        rw [← List.length_append, ← hsplit]; rfl
      have hpos := List.length_pos_of_ne_nil hne
      rw [h.eq_foldl_take hsplit]
      exact hcur _ (by omega))).2 (Or.inl rfl)
  exact ⟨hstatus, h.1.1 hstatus⟩

/-- **A wake-up by an event, reported as a timeout.**  Task 1 waits for at most five ticks, an event
takes it off the list before the first of them, and the call returns `ERROR_TIMEOUT`. -/
theorem wake_up_reported_as_timeout :
    ∃ s₂, Trace TaskOp.OrderStep fresh oneTask oneTaskRuns ∧
      (waitCall 5).Waits oneTaskRuns 1 (.sem 0) 5 ∧
      TaskOp.OrderStep oneTaskRuns (waitCall 5) ((waitCall 5).run oneTaskRuns) ∧
      Trace TaskOp.OrderStep ((waitCall 5).run oneTaskRuns) eventCalls s₂ ∧
      s₂.kernel.currentTcb = some 1 ∧ waitListBlockStatus s₂.kernel 1 5 = .errorTimeout ∧
      TakenOff 1 (.sem 0) (·.Unblocks (.sem 0)) ((waitCall 5).run oneTaskRuns) eventCalls s₂ ∧
      ¬ TakenOff 1 (.sem 0) (· = .api (.sched .tick)) ((waitCall 5).run oneTaskRuns) eventCalls
        s₂ := by
  have hoff : Trace TaskOp.OrderStep
      ((TaskOp.api (.sched (.unblock (.sem 0)))).run ((waitCall 5).run oneTaskRuns))
      [.api (.sched .reschedule)] (eventCalls.foldl TaskOp.run ((waitCall 5).run oneTaskRuns)) :=
    Trace.of_guards (by decide +kernel)
  refine ⟨_, Trace.of_guards (by decide +kernel), ⟨rfl, rfl, by decide +kernel, by decide +kernel⟩,
    ⟨by decide +kernel, rfl⟩, Trace.of_guards (by decide +kernel), by decide +kernel,
    by decide +kernel, ⟨[], .api (.sched (.unblock (.sem 0))), [.api (.sched .reschedule)], _, _,
      rfl, .nil _, ⟨by decide +kernel, rfl⟩, hoff, by decide +kernel, by decide +kernel, rfl⟩, ?_⟩
  rintro ⟨before, a, after, -, -, hsplit, -, -, -, -, -, rfl⟩
  have hmem : .api (.sched .tick) ∈ eventCalls := by rw [hsplit]; simp
  exact absurd hmem (by decide)

end Tasks

end Sertos
