import Sertos.Cycle
import Sertos.PriorityInheritance
import Sertos.Sleepers

/-!
# Locks that wait

What holds between the steps of a run in which tasks lock mutexes with any timeouts, the tick ends
some of their waits, and mutexes and tasks are deleted.  A task in its wait is either on the wait
list, and on the delay list only if its timeout is finite, or on no list any more; and then it owns
the mutex if it was to wait for ever, unless the mutex is gone, and has no ticks left if not
(`System.Pending`).  So what `sertos_mutex_lock` does when its caller runs again changes no owner.
-/

set_option autoImplicit false

namespace Sertos

open Intrusive Lts Scheduler

namespace Kernel

/-! ## Calls that leave the waits alone -/

/-- What a control block says about its wait. -/
def waitFields (b : Tcb) : Option WaitList × Bool × ℕ := (b.waitList, b.eventLinked, b.delayTicks)

/-- No wait and no priority changes, and nobody is put on a list where tasks wait. -/
structure Quiet (k k' : Kernel) : Prop where
  waitLists : k'.waitLists = k.waitLists
  delay : k'.delayList.nodes.Sublist k.delayList.nodes
  waits : ∀ t, waitFields (k'.tcb t) = waitFields (k.tcb t)
  priorities : ∀ t, priorityFields (k'.tcb t) = priorityFields (k.tcb t)

namespace Quiet

variable {k k' k'' : Kernel} {t : TaskId}

theorem refl (k : Kernel) : Quiet k k := ⟨rfl, List.Sublist.refl _, fun _ => rfl, fun _ => rfl⟩

theorem trans (h : Quiet k k') (h' : Quiet k' k'') : Quiet k k'' :=
  ⟨h'.waitLists.trans h.waitLists, h'.delay.trans h.delay,
    fun t => (h'.waits t).trans (h.waits t), fun t => (h'.priorities t).trans (h.priorities t)⟩

theorem addReady (k : Kernel) (t : TaskId) : Quiet k (addReady k t).1 := by
  refine ⟨by rw [addReady_frame], by rw [addReady_delayList], fun u => ?_, fun u => ?_⟩
  all_goals
    by_cases hu : u = t
    · rw [hu, addReady_tcb_same]; rfl
    · rw [addReady_tcb_of_ne k t hu]

theorem withdraw (k : Kernel) (t : TaskId) : Quiet k (Task.withdraw k t) := by
  refine ⟨?_, ?_, fun u => by rw [Task.withdraw_tcb], fun u => by rw [Task.withdraw_tcb]⟩
  all_goals
    rw [Task.withdraw]
    split
  · rw [removeReady_frame]
  · rfl
  · exact removeReady_delayList_sublist k t
  · exact List.Sublist.refl _

theorem setState (k : Kernel) (t : TaskId) (state : TaskState) :
    Quiet k (k.modify t fun b => { b with state := state }) := by
  refine ⟨rfl, List.Sublist.refl _, fun u => ?_, fun u => ?_⟩
  all_goals
    by_cases hu : u = t
    · rw [hu, modify_tcb_same]; rfl
    · rw [modify_tcb_of_ne k t _ hu]

theorem suspendSection (k : Kernel) (t : TaskId) : Quiet k (Task.suspendSection k t) :=
  (withdraw k t).trans (setState _ t _)

theorem deleteSection (k : Kernel) (t : TaskId) : Quiet k (Task.deleteSection k t) := by
  have hregister : ∀ r, Quiet (Task.withdraw k t) ((Task.withdraw k t).among r) := fun _ =>
    ⟨rfl, List.Sublist.refl _, fun _ => rfl, fun _ => rfl⟩
  rw [Task.deleteSection, Task.unregisterTask_eq]
  exact (withdraw k t).trans ((hregister _).trans (setState _ t _))

theorem yield (k : Kernel) : Quiet k (yield k) := by
  refine ⟨?_, ?_, fun u => ?_, fun u => ?_⟩
  · rw [Scheduler.yield, switchContext_waitLists, processTimeSlicing_frame]
  · exact (Rouses.switchContext (P := fun _ => False)).delay.trans
      (Rouses.processTimeSlicing (P := fun _ => False)).delay
  all_goals
    rw [Scheduler.yield, switchContext_tcb, processTimeSlicing_tcb]
    rfl

theorem reschedule (k : Kernel) : Quiet k (reschedule k) := by
  refine ⟨reschedule_waitLists k, (Rouses.reschedule (P := fun _ => False)).delay, fun u => ?_,
    fun u => ?_⟩
  all_goals
    rw [reschedule_tcb]
    rfl

end Quiet

end Kernel

namespace System

variable {s s' : System} {m n timeout : ℕ} {c o t w : TaskId} {k : Kernel} {P : TaskId → Prop}

/-! ## Who holds a mutex -/

/-- The task that holds `m`.  Nobody holds a mutex that has been deleted, whatever its memory
says. -/
def holderOf (s : System) (m : ℕ) : Option TaskId :=
  if (s.mutexes m).magic = mutexMagicWord then (s.mutexes m).owner else none

theorem holderOf_of_valid (h : (s.mutexes m).magic = mutexMagicWord) :
    s.holderOf m = (s.mutexes m).owner := if_pos h

theorem holderOf_of_deleted (h : (s.mutexes m).magic ≠ mutexMagicWord) : s.holderOf m = none :=
  if_neg h

theorem holderOf_eq_some : s.holderOf m = some t ↔
    (s.mutexes m).magic = mutexMagicWord ∧ (s.mutexes m).owner = some t := by
  rw [holderOf]
  split
  · next h => simp [h]
  · next h => simp [h]

theorem holderOf_setMutex_of_ne (x : Mutex) (hn : n ≠ m) :
    (s.setMutex m x).holderOf n = s.holderOf n := by
  rw [holderOf, holderOf, setMutex_mutexes_of_ne _ _ _ hn]

theorem holderOf_setMutex_same {x : Mutex} (hx : x.magic = mutexMagicWord) :
    (s.setMutex m x).holderOf m = x.owner := by
  rw [holderOf, setMutex_mutexes_same, if_pos hx]

/-- Only the other fields of a mutex are written. -/
theorem holderOf_setMutex_of_eq {x : Mutex} (hmagic : x.magic = (s.mutexes m).magic)
    (howner : (s.mutexes m).magic = mutexMagicWord → x.owner = (s.mutexes m).owner) (n : ℕ) :
    (s.setMutex m x).holderOf n = s.holderOf n := by
  by_cases hn : n = m
  · subst hn
    rw [holderOf, holderOf, setMutex_mutexes_same, hmagic]
    split
    · next h => exact howner h
    · rfl
  · exact holderOf_setMutex_of_ne x hn

/-! ## The invariant -/

/-- The task `t` is in its wait for `m`, or its wait has ended. -/
def Pending (s : System) (t : TaskId) (m timeout : ℕ) : Prop :=
  ((s.kernel.tcb t).waitList = some (.mutex m) ∧
    (timeout = waitForever → t ∉ s.kernel.delayList.nodes)) ∨
  ((s.kernel.tcb t).waitList = none ∧
    (timeout = waitForever → (s.mutexes m).magic = mutexMagicWord →
      (s.mutexes m).owner = some t) ∧
    (timeout ≠ waitForever → (s.kernel.tcb t).delayTicks = 0))

/-- What holds between the steps. -/
structure Dozing (s : System) : Prop where
  waiters : s.kernel.Waiters
  nodup : s.kernel.delayList.nodes.Nodup
  /-- Nobody waits for a mutex that nobody holds. -/
  free : ∀ m, s.holderOf m = none → s.waiters m = []
  owner : ∀ m o, s.holderOf m = some o →
    s.kernel.Live o ∧ (s.mutexes m).originalOwnerPriority < maxPriorities
  base : ∀ t, s.kernel.Live t → s.basePriority t < maxPriorities
  pending : ∀ t m timeout, s.pc t = .mutexWait m timeout → s.kernel.Live t ∧ s.Pending t m timeout

/-- The task `t` holds `m`, and no other mutex. -/
def HoldsAlone (s : System) (t : TaskId) (m : ℕ) : Prop := ∀ n, s.holderOf n = some t ↔ n = m

theorem holdsAlone_of_rest (h : s.holderOf 0 = some t) (hrest : ∀ n, s.holderOf (n + 1) = none) :
    s.HoldsAlone t 0 := by
  intro n
  cases n with
  | zero => simp [h]
  | succ n => simp [hrest n]

/-- The task has nothing to do with a mutex: it holds none, waits for none and is in no lock. -/
structure Uninvolved (s : System) (t : TaskId) : Prop where
  idle : s.pc t = .idle
  awake : (s.kernel.tcb t).waitList = none
  holdsNone : ∀ m, s.holderOf m ≠ some t

theorem Dozing.mem_waiters (h : s.Dozing) :
    t ∈ s.waiters m ↔ s.kernel.Live t ∧ (s.kernel.tcb t).waitList = some (.mutex m) :=
  h.waiters.mem_iff (.mutex m) t

/-- Tasks are woken, and those that were to wait for ever own the mutex.  A mutex may be deleted
when its waiters are gone. -/
theorem Dozing.rouse_discard (h : s.Dozing) {mutexes : ℕ → Mutex} (hp : s.kernel.SamePriorities k)
    (ht : Kernel.Thins s.kernel k) (hr : Kernel.Rouses P s.kernel k)
    (hm : ∀ m, mutexes m = s.mutexes m ∨
      ((mutexes m).magic ≠ mutexMagicWord ∧ (k.waitLists (.mutex m)).nodes = []))
    (hP : ∀ t m, s.pc t = .mutexWait m waitForever → P t → t ∈ s.waiters m →
      (mutexes m).magic = mutexMagicWord → (s.mutexes m).owner = some t) :
    ({ s with kernel := k, mutexes := mutexes } : System).Dozing := by
  obtain ⟨hlive, hk, hsub, -⟩ := ht h.waiters
  have hvalid : ∀ m, (mutexes m).magic = mutexMagicWord → mutexes m = s.mutexes m := fun m hv =>
    (hm m).resolve_right fun hgone => hgone.1 hv
  refine ⟨hk, h.nodup.sublist hr.delay, fun m hnone => ?_, fun m o ho => ?_, fun t ht => ?_,
    fun t m timeout hpc => ?_⟩
  · rcases hm m with e | ⟨-, hnil⟩
    · have hnil := hsub (.mutex m)
      rw [show (s.kernel.waitLists (.mutex m)).nodes = [] from
        h.free m (by rw [holderOf, ← e]; exact hnone)] at hnil
      exact List.sublist_nil.1 hnil
    · exact hnil
  · obtain ⟨hv, ho⟩ := holderOf_eq_some.1 ho
    have e := hvalid m hv
    obtain ⟨holive, hlt⟩ := h.owner m o (holderOf_eq_some.2 ⟨e ▸ hv, e ▸ ho⟩)
    exact ⟨hlive o holive, (congrArg Mutex.originalOwnerPriority e).trans_lt hlt⟩
  · rcases hp.born t ht with hold | ⟨p, hlt, e⟩
    · exact (hp.basePriority hold).trans_lt (h.base t hold)
    · exact (Prod.mk.inj e).2.trans_lt hlt
  · obtain ⟨ht, hpend⟩ := h.pending t m timeout hpc
    have hkept : ∀ {T : Prop}, ((s.mutexes m).magic = mutexMagicWord → T) →
        (mutexes m).magic = mutexMagicWord → T := fun hT hv => hT (hvalid m hv ▸ hv)
    refine ⟨hlive t ht, ?_⟩
    rcases hr.waitList t ht with e | ⟨hPt, hnone, hticks⟩
    · rcases hpend with ⟨hW, hdelay⟩ | ⟨hnone, hown, hticks⟩
      · exact .inl ⟨e.trans hW, fun hf hm => hdelay hf (hr.delay.subset hm)⟩
      · refine .inr ⟨e.trans hnone, fun hf hv => ?_, fun hf => hr.ticks t ht (hticks hf)⟩
        exact (congrArg Mutex.owner (hvalid m hv)).trans (hkept (hown hf) hv)
    · refine .inr ⟨hnone, fun hf hv => (congrArg Mutex.owner (hvalid m hv)).trans ?_,
        fun _ => hticks⟩
      rcases hpend with ⟨hW, -⟩ | ⟨-, hown, -⟩
      · subst hf
        exact hP t m hpc hPt (h.mem_waiters.2 ⟨ht, hW⟩) hv
      · exact hkept (hown hf) hv

/-- Tasks are woken. -/
theorem Dozing.rouse (h : s.Dozing) (hp : s.kernel.SamePriorities k) (ht : Kernel.Thins s.kernel k)
    (hr : Kernel.Rouses P s.kernel k)
    (hP : ∀ t m, s.pc t = .mutexWait m waitForever → P t → t ∈ s.waiters m →
      (s.mutexes m).magic = mutexMagicWord → (s.mutexes m).owner = some t) :
    ({ s with kernel := k } : System).Dozing :=
  h.rouse_discard hp ht hr (fun _ => .inl rfl) hP

/-- Nobody is woken. -/
theorem Dozing.still (h : s.Dozing) (hp : s.kernel.SamePriorities k) (ht : Kernel.Thins s.kernel k)
    (hr : Kernel.Rouses (fun _ => False) s.kernel k) : ({ s with kernel := k } : System).Dozing :=
  h.rouse hp ht hr fun _ _ _ hF => hF.elim

theorem Dozing.switchContext (h : s.Dozing) :
    ({ s with kernel := switchContext s.kernel } : System).Dozing :=
  h.still .switchContext .switchContext .switchContext

theorem Dozing.reschedule (h : s.Dozing) :
    ({ s with kernel := reschedule s.kernel } : System).Dozing :=
  h.still .reschedule .reschedule .reschedule

/-- The task `c`, which is in no lock, is put to sleep. -/
theorem Dozing.lull (h : s.Dozing) (hpc : s.pc c = .idle) (hc : c ∉ s.kernel.delayList.nodes)
    (hp : s.kernel.SamePriorities k) (hl : Kernel.Lulls c s.kernel k) (hk : k.Waiters)
    (hfree : ∀ m, s.holderOf m = none → (k.waitLists (.mutex m)).nodes = []) :
    ({ s with kernel := k } : System).Dozing := by
  refine ⟨hk, hl.nodup h.nodup hc, hfree, fun m o ho => ?_, fun t ht => ?_, fun t m timeout ht => ?_⟩
  · exact ⟨hp.live (h.owner m o ho).1, (h.owner m o ho).2⟩
  · have hold := (hl.live t).1 ht
    exact (hp.basePriority hold).trans_lt (h.base t hold)
  · have hne : t ≠ c := by
      rintro rfl
      exact absurd (hpc.symm.trans ht) (by simp)
    obtain ⟨hlive, hpend⟩ := h.pending t m timeout ht
    refine ⟨hp.live hlive, ?_⟩
    simp only [Pending, hl.tcb t hne, hl.delay t hne]
    exact hpend

/-- Priorities and states are written, and the state lists change, but nobody is put to sleep or
woken.  Tasks that the mutexes do not matter to may be deleted. -/
theorem Dozing.dismiss (h : s.Dozing) (hlive : ∀ t, k.Live t → s.kernel.Live t)
    (hkept : ∀ t, s.kernel.Live t → k.Live t ∨ s.Uninvolved t)
    (hlists : k.waitLists = s.kernel.waitLists)
    (hdelay : k.delayList.nodes.Sublist s.kernel.delayList.nodes)
    (htcb : ∀ t, Kernel.waitFields (k.tcb t) = Kernel.waitFields (s.kernel.tcb t))
    (hp : ∀ t, s.kernel.Live t → (k.tcb t).priority < maxPriorities ∧
      (k.tcb t).basePriority < maxPriorities) : ({ s with kernel := k } : System).Dozing := by
  simp only [Kernel.waitFields, Prod.mk.injEq] at htcb
  have hwaits : ∀ W t, k.WaitsOn W t ↔ s.kernel.WaitsOn W t := by
    intro W t
    rw [Kernel.WaitsOn, Kernel.WaitsOn, (htcb t).1]
    refine ⟨fun hw => ⟨hlive t hw.1, hw.2⟩, fun hw => ⟨?_, hw.2⟩⟩
    exact (hkept t hw.1).resolve_right fun hu => absurd (hu.awake.symm.trans hw.2) (by simp)
  refine ⟨⟨fun W => ?_, fun W t => ?_, fun W t ht => ?_, fun t ht => (hp t (hlive t ht)).1⟩,
    h.nodup.sublist hdelay, fun m hm => ?_, fun m o ho => ?_, fun t ht => (hp t (hlive t ht)).2,
    fun t m timeout hpc => ?_⟩
  · simp only [hlists]
    exact h.waiters.nodup W
  · simp only [hlists, hwaits]
    exact h.waiters.mem_iff W t
  · simp only [hlists] at ht
    exact (htcb t).2.1.trans (h.waiters.linked W t ht)
  · simp only [System.waiters, hlists]
    exact h.free m hm
  · obtain ⟨holive, hlt⟩ := h.owner m o ho
    exact ⟨(hkept o holive).resolve_right fun hu => hu.holdsNone m ho, hlt⟩
  · obtain ⟨ht, hpend⟩ := h.pending t m timeout hpc
    refine ⟨(hkept t ht).resolve_right fun hu => absurd (hu.idle.symm.trans hpc) (by simp), ?_⟩
    simp only [Pending, (htcb t).1, (htcb t).2.2]
    exact hpend.imp_left (And.imp_right fun hf e hm => hf e (hdelay.subset hm))

/-- No task is deleted. -/
theorem Dozing.reprioritise (h : s.Dozing) (hreg : k.taskRegistry = s.kernel.taskRegistry)
    (hlists : k.waitLists = s.kernel.waitLists)
    (hdelay : k.delayList.nodes.Sublist s.kernel.delayList.nodes)
    (htcb : ∀ t, Kernel.waitFields (k.tcb t) = Kernel.waitFields (s.kernel.tcb t))
    (hp : ∀ t, s.kernel.Live t → (k.tcb t).priority < maxPriorities ∧
      (k.tcb t).basePriority < maxPriorities) : ({ s with kernel := k } : System).Dozing := by
  have hlive : ∀ t, k.Live t ↔ s.kernel.Live t := fun t => by rw [Kernel.Live, Kernel.Live, hreg]
  exact h.dismiss (fun t => (hlive t).1) (fun t ht => .inl ((hlive t).2 ht)) hlists hdelay htcb hp

/-- A mutex that has not been deleted gets a new owner, or none if nobody waits; who was woken as
its owner stays its owner. -/
theorem Dozing.setMutex (h : s.Dozing) {x : Mutex} (hmagic : x.magic = (s.mutexes m).magic)
    (hx : (s.mutexes m).magic = mutexMagicWord → (x.owner = none → s.waiters m = []) ∧
      (∀ o, x.owner = some o → s.kernel.Live o ∧ x.originalOwnerPriority < maxPriorities) ∧
      ∀ t, s.pc t = .mutexWait m waitForever → (s.mutexes m).owner = some t →
        x.owner = some t) : (s.setMutex m x).Dozing := by
  refine ⟨h.waiters, h.nodup, fun n hn => ?_, fun n o ho => ?_, h.base, fun t n timeout hpc => ?_⟩
  · by_cases hnm : n = m
    · subst hnm
      by_cases hv : (s.mutexes n).magic = mutexMagicWord
      · rw [holderOf_setMutex_same (hmagic.trans hv)] at hn
        exact (hx hv).1 hn
      · exact h.free n (holderOf_of_deleted hv)
    · rw [holderOf_setMutex_of_ne x hnm] at hn
      exact h.free n hn
  · by_cases hnm : n = m
    · subst hnm
      obtain ⟨hv, ho⟩ := holderOf_eq_some.1 ho
      rw [setMutex_mutexes_same] at hv ho ⊢
      exact (hx (hmagic.symm.trans hv)).2.1 o ho
    · rw [holderOf_setMutex_of_ne x hnm] at ho
      rw [setMutex_mutexes_of_ne _ _ _ hnm]
      exact h.owner n o ho
  · obtain ⟨hlive, hpend⟩ := h.pending t n timeout hpc
    refine ⟨hlive, hpend.imp_right fun ⟨hnone, hown, hticks⟩ => ⟨hnone, fun hf hv => ?_, hticks⟩⟩
    by_cases hnm : n = m
    · subst hnm hf
      rw [setMutex_mutexes_same] at hv ⊢
      have hv' := hmagic.symm.trans hv
      exact (hx hv').2.2 t hpc (hown rfl hv')
    · rw [setMutex_mutexes_of_ne _ _ _ hnm] at hv ⊢
      exact hown hf hv

/-- The task `c` enters a lock or leaves it. -/
theorem Dozing.setPc (h : s.Dozing) {p : Pc}
    (hp : ∀ m timeout, p = .mutexWait m timeout → s.kernel.Live c ∧ s.Pending c m timeout) :
    (s.setPc c p).Dozing := by
  refine ⟨h.waiters, h.nodup, h.free, h.owner, h.base, fun t m timeout hpc => ?_⟩
  by_cases htc : t = c
  · subst htc
    rw [setPc_pc_same] at hpc
    exact hp m timeout hpc
  · rw [setPc_pc_of_ne _ _ _ htc] at hpc
    exact h.pending t m timeout hpc

/-! ## Steps -/

/-- The current task has been created, waits for nothing and is not delayed. -/
def CallerAwake (s : System) : Prop :=
  ∀ c ∈ s.kernel.currentTcb, s.kernel.Live c ∧ (s.kernel.tcb c).waitList = none ∧
    c ∉ s.kernel.delayList.nodes

instance (s : System) : Decidable s.CallerAwake :=
  inferInstanceAs (Decidable (∀ c ∈ s.kernel.currentTcb, s.kernel.Live c ∧
    (s.kernel.tcb c).waitList = none ∧ c ∉ s.kernel.delayList.nodes))

end System

namespace PriorityCall

/-- The call uses a mutex or blocks its caller. -/
def ByTask : PriorityCall → Prop
  | .api (.lock _ _) | .api .resume | .api (.unlock _) | .api (.sched (.delay _))
  | .api (.sched (.block _ _)) => True
  | _ => False

instance : DecidablePred ByTask
  | .api (.lock _ _) | .api .resume | .api (.unlock _) | .api (.sched (.delay _))
  | .api (.sched (.block _ _)) => .isTrue trivial
  | .api (.dispatch _) | .api (.sched (.create _ _)) | .api (.sched (.start _)) | .api (.sched .tick)
  | .api (.sched .yield) | .api (.sched (.unblock _)) | .api (.sched .reschedule)
  | .api (.sched .lock) | .api (.sched .unlock) | .setPriority _ _ => .isFalse id

/-- A task that sleeps uses no mutex and does not block once more. -/
def FromAwake (s : System) (a : PriorityCall) : Prop := a.ByTask → s.CallerAwake

instance (s : System) : DecidablePred (FromAwake s) := fun a =>
  inferInstanceAs (Decidable (a.ByTask → s.CallerAwake))

theorem byTask_of_blocks {k : Kernel} {a : Call} {c : TaskId} (hb : a.Blocks k c) :
    (api (.sched a)).ByTask := by
  cases a with
  | delay n => trivial
  | block W timeout => trivial
  | _ => exact hb.elim

end PriorityCall

/-- One call of a run in which tasks and mutexes can be deleted. -/
inductive SystemOp
  | call (a : PriorityCall)
  | suspend (handle : Option TaskId)
  | resume (handle : Option TaskId)
  | delete (handle : Option TaskId)
  /-- `sertos_mutex_delete`. -/
  | deleteMutex (m : ℕ)
deriving DecidableEq, Repr

namespace SystemOp

/-- The state change of a call. -/
def run (s : System) : SystemOp → System
  | .call a => a.run s
  | .suspend handle =>
    { s with kernel := (Task.suspend s.kernel s.kernel.taskMagic handle).1 }
  | .resume handle => { s with kernel := (Task.resume s.kernel s.kernel.taskMagic handle).1 }
  | .delete handle => { s with kernel := (Task.delete s.kernel s.kernel.taskMagic handle).1 }
  | .deleteMutex m => (Mutex.delete s m).1

/-- The calls that can come next. -/
def Allowed (s : System) : SystemOp → Prop
  | .call a => a.Allowed s
  | .suspend _ | .resume _ | .delete _ | .deleteMutex _ => s.InNoCall

instance (s : System) : DecidablePred (Allowed s)
  | .call a => inferInstanceAs (Decidable (a.Allowed s))
  | .suspend _ | .resume _ | .delete _ | .deleteMutex _ =>
    inferInstanceAs (Decidable s.InNoCall)

/-- One step of a run. -/
abbrev Step : System → SystemOp → System → Prop := Guarded Allowed run

/-- The call meets its task in a state that it is made for.  A task that sleeps uses no mutex and
does not block once more; no task is suspended, resumed or deleted while it is `RUNNING` or
`BLOCKED`; and a task that is deleted has nothing to do with a mutex. -/
def InPlace (s : System) : SystemOp → Prop
  | .call a => a.FromAwake s
  | .suspend handle => ∀ t, handle.or s.kernel.currentTcb = some t → s.kernel.Live t →
    (s.kernel.tcb t).state ≠ .running ∧ (s.kernel.tcb t).state ≠ .blocked
  | .resume handle => ∀ t, handle = some t → s.kernel.Live t →
    (s.kernel.tcb t).state ≠ .running ∧ (s.kernel.tcb t).state ≠ .blocked
  | .delete handle => ∀ t, handle.or s.kernel.currentTcb = some t → s.kernel.Live t →
    ((s.kernel.tcb t).state ≠ .running ∧ (s.kernel.tcb t).state ≠ .blocked) ∧ s.Uninvolved t
  | .deleteMutex _ => True

end SystemOp

namespace System

variable {s s' : System} {m timeout : ℕ} {c o t w : TaskId} {k : Kernel}

/-- Nothing has changed that matters for the priorities the mutexes account for. -/
structure SameAccount (s s' : System) : Prop where
  holder : ∀ m, s'.holderOf m = s.holderOf m
  waiters : ∀ m t, t ∈ s'.waiters m ↔ t ∈ s.waiters m
  kept : ∀ t, s.kernel.Live t → s'.priority t = s.priority t ∧ s'.basePriority t = s.basePriority t
  born : ∀ t, s'.kernel.Live t → s.kernel.Live t ∨ s'.priority t = s'.basePriority t

theorem SameAccount.of_same (hholder : ∀ m, s'.holderOf m = s.holderOf m)
    (hwaiters : ∀ m t, t ∈ s'.waiters m ↔ t ∈ s.waiters m)
    (hp : s.kernel.SamePriorities s'.kernel) : s.SameAccount s' :=
  ⟨hholder, hwaiters, fun _ ht => ⟨hp.priority ht, hp.basePriority ht⟩, fun t ht =>
    (hp.born t ht).imp_right fun ⟨_, _, e⟩ => (Prod.mk.inj e).1.trans (Prod.mk.inj e).2.symm⟩

/-- The current task `c` is in no list, so it waits for no mutex. -/
theorem Dozing.notMem_waiters (h : s.Dozing) (hc : (s.kernel.tcb c).waitList = none) (n : ℕ) :
    c ∉ s.waiters n :=
  h.waiters.notMem hc (.mutex n)

/-! ### Calls of the scheduler's interface -/

/-- A call that does not block, and is no tick. -/
theorem Dozing.sched_rouse (h : s.Dozing) {a : Call} (ha : a.Allowed s.kernel)
    (hmutex : Api.AllowedCall s a) (hb : ∀ c, ¬ a.Blocks s.kernel c) (htick : a ≠ .tick) :
    ({ s with kernel := a.run s.kernel } : System).Dozing ∧
      s.SameAccount { s with kernel := a.run s.kernel } := by
  obtain ⟨hthins, hrouses⟩ := Call.run_rouses ha hb
  have hprio := Kernel.SamePriorities.run ha
  -- no waiter of a mutex is woken
  have hwakes : ∀ t m, t ∈ s.waiters m → ¬ a.Wakes s.kernel t := by
    intro t m ht hw
    cases a with
    | tick => exact htick rfl
    | unblock W =>
      have hmem := (h.waiters.mem_iff W t).1 (List.mem_of_mem_head? hw)
      have hW : some W = some (.mutex m) := hmem.2.symm.trans (h.mem_waiters.1 ht).2
      obtain rfl := Option.some_inj.1 hW
      exact hmutex trivial
    | _ => exact hw
  have hd := h.rouse hprio hthins hrouses fun t m _ hw ht => absurd hw (hwakes t m ht)
  refine ⟨hd, .of_same (fun _ => rfl) (fun m t => ⟨fun ht => ?_, fun ht => ?_⟩) hprio⟩
  · exact ((hthins h.waiters).2.sublist (.mutex m)).subset ht
  · obtain ⟨hlive, hW⟩ := h.mem_waiters.1 ht
    rcases hrouses.waitList t hlive with e | ⟨hw, -⟩
    · exact hd.mem_waiters.2 ⟨hprio.live hlive, e.trans hW⟩
    · exact absurd hw (hwakes t m ht)

/-- A call that blocks. -/
theorem Dozing.sched_lull (h : s.Dozing) {a : Call} (ha : a.Allowed s.kernel)
    (hmutex : Api.AllowedCall s a) (hb : a.Blocks s.kernel c) (hawake : s.CallerAwake) :
    ({ s with kernel := a.run s.kernel } : System).Dozing ∧
      s.SameAccount { s with kernel := a.run s.kernel } := by
  obtain ⟨hlull, hrun, hlists⟩ := Call.run_lulls hb
  have hc := hb.current
  obtain ⟨hlive, hwait, hdelay⟩ := hawake c hc
  obtain ⟨hpc, hprio, hk, hsame⟩ : s.pc c = .idle ∧
      s.kernel.SamePriorities (a.critical s.kernel) ∧ (a.critical s.kernel).Waiters ∧
      ∀ m, (a.critical s.kernel).waitLists (.mutex m) = s.kernel.waitLists (.mutex m) := by
    rcases hlists with ⟨n, rfl, hthins, e⟩ | ⟨W, timeout, rfl, e⟩
    · refine ⟨System.InNoCall.idle hmutex hc, ?_, (hthins h.waiters).2.waiters, fun m => by rw [e]⟩
      obtain ⟨hn, hrun', hc'⟩ := hb
      simp only [Call.critical, hn, if_false, hrun', hc']
      exact .delaySection n
    · rw [e]
      refine ⟨hmutex.2.idle hc, .waitListBlockSection timeout, h.waiters.block hlive hwait W timeout,
        fun m => ?_⟩
      have hne : WaitList.mutex m ≠ W := fun e => hmutex.1 (e ▸ trivial)
      rw [waitListBlockSection_waitLists, Bundle.insertByKey_of_ne hne]
  have hd := (h.lull hpc hdelay hprio hlull hk fun m hm => by
    rw [hsame m]; exact h.free m hm).switchContext
  rw [hrun]
  refine ⟨hd, .of_same (fun _ => rfl) (fun m t => ?_) (hprio.trans .switchContext)⟩
  simp only [System.waiters, switchContext_waitLists, hsame m]

/-- **A tick** takes those whose time is up off the wait lists. -/
theorem Dozing.tick (h : s.Dozing) :
    ({ s with kernel := Scheduler.tick s.kernel } : System).Dozing ∧
      (∀ m t, t ∈ ({ s with kernel := Scheduler.tick s.kernel } : System).waiters m ↔
        t ∈ s.waiters m ∧ ¬ s.kernel.Expires t) ∧
      s.kernel.SamePriorities (Scheduler.tick s.kernel) := by
  have ha : Call.tick.Allowed s.kernel := trivial
  obtain ⟨hthins, hrouses⟩ := Call.run_rouses ha fun _ hb => hb
  have hprio : s.kernel.SamePriorities (Scheduler.tick s.kernel) := Kernel.SamePriorities.run ha
  have hd : ({ s with kernel := Scheduler.tick s.kernel } : System).Dozing := by
    refine h.rouse hprio hthins hrouses fun t m hpc hw ht => ?_
    -- whoever waits for ever is not on the delay list
    rcases (h.pending t m _ hpc).2 with ⟨-, hdelay⟩ | ⟨hnone, -⟩
    · exact absurd hw (hdelay rfl)
    · exact absurd ht (h.notMem_waiters hnone m)
  refine ⟨hd, fun m t => ?_, hprio⟩
  have hwait := Kernel.tick_waitList h.nodup t
  constructor
  · intro ht
    have hW := (hd.mem_waiters.1 ht).2
    rw [show (({ s with kernel := Scheduler.tick s.kernel } : System).kernel.tcb t).waitList = _
      from hwait] at hW
    split at hW
    · exact absurd hW (by simp)
    · next hexp => exact ⟨((hthins h.waiters).2.sublist (.mutex m)).subset ht, hexp⟩
  · rintro ⟨ht, hexp⟩
    obtain ⟨hlive, hW⟩ := h.mem_waiters.1 ht
    rw [if_neg hexp] at hwait
    exact hd.mem_waiters.2 ⟨hprio.live hlive, hwait.trans hW⟩

/-! ### Priorities that are set -/

theorem Dozing.set (h : s.Dozing) (handle : Option TaskId) (q : ℕ) :
    ((PriorityCall.setPriority handle q).run s).Dozing ∧
      (∀ t, ((PriorityCall.setPriority handle q).run s).kernel.Live t ↔ s.kernel.Live t) := by
  rcases Task.setPriority_cases s.kernel s.kernel.taskMagic handle q with
    ⟨-, e⟩ | ⟨t, ht, -, hq, e⟩
  · rw [PriorityCall.run, e]
    exact ⟨h, fun _ => Iff.rfl⟩
  · have hd : ({ s with kernel := Task.setPrioritySection s.kernel t q } : System).Dozing := by
      refine h.reprioritise ?_ ?_ (setPrioritySection_delayList_sublist _ t q) (fun u => ?_)
        fun u hu => ?_
      · rw [Task.setPrioritySection_frame]
      · rw [Task.setPrioritySection_frame]
      · by_cases hut : u = t
        · rw [hut, Task.setPrioritySection_tcb_same]
          rfl
        · rw [Task.setPrioritySection_tcb_of_ne hut]
      · by_cases hut : u = t
        · have hfields := Task.setPrioritySection_priorityFields (k := s.kernel) (t := t) (p := q)
          simp only [Kernel.priorityFields, Prod.mk.injEq] at hfields
          rw [hut, hfields.1, hfields.2]
          exact ⟨hq, hq⟩
        · rw [Task.setPrioritySection_tcb_of_ne hut]
          exact ⟨h.waiters.priority_lt u hu, h.base u hu⟩
    simp only [PriorityCall.run, e]
    refine ⟨hd.reschedule, fun u => ?_⟩
    rw [Kernel.Live, reschedule_frame, Task.setPrioritySection_frame]
    rfl

/-! ### Mutexes -/

theorem Dozing.changePriority (h : s.Dozing) {p : ℕ} (hp : p < maxPriorities) (t : TaskId) :
    ({ s with kernel := Mutex.changePriority s.kernel t p } : System).Dozing := by
  refine h.reprioritise ?_ ?_ (changePriority_delayList_sublist _ t p) (fun u => ?_) fun u hu => ?_
  · rw [Mutex.changePriority_frame]
  · rw [Mutex.changePriority_frame]
  · rw [Mutex.changePriority_tcb]
    rfl
  · by_cases hut : u = t
    · subst hut
      rw [Mutex.changePriority_tcb_same]
      exact ⟨hp, h.base u hu⟩
    · rw [Mutex.changePriority_tcb_of_ne _ _ _ hut]
      exact ⟨h.waiters.priority_lt u hu, h.base u hu⟩

theorem Dozing.boost (h : s.Dozing) (hc : s.kernel.Live c) (o : TaskId) :
    ({ s with kernel := Mutex.applyPriorityInheritance s.kernel o c } : System).Dozing := by
  rw [Mutex.applyPriorityInheritance]
  split
  · exact h.changePriority (h.waiters.priority_lt c hc) o
  · exact h

theorem Dozing.restore (h : s.Dozing) {x : Mutex} (hp : x.originalOwnerPriority < maxPriorities)
    (c : TaskId) :
    ({ s with kernel := Mutex.restoreOwnerPriority s.kernel x c } : System).Dozing := by
  rw [Mutex.restoreOwnerPriority]
  split
  · exact h.changePriority hp c
  · exact h

theorem Dozing.lock (h : s.Dozing) (hcall : s.InNoCall) (hawake : s.CallerAwake) :
    (Mutex.lock s m timeout).1.Dozing := by
  by_cases hv : (s.mutexes m).magic = mutexMagicWord
  swap
  · rw [Mutex.lock, if_pos hv]
    exact h
  have he := Mutex.lock_effect s m timeout
  generalize Mutex.lock s m timeout = r at he ⊢
  cases he with
  | invalid => exact h
  | noTask => exact h
  | @acquire c hc ho =>
    obtain ⟨hlive, -, -⟩ := hawake c hc
    refine h.setMutex rfl fun _ => ⟨fun hn => absurd hn (by simp), fun o ho' => ?_, fun t _ ht => ?_⟩
    · obtain rfl := Option.some_inj.1 ho'
      exact ⟨hlive, h.waiters.priority_lt c hlive⟩
    · exact absurd (ho.symm.trans ht) (by simp)
  | @again c hc ho =>
    refine h.setMutex rfl fun _ => ⟨fun hn => absurd (ho.symm.trans hn) (by simp), fun o ho' => ?_,
      fun t _ ht => ht⟩
    exact h.owner m o (holderOf_eq_some.2 ⟨hv, ho'⟩)
  | @fail c o _ hc => exact h.boost (hawake c hc).1 o
  | @wait c o hc ho hoc =>
    obtain ⟨hlive, hwait, hdelay⟩ := hawake c hc
    have hboost := h.boost hlive o
    generalize hk : Mutex.applyPriorityInheritance s.kernel o c = k at hboost
    have hlive' : k.Live c := by
      rw [← hk, Kernel.Live, Mutex.applyPriorityInheritance_frame]
      exact hlive
    have hwait' : (k.tcb c).waitList = none := by
      rw [← hk, Mutex.applyPriorityInheritance_tcb]
      exact hwait
    have hdelay' : c ∉ k.delayList.nodes := fun hm => hdelay (by
      rw [← hk, Mutex.applyPriorityInheritance] at hm
      split at hm
      · exact (changePriority_delayList_sublist _ _ _).subset hm
      · exact hm)
    -- the caller is queued, and then its call is in the wait
    have hqueued := hboost.lull (k := waitListBlockSection k c (.mutex m) timeout) (hcall.idle hc)
      hdelay' (.waitListBlockSection timeout) (Kernel.lulls_waitListBlockSection _ timeout)
      (hboost.waiters.block hlive' hwait' _ timeout) fun n hn => by
        have hnm : WaitList.mutex n ≠ .mutex m := by
          rintro e
          obtain rfl := WaitList.mutex.inj e
          exact absurd ((holderOf_eq_some.2 ⟨hv, ho⟩).symm.trans hn) (by simp)
        rw [waitListBlockSection_waitLists, Bundle.insertByKey_of_ne hnm]
        exact hboost.free n hn
    refine (hqueued.setPc (c := c) (p := .mutexWait m timeout) fun n T e => ?_).switchContext
    obtain ⟨rfl, rfl⟩ := Pc.mutexWait.inj e
    refine ⟨(Kernel.SamePriorities.waitListBlockSection timeout).live hlive', .inl ⟨?_, ?_⟩⟩
    · rw [waitListBlockSection_tcb_same]
    · rintro rfl
      exact Kernel.waitListBlockSection_forever _ hdelay'

/-- The end of a lock changes no owner. -/
theorem Dozing.lockResume (h : s.Dozing) (hpc : s.pc c = .mutexWait m timeout)
    (hwait : (s.kernel.tcb c).waitList = none) :
    (Mutex.lockResume s m c timeout).1.Dozing ∧
      s.SameAccount (Mutex.lockResume s m c timeout).1 := by
  obtain ⟨hlive, hpend⟩ := h.pending c m timeout hpc
  obtain ⟨hown, hticks⟩ : (timeout = waitForever → (s.mutexes m).magic = mutexMagicWord →
      (s.mutexes m).owner = some c) ∧
      (timeout ≠ waitForever → (s.kernel.tcb c).delayTicks = 0) := by
    rcases hpend with ⟨hW, -⟩ | ⟨-, hend⟩
    · exact absurd (hwait.symm.trans hW) (by simp)
    · exact hend
  have hidle : ∀ {x : System}, x.Dozing → (x.setPc c .idle).Dozing := fun hx =>
    hx.setPc fun _ _ e => absurd e (by simp)
  by_cases hf : timeout = waitForever
  · have hstatus : waitListBlockStatus s.kernel c timeout = .ok := by
      simp [waitListBlockStatus, hf]
    have ho := hown hf
    simp only [Mutex.lockResume, Mutex.lockReturn, hstatus, if_true]
    refine ⟨hidle (h.setMutex rfl fun hv => ⟨fun hn => absurd hn (by simp), fun o ho' => ?_,
      fun t _ ht => (ho hv).symm.trans ht⟩), .of_same (fun n => ?_) (fun _ _ => Iff.rfl) (.refl _)⟩
    · obtain rfl := Option.some_inj.1 ho'
      exact ⟨hlive, h.base c hlive⟩
    · exact holderOf_setMutex_of_eq (by rfl) (fun hv => (ho hv).symm) n
  · have hstatus : waitListBlockStatus s.kernel c timeout = .errorTimeout := by
      simp [waitListBlockStatus, hf, hticks hf, hwait]
    have hne : Status.errorTimeout ≠ .ok := by decide
    simp only [Mutex.lockResume, Mutex.lockReturn, hstatus, if_neg hne]
    exact ⟨hidle h, .of_same (fun _ => rfl) (fun _ _ => Iff.rfl) (.refl _)⟩

theorem Dozing.unlock (h : s.Dozing) (hcall : s.InNoCall) : (Mutex.unlock s m).1.Dozing := by
  by_cases hv : (s.mutexes m).magic = mutexMagicWord
  swap
  · rw [Mutex.unlock, if_pos hv]
    exact h
  have he := Mutex.unlock_effect s m
  generalize Mutex.unlock s m = r at he ⊢
  have hbound : ∀ o, (s.mutexes m).owner = some o →
      s.kernel.Live o ∧ (s.mutexes m).originalOwnerPriority < maxPriorities := fun o ho =>
    h.owner m o (holderOf_eq_some.2 ⟨hv, ho⟩)
  -- the task that releases the mutex is not in a lock
  have howner : ∀ {c x}, s.kernel.currentTcb = some c → (s.mutexes m).owner = some c →
      ∀ t, s.pc t = .mutexWait m waitForever → (s.mutexes m).owner = some t →
        (x : Mutex).owner = some t := by
    intro c x hc ho t hpc ht
    obtain rfl := Option.some_inj.1 (ho.symm.trans ht)
    exact absurd ((hcall.idle hc).symm.trans hpc) (by simp)
  cases he with
  | invalid => exact h
  | @nested c hc ho =>
    exact h.setMutex rfl fun _ => ⟨fun hn => absurd (ho.symm.trans hn) (by simp), hbound,
      fun t _ ht => ht⟩
  | @release c hc ho _ hW =>
    have hd := (h.restore (hbound c ho).2 c).reschedule
    refine hd.setMutex (m := m) rfl fun _ => ⟨fun _ => ?_, fun o ho' => absurd ho' (by simp),
      howner hc ho⟩
    simp only [System.waiters, reschedule_waitLists, Mutex.restoreOwnerPriority_waitLists]
    exact hW
  | @handOver c w rest hc ho _ hW =>
    have hw : w ∈ s.waiters m := by rw [hW]; exact List.mem_cons_self
    obtain ⟨hlive, hwait⟩ := h.mem_waiters.1 hw
    -- first the mutex gets its new owner, who is then woken
    have hset := h.setMutex (m := m) (x := { s.mutexes m with
        owner := some w
        lockCount := 1
        originalOwnerPriority := ((Mutex.handedKernel s m c).tcb w).basePriority }) rfl
      fun _ => ⟨fun hn => absurd hn (by simp), fun o ho' => by
        obtain rfl := Option.some_inj.1 ho'
        rw [Mutex.handedKernel_basePriority hW]
        exact ⟨hlive, h.base w hlive⟩, howner hc ho⟩
    have hwaitLists := Mutex.restoreOwnerPriority_waitLists s.kernel (s.mutexes m) c
    refine ((hset.restore (hbound c ho).2 c).rouse (k := Mutex.handedKernel s m c) .unblockHighest
      .unblockHighest .unblockHighest fun t n _ hhead ht _ => ?_).reschedule
    have htw : w = t := by
      simp only [setMutex_kernel, hwaitLists] at hhead
      rw [show (s.kernel.waitLists (.mutex m)).nodes = w :: rest from hW] at hhead
      exact Option.some_inj.1 hhead
    subst htw
    have ht' : w ∈ s.waiters n := by
      simp only [System.waiters, setMutex_kernel, hwaitLists] at ht
      exact ht
    obtain rfl := WaitList.mutex.inj (Option.some_inj.1 (hwait.symm.trans (h.mem_waiters.1 ht').2))
    simp

/-! ### Tasks that are suspended, resumed and deleted -/

/-- A call that leaves the waits alone.  Tasks that the mutexes do not matter to may be deleted. -/
theorem Dozing.quiet (h : s.Dozing) (hq : Kernel.Quiet s.kernel k)
    (hlive : ∀ t, k.Live t → s.kernel.Live t)
    (hkept : ∀ t, s.kernel.Live t → k.Live t ∨ s.Uninvolved t) :
    ({ s with kernel := k } : System).Dozing ∧ s.SameAccount { s with kernel := k } := by
  have hprio : ∀ t, (k.tcb t).priority = (s.kernel.tcb t).priority ∧
      (k.tcb t).basePriority = (s.kernel.tcb t).basePriority := fun t =>
    Prod.mk.inj (hq.priorities t)
  refine ⟨h.dismiss hlive hkept hq.waitLists hq.delay hq.waits fun t ht => ?_, fun _ => rfl,
    fun m t => ?_, fun t _ => hprio t, fun t ht => .inl (hlive t ht)⟩
  · rw [(hprio t).1, (hprio t).2]
    exact ⟨h.waiters.priority_lt t ht, h.base t ht⟩
  · simp only [System.waiters, hq.waitLists]

/-- No task is deleted. -/
theorem Dozing.quiet_of_eq (h : s.Dozing) (hq : Kernel.Quiet s.kernel k)
    (hreg : k.taskRegistry = s.kernel.taskRegistry) :
    ({ s with kernel := k } : System).Dozing ∧ s.SameAccount { s with kernel := k } := by
  have hlive : ∀ t, k.Live t ↔ s.kernel.Live t := fun t => by rw [Kernel.Live, Kernel.Live, hreg]
  exact h.quiet hq (fun t => (hlive t).1) fun t ht => .inl ((hlive t).2 ht)

theorem yield_taskRegistry (k : Kernel) : (yield k).taskRegistry = k.taskRegistry := by
  rw [yield, switchContext_frame, processTimeSlicing_frame]

theorem Dozing.suspend (h : s.Dozing) (handle : Option TaskId) :
    ({ s with kernel := (Task.suspend s.kernel s.kernel.taskMagic handle).1 } : System).Dozing ∧
      s.SameAccount { s with kernel := (Task.suspend s.kernel s.kernel.taskMagic handle).1 } := by
  rcases Task.suspend_cases s.kernel s.kernel.taskMagic handle with ⟨-, e⟩ | ⟨t, -, -, e⟩ <;> rw [e]
  · exact h.quiet_of_eq (.refl _) rfl
  · have hreg : (Task.suspendSection s.kernel t).taskRegistry = s.kernel.taskRegistry := by
      rw [Task.suspendSection, Kernel.modify_taskRegistry, Task.withdraw_taskRegistry]
    simp only
    split
    · exact h.quiet_of_eq ((Kernel.Quiet.suspendSection _ t).trans (.yield _))
        ((yield_taskRegistry _).trans hreg)
    · exact h.quiet_of_eq (.suspendSection _ t) hreg

theorem Dozing.resume (h : s.Dozing) (handle : Option TaskId) :
    ({ s with kernel := (Task.resume s.kernel s.kernel.taskMagic handle).1 } : System).Dozing ∧
      s.SameAccount { s with kernel := (Task.resume s.kernel s.kernel.taskMagic handle).1 } := by
  rcases Task.resume_cases s.kernel s.kernel.taskMagic handle with ⟨-, e⟩ | ⟨t, -, -, -, e⟩ <;>
    rw [e]
  · exact h.quiet_of_eq (.refl _) rfl
  · have hreg : (addReady s.kernel t).1.taskRegistry = s.kernel.taskRegistry := by
      rw [addReady_frame]
    simp only
    split
    · refine h.quiet_of_eq ((Kernel.Quiet.addReady _ t).trans (.reschedule _)) ?_
      rw [reschedule_frame]
      exact hreg
    · exact h.quiet_of_eq (.addReady _ t) hreg

/-- The task that is deleted holds no mutex and waits for none. -/
theorem Dozing.delete (h : s.Dozing) {handle : Option TaskId}
    (hfree : ∀ t, handle.or s.kernel.currentTcb = some t → s.kernel.Live t → s.Uninvolved t) :
    ({ s with kernel := (Task.delete s.kernel s.kernel.taskMagic handle).1 } : System).Dozing ∧
      s.SameAccount { s with kernel := (Task.delete s.kernel s.kernel.taskMagic handle).1 } := by
  rcases Task.delete_cases s.kernel s.kernel.taskMagic handle with ⟨-, e⟩ | ⟨t, ht, ha, e⟩ <;> rw [e]
  · exact h.quiet_of_eq (.refl _) rfl
  · have hlive : s.kernel.Live t := by
      by_contra hdead
      have hmagic := (Task.accepts_iff.1 ha).1
      rw [Kernel.taskMagic, if_neg hdead] at hmagic
      exact absurd hmagic (by decide)
    have hreg := Task.deleteSection_taskRegistry hlive
    have hsub : ∀ {k : Kernel}, k.taskRegistry = s.kernel.taskRegistry.remove t →
        (∀ u, k.Live u → s.kernel.Live u) ∧ ∀ u, s.kernel.Live u → k.Live u ∨ s.Uninvolved u := by
      intro k hk
      simp only [Kernel.Live, hk]
      refine ⟨fun u hu => List.mem_of_mem_erase hu, fun u hu => ?_⟩
      by_cases hut : u = t
      · subst hut
        exact .inr (hfree u ht hu)
      · exact .inl ((List.mem_erase_of_ne hut).2 hu)
    simp only
    split
    · obtain ⟨hold, hkept⟩ := hsub ((yield_taskRegistry _).trans hreg)
      exact h.quiet ((Kernel.Quiet.deleteSection _ t).trans (.yield _)) hold hkept
    · obtain ⟨hold, hkept⟩ := hsub hreg
      exact h.quiet (.deleteSection _ t) hold hkept

/-! ### Mutexes that are deleted -/

/-- The mutex `m` is gone, and nothing else has changed for the mutexes than that its holder has
the priority that `m` recorded. -/
structure Discarded (s : System) (m : ℕ) (s' : System) : Prop where
  gone : s'.holderOf m = none
  holder : ∀ n, n ≠ m → s'.holderOf n = s.holderOf n
  waiters : ∀ n, n ≠ m → ∀ t, t ∈ s'.waiters n ↔ t ∈ s.waiters n
  live : ∀ t, s'.kernel.Live t ↔ s.kernel.Live t
  basePriority : ∀ t, s.kernel.Live t → s'.basePriority t = s.basePriority t
  priority : ∀ t, s.kernel.Live t → s'.priority t =
    if s.holderOf m = some t then (s.mutexes m).originalOwnerPriority else s.priority t

/-- The loop that empties a wait list wakes the tasks on it. -/
theorem unblockAll_rouses (hk : k.Waiters) (W : WaitList) :
    k.SamePriorities (unblockAll k W) ∧ Kernel.Thins k (unblockAll k W) ∧
      Kernel.Rouses (· ∈ (k.waitLists W).nodes) k (unblockAll k W) := by
  refine unblockAll_induction (motive := fun k' => k.SamePriorities k' ∧ Kernel.Thins k k' ∧
    Kernel.Rouses (· ∈ (k.waitLists W).nodes) k k') W ⟨.refl k, .refl k, .refl _ k⟩ ?_
  rintro k' ⟨hp, ht, hr⟩
  refine ⟨hp.trans .unblockHighest, ht.trans .unblockHighest,
    hr.trans (Kernel.Rouses.unblockHighest.mono fun t hhead => ?_)⟩
  exact ((ht hk).2.sublist W).subset (List.mem_of_mem_head? hhead)

theorem Dozing.restoreOwner (h : s.Dozing) (hv : (s.mutexes m).magic = mutexMagicWord) :
    ({ s with kernel := Mutex.restoreOwner s.kernel (s.mutexes m) } : System).Dozing := by
  rw [Mutex.restoreOwner]
  cases ho : (s.mutexes m).owner with
  | none => exact h
  | some o => exact h.restore (h.owner m o (holderOf_eq_some.2 ⟨hv, ho⟩)).2 o

/-- The critical section gives the holder its recorded priority back, and wakes all who wait. -/
theorem Dozing.deleteSection (h : s.Dozing) (hv : (s.mutexes m).magic = mutexMagicWord) :
    (Mutex.deleteSection s m).Dozing ∧ s.Discarded m (Mutex.deleteSection s m) := by
  have hrestored := h.restoreOwner hv
  obtain ⟨hprio, hthins, hrouses⟩ := unblockAll_rouses hrestored.waiters (.mutex m)
  have hnil := Kernel.Usable.unblockAll
    ⟨hrestored.waiters.nodup (.mutex m), hrestored.waiters.linked (.mutex m)⟩
  have hgone : ((Mutex.deleteSection s m).mutexes m).magic ≠ mutexMagicWord := by
    simp [Mutex.deleteSection, mutexMagicWord]
  have hother : ∀ n, n ≠ m → (Mutex.deleteSection s m).mutexes n = s.mutexes n := fun n hn =>
    setMutex_mutexes_of_ne s m _ hn
  -- a task waits for one mutex only
  have honce : ∀ {t n},
      t ∈ ((Mutex.restoreOwner s.kernel (s.mutexes m)).waitLists (.mutex m)).nodes →
      t ∈ ((Mutex.restoreOwner s.kernel (s.mutexes m)).waitLists (.mutex n)).nodes → m = n := by
    intro t n ht hn
    exact WaitList.mutex.inj (Option.some_inj.1
      ((hrestored.mem_waiters.1 ht).2.symm.trans (hrestored.mem_waiters.1 hn).2))
  have hsection : (Mutex.deleteSection s m).Dozing := by
    refine hrestored.rouse_discard hprio hthins hrouses (fun n => ?_) fun t n _ ht hn hvalid => ?_
    · by_cases hn : n = m
      · subst hn
        exact .inr ⟨hgone, hnil⟩
      · exact .inl (hother n hn)
    · obtain rfl := honce ht hn
      exact absurd hvalid hgone
  have hlive : ∀ t, s.kernel.Live t → (Mutex.restoreOwner s.kernel (s.mutexes m)).Live t :=
    fun t ht => by
      rw [Kernel.Live, Mutex.restoreOwner_frame]
      exact ht
  refine ⟨hsection, holderOf_of_deleted hgone, fun n hn => holderOf_setMutex_of_ne (s := s) _ hn,
    fun n hn t => ?_, fun t => ?_, fun t ht => ?_, fun t ht => ?_⟩
  · have hsame : t ∈ s.waiters n ↔
        t ∈ ((Mutex.restoreOwner s.kernel (s.mutexes m)).waitLists (.mutex n)).nodes := by
      rw [Mutex.restoreOwner_frame]
      exact Iff.rfl
    rw [hsame]
    refine ⟨fun ht => ((hthins hrestored.waiters).2.sublist (.mutex n)).subset ht, fun ht => ?_⟩
    obtain ⟨ht', hW⟩ := hrestored.mem_waiters.1 ht
    rcases hrouses.waitList t ht' with e | ⟨hm, -⟩
    · exact hsection.mem_waiters.2 ⟨hprio.live ht', e.trans hW⟩
    · exact absurd (honce hm ht).symm hn
  · have hreg : (unblockAll (Mutex.restoreOwner s.kernel (s.mutexes m)) (.mutex m)).taskRegistry =
        s.kernel.taskRegistry := by
      refine unblockAll_induction (motive := fun k => k.taskRegistry = s.kernel.taskRegistry) _ ?_
        fun k hk => ?_
      · rw [Mutex.restoreOwner_frame]
      · rw [unblockHighest_frame]
        exact hk
    exact (congrArg (t ∈ ·.nodes) hreg).to_iff
  · refine (hprio.basePriority (hlive t ht)).trans ?_
    rw [Mutex.restoreOwner_tcb]
    rfl
  · refine (hprio.priority (hlive t ht)).trans ?_
    rw [Mutex.restoreOwner_tcb, holderOf_of_valid hv]
    rfl

/-- **A deletion** of a mutex that has not been deleted. -/
theorem Dozing.deleteMutex (h : s.Dozing) (hv : (s.mutexes m).magic = mutexMagicWord) :
    (Mutex.delete s m).1.Dozing ∧ s.Discarded m (Mutex.delete s m).1 := by
  obtain ⟨hv', -⟩ | ⟨-, e⟩ := Mutex.delete_cases s m
  · exact absurd hv hv'
  obtain ⟨hd, hgone, hholder, hwaiters, hlive, hbase, hprio⟩ := h.deleteSection hv
  rw [e]
  refine ⟨hd.reschedule, hgone, hholder, fun n hn t => ?_, fun t => ?_, fun t ht => ?_,
    fun t ht => ?_⟩
  · simp only [System.waiters, reschedule_waitLists]
    exact hwaiters n hn t
  · rw [Kernel.Live, reschedule_frame]
    exact hlive t
  · rw [basePriority, reschedule_tcb]
    exact hbase t ht
  · rw [priority, reschedule_priority]
    exact hprio t ht

/-! ### One step -/

theorem Dozing.call (h : s.Dozing) {a : PriorityCall} (ha : a.Allowed s) (hawake : a.FromAwake s) :
    (a.run s).Dozing := by
  cases a with
  | setPriority handle q => exact (h.set handle q).1
  | api a =>
    cases a with
    | sched a =>
      by_cases htick : a = .tick
      · subst htick
        exact h.tick.1
      · by_cases hb : ∃ c, a.Blocks s.kernel c
        · obtain ⟨c, hb⟩ := hb
          exact (h.sched_lull ha.1 ha.2 hb (hawake (PriorityCall.byTask_of_blocks hb))).1
        · exact (h.sched_rouse ha.1 ha.2 (not_exists.1 hb) htick).1
    | dispatch t =>
      exact h.still (.of_eq rfl fun _ => rfl) (.of_eq rfl rfl fun _ => rfl)
        (.of_eq rfl rfl fun _ => rfl)
    | lock m timeout => exact h.lock ha (hawake trivial)
    | resume =>
      obtain ⟨c, m, timeout, hc, hpc, e⟩ := Api.returned_cases ha
      rw [PriorityCall.run, e]
      exact (h.lockResume hpc (hawake trivial c hc).2.1).1
    | unlock m => exact h.unlock ha

/-- **Every call** leaves the waiting locks in order. -/
theorem Dozing.step (h : s.Dozing) {a : SystemOp} (hs : SystemOp.Step s a s')
    (hplace : a.InPlace s) : s'.Dozing := by
  obtain ⟨ha, rfl⟩ := hs
  cases a with
  | call a => exact h.call ha hplace
  | suspend handle => exact (h.suspend handle).1
  | resume handle => exact (h.resume handle).1
  | delete handle => exact (h.delete fun t ht hlive => (hplace t ht hlive).2).1
  | deleteMutex m =>
    by_cases hv : (s.mutexes m).magic = mutexMagicWord
    · exact (h.deleteMutex hv).1
    · rw [SystemOp.run, Mutex.delete, if_pos hv]
      exact h

/-- After the initialisation every task has its base priority. -/
theorem initWithConfig_priorityFields {mem : Kernel} {config : Option Config} {idleStack : ℕ}
    (ht : (initWithConfig mem config idleStack).1.Live t) : ∃ p < maxPriorities,
      Kernel.priorityFields ((initWithConfig mem config idleStack).1.tcb t) = (p, p) := by
  have hdead : ∀ t, ¬ (initData mem config).Live t := fun t ht => List.not_mem_nil ht
  have hprio := Kernel.SamePriorities.run (k := initData mem config)
    (a := .create (idleConfig config idleStack) idleTcb) (hdead _)
  have hcore := initWithConfig_sameCore mem config idleStack
  rw [Kernel.Live, hcore.taskRegistry] at ht
  rw [hcore.tcb]
  exact (hprio.born t ht).resolve_left (hdead t)

theorem dozing_init (mem : Kernel) (config : Option Config) (idleStack : ℕ) (sems : ℕ → Semaphore) :
    (System.init (initWithConfig mem config idleStack).1 sems).Dozing := by
  have hs := initWithConfig_settled mem config idleStack
  refine ⟨hs.lists.waiters, (hs.lists.stateWF.list .delay).nodup, fun m _ => ?_,
    fun m o ho => absurd ho (by simp [holderOf, System.init, Mutex.fresh]), fun t ht => ?_,
    fun t m timeout hpc => absurd hpc (by simp [System.init])⟩
  · simp only [System.waiters, System.init, initWithConfig_waitLists]
    rfl
  · obtain ⟨p, hp, e⟩ := initWithConfig_priorityFields ht
    exact (Prod.mk.inj e).2.trans_lt hp

end System

end Sertos
