import Sertos.Cycle

/-!
# What keeps the scheduling cycle right

Apart from the calls of the scheduler itself, the calls on tasks and mutexes do four things to the
tasks of the cycle: one leaves, one joins, one is given another priority, or something is written
that no list depends on.  `Kernel.Moved` lists the four with their conditions, and the conditions
are what the calls can get wrong: a task that leaves is `READY` and not the current one, and a
`RUNNING` task keeps its priority.

An invariant that the four keep is `Kept`, whether it is one of critical sections or of whole calls.
`Lasting` and `Lockable` add the calls of the scheduler, the second also those that take its lock.
-/

set_option autoImplicit false

namespace Sertos

open Intrusive Lts Scheduler

/-! ## Another priority -/

theorem Mutex.changePriority_eq_requeue {k : Kernel} {t : TaskId} {p : ℕ} (h : k.ListInv)
    (ht : k.Live t) (hr : (k.tcb t).state = .ready) (hp : p < maxPriorities) :
    changePriority k t p = k.requeue t p := by
  have hready : (k.tcb t).state.isReady = true := by rw [hr]; rfl
  obtain ⟨hlinked, -⟩ := links_of_isReady h ht hready
  rw [changePriority, if_pos hr, removeReady_eq (h.priority_lt ht) hlinked, addReady_eq (by simpa)]
  simp only [Kernel.requeue, Kernel.modify, Function.update_self, Function.update_idem]
  congr
  · exact hr.symm
  · exact hlinked.symm

/-- Changing a priority for good is changing it and writing the base priority. -/
theorem Task.setPrioritySection_eq (k : Kernel) (t : TaskId) (p : ℕ) :
    setPrioritySection k t p =
      (Mutex.changePriority k t p).modify t fun b => { b with basePriority := p } := by
  by_cases hs : (k.tcb t).state = .ready
  · by_cases hp : maxPriorities ≤ p
    · simp [setPrioritySection, Mutex.changePriority, hs, addReady, hp, Kernel.modify]
    · simp [setPrioritySection, Mutex.changePriority, hs, addReady, hp, Kernel.modify,
        Kernel.insertTail]
  · simp [setPrioritySection, Mutex.changePriority, hs, Kernel.modify]

/-- A blocked task can have any priority, a task in a ready queue that of its queue. -/
theorem Tcb.Consistent.withPriority {b : Tcb} (h : b.Consistent) {p : ℕ} (hp : p < maxPriorities)
    (hs : b.state.isReady = true → p = b.priority) :
    ({ b with priority := p } : Tcb).Consistent ∧
      ({ b with priority := p } : Tcb).stateList = b.stateList := by
  have hsl : ({ b with priority := p } : Tcb).stateList = b.stateList := by
    rcases h.active with hr | hb
    · obtain rfl := hs hr
      rfl
    · simp [Tcb.stateList, hb]
  exact ⟨⟨hp, h.active, h.awake, h.wakeable, hsl ▸ h.stateLinked_eq, h.eventLinked_eq⟩, hsl⟩

namespace Kernel

variable {k k' : Kernel} {t u c : TaskId} {p : ℕ}

theorem ListInv.changePriority (h : k.ListInv) (ht : k.Live t) (hp : p < maxPriorities)
    (hs : (k.tcb t).state ≠ .running ∨ p = (k.tcb t).priority) :
    (Mutex.changePriority k t p).ListInv := by
  by_cases hr : (k.tcb t).state = .ready
  · rw [Mutex.changePriority_eq_requeue h ht hr hp]
    exact h.requeue ht (by rw [hr]; rfl) hp
  · rw [Mutex.changePriority, if_neg hr]
    refine h.of_tcb rfl rfl rfl rfl fun u hu => ?_
    by_cases hut : u = t
    · subst hut
      rw [modify_tcb_same]
      obtain ⟨hcons, hsl⟩ := (h.consistent u hu).withPriority hp fun hready =>
        hs.resolve_left (not_not.2 ((TaskState.isReady_iff.1 hready).resolve_left hr))
      exact ⟨hcons, hsl, rfl⟩
    · rw [modify_tcb_of_ne _ _ _ hut]
      exact ⟨h.consistent u hu, rfl, rfl⟩

theorem changePriority_state (h : k.ListInv) (ht : k.Live t) (hp : p < maxPriorities) :
    ((Mutex.changePriority k t p).tcb u).state = (k.tcb u).state := by
  by_cases hut : u = t
  · subst hut
    by_cases hr : (k.tcb u).state = .ready
    · rw [Mutex.changePriority_eq_requeue h ht hr hp, requeue_tcb_same]
    · rw [Mutex.changePriority, if_neg hr, modify_tcb_same]
  · rw [Mutex.changePriority_tcb_of_ne k t p hut]

/-! ## The moves -/

/-- What a call on tasks or mutexes does to the tasks of the cycle, waking, blocking and switching
apart. -/
inductive Moved (k k' : Kernel) : Prop
  | left {t : TaskId} (hl : Left k k' t) (ht : k.Ready t) (hc : k.currentTcb ≠ some t)
    (hidle : t ≠ idleTcb)
  | joined {t : TaskId} (hj : Joined k k' t) (ht : ¬ k.Live t)
  | priority {t : TaskId} {p : ℕ} (ht : k.Live t) (hp : p < maxPriorities)
    (hs : (k.tcb t).state ≠ .running ∨ p = (k.tcb t).priority) (e : k' = Mutex.changePriority k t p)
  /-- Of the tasks of the cycle only base priorities are written. -/
  | written (hk : SameCore { k with tcb := k'.tcb } k') (hl : k'.lockNesting = k.lockNesting)
    (hslice : k'.timeSlicingEnabled = k.timeSlicingEnabled)
    (htcb : ∀ u, k.Live u → ∃ q, k'.tcb u = { k.tcb u with basePriority := q })

namespace Moved

theorem listInv (hm : Moved k k') (h : k.ListInv) : k'.ListInv := by
  cases hm with
  | left hl ht => exact hl.listInv h ht
  | joined hj ht => exact hj.listInv h ht
  | priority ht hp hs e => exact e ▸ h.changePriority ht hp hs
  | written hk hl hslice htcb =>
    refine h.of_tcb hk.taskRegistry hk.stateLists hk.waitLists hk.readyBitmap fun u hu => ?_
    obtain ⟨q, e⟩ := htcb u hu
    have hc := h.consistent u hu
    rw [e]
    exact ⟨⟨hc.priority_lt, hc.active, hc.awake, hc.wakeable, hc.stateLinked_eq, hc.eventLinked_eq⟩,
      rfl, rfl⟩

theorem currentTcb (hm : Moved k k') : k'.currentTcb = k.currentTcb := by
  cases hm with
  | left hl => exact hl.currentTcb
  | joined hj => exact hj.currentTcb
  | priority _ _ _ e => rw [e, Mutex.changePriority_frame]
  | written hk => exact hk.currentTcb

theorem lockNesting (hm : Moved k k') : k'.lockNesting = k.lockNesting := by
  cases hm with
  | left hl => exact hl.lockNesting
  | joined hj => exact hj.lockNesting
  | priority _ _ _ e => rw [e, Mutex.changePriority_frame]
  | written _ hl => exact hl

theorem timeSlicingEnabled (hm : Moved k k') : k'.timeSlicingEnabled = k.timeSlicingEnabled := by
  cases hm with
  | left hl => exact hl.timeSlicingEnabled
  | joined hj => exact hj.timeSlicingEnabled
  | priority _ _ _ e => rw [e, Mutex.changePriority_frame]
  | written _ _ hslice => exact hslice

/-- The current task stays in the cycle, with its state. -/
theorem current (hm : Moved k k') (h : k.Inv) (hc : k.currentTcb = some c) :
    k'.Live c ∧ (k'.tcb c).state = (k.tcb c).state := by
  have hlive := h.current_live c hc
  cases hm with
  | @left t hl ht hne =>
    have hct : c ≠ t := fun e => hne (e ▸ hc)
    exact ⟨(hl.live h.lists).2 ⟨hct, hlive⟩, by rw [hl.tcb_of_ne c hct]⟩
  | joined hj ht => exact ⟨hj.live.2 (Or.inl hlive), by rw [hj.tcb_of_live hlive ht]⟩
  | priority ht hp hs e =>
    subst e
    refine ⟨?_, changePriority_state h.lists ht hp⟩
    rw [Live, Mutex.changePriority_frame]
    exact hlive
  | written hk _ _ htcb =>
    obtain ⟨q, e⟩ := htcb c hlive
    refine ⟨?_, by rw [e]⟩
    rw [Live, hk.taskRegistry]
    exact hlive

/-- A task that is running afterwards was so before. -/
theorem running (hm : Moved k k') (h : k.Inv) (hu : k'.Live u) (hs : (k'.tcb u).state = .running) :
    k.Live u ∧ (k.tcb u).state = .running := by
  cases hm with
  | left hl ht =>
    obtain ⟨hut, hu⟩ := (hl.live h.lists).1 hu
    rw [hl.tcb_of_ne u hut] at hs
    exact ⟨hu, hs⟩
  | joined hj ht =>
    rcases hj.live.1 hu with hu | rfl
    · rw [hj.tcb_of_live hu ht] at hs
      exact ⟨hu, hs⟩
    · rw [hj.state] at hs
      exact absurd hs (by simp)
  | priority ht hp _ e =>
    subst e
    rw [changePriority_state h.lists ht hp] at hs
    rw [Live, Mutex.changePriority_frame] at hu
    exact ⟨hu, hs⟩
  | written hk _ _ htcb =>
    rw [Live, hk.taskRegistry] at hu
    obtain ⟨q, e⟩ := htcb u hu
    rw [e] at hs
    exact ⟨hu, hs⟩

theorem inv (hm : Moved k k') (h : k.Inv) : k'.Inv where
  lists := hm.listInv h.lists
  current_live c hc := (hm.current h (hm.currentTcb ▸ hc)).1
  running u hu hs := by
    obtain ⟨hu, hs⟩ := hm.running h hu hs
    rw [hm.currentTcb]
    exact h.running u hu hs

theorem settled (hm : Moved k k') (h : k.Settled) : k'.Settled :=
  { hm.inv h.toInv with
    current_running := fun c hc => by
      rw [hm.currentTcb] at hc
      rw [(hm.current h.toInv hc).2]
      exact h.current_running c hc }

/-- The Idle task stays ready. -/
theorem idle_ready (hm : Moved k k') (h : k.ListInv) (hidle : k.Ready idleTcb) :
    k'.Ready idleTcb := by
  cases hm with
  | left hl ht hc hne => exact hl.ready h hidle hne.symm
  | joined hj ht => exact hj.ready ht hidle
  | priority ht hp _ e =>
    subst e
    refine ⟨?_, by rw [changePriority_state h ht hp]; exact hidle.2⟩
    rw [Live, Mutex.changePriority_frame]
    exact hidle.1
  | written hk _ _ htcb =>
    obtain ⟨q, e⟩ := htcb idleTcb hidle.1
    refine ⟨?_, by rw [e]; exact hidle.2⟩
    rw [Live, hk.taskRegistry]
    exact hidle.1

theorem steady (hm : Moved k k') (h : k.Steady) : k'.Steady :=
  { hm.settled h.toSettled with idle_ready := hm.idle_ready h.lists h.idle_ready }

/-- The control block of a task outside the cycle does not matter. -/
theorem modify {f : Tcb → Tcb} (ht : ¬ k.Live t) : Moved k (k.modify t f) := by
  refine .written ⟨rfl, rfl, rfl, rfl, rfl, rfl⟩ rfl rfl fun u hu => ⟨(k.tcb u).basePriority, ?_⟩
  have hut : u ≠ t := fun e => ht (e ▸ hu)
  rw [modify_tcb_of_ne _ _ _ hut]

theorem modify_basePriority (k : Kernel) (t : TaskId) (p : ℕ) :
    Moved k (k.modify t fun b => { b with basePriority := p }) := by
  refine .written ⟨rfl, rfl, rfl, rfl, rfl, rfl⟩ rfl rfl fun u _ => ?_
  by_cases hut : u = t
  · subst hut
    exact ⟨p, modify_tcb_same _ _ _⟩
  · exact ⟨(k.tcb u).basePriority, by rw [modify_tcb_of_ne _ _ _ hut]⟩

end Moved

/-! ## Invariants -/

/-- An invariant of critical sections or of whole calls that the moves keep, and the waking of a
task. -/
class Kept (P : Kernel → Prop) : Prop where
  inv : ∀ {k}, P k → k.Inv
  moved : ∀ {k k'}, P k → Moved k k' → P k'
  unblock : ∀ {k} (W : WaitList), P k → P (waitListUnblockHighest k W).1

/-- An invariant of whole calls that leave the scheduler lock alone. -/
class Lasting (P : Kernel → Prop) : Prop extends Kept P where
  settled : ∀ {k}, P k → k.Settled
  run : ∀ {k} {a : Call}, P k → a.Plain → a.Allowed k → a.BlocksUnlocked k → P (a.run k)
  performSwitch : ∀ {k}, P k → P (performSwitch k)

/-- An invariant of whole calls, those that take and release the scheduler lock included. -/
class Lockable (P : Kernel → Prop) : Prop extends Lasting P where
  lock : ∀ {k}, P k → P (lock k)
  unlock : ∀ {k}, P k → P (unlock k)

instance : Kept Inv where
  inv h := h
  moved h hm := hm.inv h
  unblock W h := h.sectionStep (s := .critical (.unblock W)) ⟨trivial, rfl⟩ (by simp)

theorem Steady.performSwitch (h : k.Steady) : (Scheduler.performSwitch k).Steady :=
  { h.toSettled.performSwitch with
    idle_ready := (Switched.performSwitch h.lists).ready.2 h.idle_ready }

instance : Lockable Steady where
  inv h := h.toInv
  moved h hm := hm.steady h
  unblock W h := h.run (a := .unblock W) trivial fun _ hb => hb.elim
  settled h := h.toSettled
  run h _ ha hb := h.run ha (Call.blocksUnlocked_iff.1 hb)
  performSwitch h := h.performSwitch
  lock h := h.run (a := .lock) trivial fun _ hb => hb.elim
  unlock h := h.run (a := .unlock) trivial fun _ hb => hb.elim

instance : Lasting Unlocked where
  inv h := h.toInv
  moved h hm :=
    { hm.steady h.toSteady with lockNesting_eq := hm.lockNesting.trans h.lockNesting_eq }
  unblock W h := h.step (a := .unblock W) ⟨⟨trivial, id⟩, rfl⟩
  settled h := h.toSettled
  run h hplain ha _ := h.step ⟨⟨ha, hplain.not_touchesLock⟩, rfl⟩
  performSwitch h :=
    { h.toSteady.performSwitch with
      lockNesting_eq := (Switched.performSwitch h.lists).lockNesting.trans h.lockNesting_eq }

end Kernel

end Sertos
