import Sertos.Calls

/-!
# The window between blocking and switching

A task that blocks does so in one critical section and requests its switch in the next.  A tick can
come in between, and then `process_time_slicing` looks at a current task that is `BLOCKED`.  Its
queue test counts the tasks that are ready at the priority of the current task; if there are two,
the current task is rotated to the tail of a ready queue it is not in.

The critical sections of the kernel (`Section`) can come in any order that lets a task make calls
only while it is not blocked.  `HarmlessTick` says which ticks do no harm (`tickOk_iff`), and every
section apart from a harmful tick keeps the invariant (`Inv.sectionStep`).
-/

set_option autoImplicit false

namespace Sertos

open Intrusive Lts Scheduler

/-- One critical section, or one of the functions that run outside any: the start, and
`sertos_scheduler_perform_switch` as the ports' switch exception calls it. -/
inductive Section
  | critical (a : Call)
  | start (tickInit : Status)
  | switchContext
  | performSwitch
deriving DecidableEq, Repr

namespace Kernel

variable {k k' : Kernel} {t u c : TaskId}

/-- The current task, if there is one, is not blocked: it can make a call. -/
def Awake (k : Kernel) : Prop :=
  match k.currentTcb with
  | none => True
  | some c => (k.tcb c).state ≠ .blocked

instance (k : Kernel) : Decidable k.Awake := by
  unfold Awake
  cases k.currentTcb <;> infer_instance

theorem Inv.ready_of_awake (h : k.Inv) (ha : k.Awake) (hc : k.currentTcb = some c) : k.Ready c := by
  rw [Awake, hc] at ha
  have hlive := h.current_live c hc
  exact ⟨hlive, ((h.lists.consistent c hlive).active).resolve_right ha⟩

end Kernel

namespace Section

open Kernel

/-- The state change of the section. -/
def run (k : Kernel) : Section → Kernel
  | .critical a => a.critical k
  | .start tickInit => Scheduler.start k tickInit
  | .switchContext => Scheduler.switchContext k
  | .performSwitch => Scheduler.performSwitch k

/-- The sections that can come next.  Calls of the current task need it to be awake; the tick and
the events of interrupts can come at any time. -/
def Allowed (k : Kernel) : Section → Prop
  | .critical (.create _ t) => ¬ k.Live t
  | .critical .yield | .critical (.delay _) => k.Awake
  | .critical (.block _ timeout) => timeout ≠ 0 ∧ k.Awake
  | .critical (.start _) => False
  | _ => True

instance (k : Kernel) : DecidablePred (Allowed k)
  | .critical (.create _ t) => inferInstanceAs (Decidable (¬ k.Live t))
  | .critical .yield | .critical (.delay _) => inferInstanceAs (Decidable k.Awake)
  | .critical (.block _ timeout) => inferInstanceAs (Decidable (timeout ≠ 0 ∧ k.Awake))
  | .critical (.start _) => .isFalse id
  | .critical .tick | .critical (.unblock _) | .critical .reschedule | .critical .lock
  | .critical .unlock | .start _ | .switchContext | .performSwitch => .isTrue trivial

/-- One step of a run of critical sections. -/
abbrev Step : Kernel → Section → Kernel → Prop := Guarded Section.Allowed Section.run

end Section

namespace Kernel

variable {k k' : Kernel} {t u c : TaskId}

/-! ## The ready queues after the walk -/

/-- The entries of the delay list with priority `p` for which this is the last tick. -/
def expiring (k : Kernel) (p : ℕ) : List TaskId :=
  k.delayList.nodes.filter fun u => (k.tcb u).delayTicks = 1 ∧ (k.tcb u).priority = p

theorem countDown_readyQueue (h : k.ListInv) (hm : t ∈ k.delayList.nodes) (p : ℕ) :
    ((k.countDown t).readyQueue p).nodes =
      (k.readyQueue p).nodes ++
        if (k.tcb t).delayTicks = 1 ∧ (k.tcb t).priority = p then [t] else [] := by
  obtain ⟨-, -, hd⟩ := h.mem_delayList.1 hm
  rw [countDown]
  by_cases h1 : (k.tcb t).delayTicks = 1
  · rw [if_pos h1]
    simp only [readyQueue, wake, hd, if_true]
    have hne : StateList.ready p ≠ .delay := by simp
    by_cases hp : (k.tcb t).priority = p
    · subst hp
      simp [LinkedList.insertTail, h1, h.stateWF.remove_of_ne hm hne]
    · rw [Bundle.insertTail_of_ne (by simpa using Ne.symm hp), h.stateWF.remove_of_ne hm hne]
      simp [hp]
  · simp [h1, readyQueue]

/-- The walk appends the tasks it wakes to their queues, in the order of the delay list. -/
theorem foldl_countDown_readyQueue {l : List TaskId} (h : k.ListInv)
    (hl : ∀ u ∈ l, u ∈ k.delayList.nodes) (hnd : l.Nodup) (p : ℕ) :
    ((l.foldl countDown k).readyQueue p).nodes =
      (k.readyQueue p).nodes ++
        l.filter fun u => (k.tcb u).delayTicks = 1 ∧ (k.tcb u).priority = p := by
  induction l generalizing k with
  | nil => simp
  | cons t l ih =>
    rw [List.nodup_cons] at hnd
    have hm := hl t (by simp)
    have hrest : ∀ u ∈ l, u ≠ t := fun u hu e => hnd.1 (e ▸ hu)
    have hfilter : (l.filter fun u =>
          ((k.countDown t).tcb u).delayTicks = 1 ∧ ((k.countDown t).tcb u).priority = p)
        = l.filter fun u => (k.tcb u).delayTicks = 1 ∧ (k.tcb u).priority = p := by
      refine List.filter_congr fun u hu => ?_
      rw [countDown_tcb_of_ne (hrest u hu)]
    rw [List.foldl_cons, ih (h.countDown hm)
      (fun u hu => (mem_delayList_countDown (hrest u hu)).2 (hl u (by simp [hu]))) hnd.2, hfilter,
      countDown_readyQueue h hm, List.append_assoc, List.filter_cons]
    split <;> simp_all

theorem advance_readyQueue (h : k.Inv) (p : ℕ) :
    (k.advance.readyQueue p).nodes = (k.readyQueue p).nodes ++ k.expiring p := by
  have h' := ((sameCore_bumpTicks k).inv h).lists
  exact foldl_countDown_readyQueue h' (fun _ hu => hu) (h'.stateWF.list _).nodup p

/-! ## Harmless ticks -/

/-- A tick does no harm if time slicing is off, the current task is not blocked or is woken by this
very tick, or at most one task is ready at its priority afterwards. -/
def HarmlessTick (k : Kernel) : Prop :=
  match k.currentTcb with
  | none => True
  | some c => k.timeSlicingEnabled = true → (k.tcb c).state = .blocked →
    (k.tcb c).delayTicks ≠ 1 →
    (k.readyQueue (k.tcb c).priority).nodes.length + (k.expiring (k.tcb c).priority).length ≤ 1

instance (k : Kernel) : Decidable k.HarmlessTick := by
  unfold HarmlessTick
  cases k.currentTcb <;> infer_instance

/-- What the tick from `k` to `k'` must leave: a task that was `BLOCKED` and did not expire is in no
ready queue and still on the delay list exactly if it counts ticks, and the counts are exact. -/
structure TickOk (k k' : Kernel) : Prop where
  blocked : ∀ t, k.Live t → (k.tcb t).state = .blocked →
    ¬ (t ∈ k.delayList.nodes ∧ (k.tcb t).delayTicks = 1) →
    (∀ p, t ∉ (k'.readyQueue p).nodes) ∧ (t ∈ k'.delayList.nodes ↔ 0 < (k'.tcb t).delayTicks)
  counts : ∀ L, (k'.stateLists L).count = (k'.stateLists L).nodes.length

theorem processTimeSlicing_of_count (hc : k.currentTcb = some c)
    (h : k.timeSlicingEnabled = true → ¬ Exceeds (k.readyQueue (k.tcb c).priority).count 1) :
    processTimeSlicing k = k := by
  rw [processTimeSlicing, hc]
  cases hs : k.timeSlicingEnabled with
  | false => rfl
  | true => simp [h hs]

/-- The rotation puts the current task into the ready queue, whether it was there or not. -/
theorem mem_processTimeSlicing (hs : k.timeSlicingEnabled = true) (hc : k.currentTcb = some c)
    (h : Exceeds (k.readyQueue (k.tcb c).priority).count 1) :
    c ∈ ((processTimeSlicing k).readyQueue (k.tcb c).priority).nodes := by
  simp only [processTimeSlicing, hs, hc, h, if_true]
  simp [readyQueue, Kernel.insertTail]

/-- A task that is still blocked after the walk was so before, and did not expire. -/
theorem blocked_of_advance (h : k.Inv) (ht : k.Live t) (hr : ¬ k.advance.Ready t) :
    (k.tcb t).state = .blocked ∧ (k.tcb t).delayTicks ≠ 1 := by
  rw [(ticked_advance h).ready h.lists, not_or] at hr
  have hb : (k.tcb t).state = .blocked :=
    ((h.lists.consistent t ht).active).resolve_left fun hx => hr.1 ⟨ht, hx⟩
  refine ⟨hb, fun h1 => hr.2 ⟨h.lists.mem_delayList.2 ⟨ht, hb, by omega⟩, h1⟩⟩

/-- **A harmless tick keeps the invariant.** -/
theorem Inv.tickSection (h : k.Inv) (hh : k.HarmlessTick) :
    (Scheduler.tickSection k).1.Inv ∧ Ticked k (Scheduler.tickSection k).1 := by
  rw [tickSection_eq h]
  have hadv := h.advance
  have ht := ticked_advance h
  by_cases hready : ∀ c, k.advance.currentTcb = some c → k.advance.Ready c
  · exact ⟨inv_processTimeSlicing hadv hready,
      ht.trans_rotated (Rotated.processTimeSlicing hadv hready)⟩
  · obtain ⟨c, hnot⟩ := not_forall.1 hready
    obtain ⟨hc, hr⟩ := Classical.not_imp.1 hnot
    have hck : k.currentTcb = some c := ht.currentTcb ▸ hc
    obtain ⟨hb, hd⟩ := blocked_of_advance h (h.current_live c hck) hr
    have hself : processTimeSlicing k.advance = k.advance := by
      refine processTimeSlicing_of_count hc fun hs => ?_
      rw [HarmlessTick, hck] at hh
      have hlen := hh (ht.timeSlicingEnabled ▸ hs) hb hd
      rw [show (k.advance.readyQueue (k.advance.tcb c).priority).count
          = (k.advance.readyQueue (k.advance.tcb c).priority).nodes.length from
          (hadv.lists.stateWF.list _).count_eq,
        ht.priority, advance_readyQueue h, List.length_append, exceeds_natCast]
      exact Nat.not_lt.2 hlen
    rw [hself]
    exact ⟨hadv, ht⟩

theorem tickOk_of_inv (h' : k'.Inv) (ht : Ticked k k') : TickOk k k' where
  blocked t hlive hb hne := by
    have hb' : (k'.tcb t).state = .blocked := by
      rw [ht.tcb]
      by_cases hm : t ∈ k.delayList.nodes
      · have h1 : (k.tcb t).delayTicks ≠ 1 := fun e => hne ⟨hm, e⟩
        simp [hm, Tcb.countDown, h1, hb]
      · simp [hm, hb]
    have hlive' : k'.Live t := by rw [Live, ht.taskRegistry]; exact hlive
    refine ⟨fun p hm => ?_, ?_⟩
    · exact TaskState.ne_blocked_of_isReady ((h'.lists.mem_readyQueue p).1 hm).2.1 hb'
    · rw [h'.lists.mem_delayList]
      simp [hlive', hb']
  counts L := (h'.lists.stateWF.list L).count_eq

/-- **Exactly the harmless ticks leave the lists right.** -/
theorem tickOk_iff (h : k.Inv) : TickOk k (Scheduler.tickSection k).1 ↔ k.HarmlessTick := by
  constructor
  · intro hok
    rw [HarmlessTick]
    cases hc : k.currentTcb with
    | none => trivial
    | some c =>
      intro hs hb hd
      by_contra hlen
      have ht := ticked_advance h
      have hcount : Exceeds (k.advance.readyQueue (k.advance.tcb c).priority).count 1 := by
        rw [show (k.advance.readyQueue (k.advance.tcb c).priority).count
            = (k.advance.readyQueue (k.advance.tcb c).priority).nodes.length from
            (h.advance.lists.stateWF.list _).count_eq,
          ht.priority, advance_readyQueue h, List.length_append, exceeds_natCast]
        omega
      have hm := mem_processTimeSlicing (ht.timeSlicingEnabled.trans hs) (ht.currentTcb.trans hc)
        hcount
      rw [tickSection_eq h] at hok
      exact (hok.blocked c (h.current_live c hc) hb fun e => hd e.2).1 _ hm
  · intro hh
    obtain ⟨h', ht⟩ := h.tickSection hh
    exact tickOk_of_inv h' ht

/-! ## The critical sections -/

/-- Every section keeps the invariant, if the ticks are harmless. -/
theorem Inv.sectionStep (h : k.Inv) {s : Section} (hs : Section.Step k s k')
    (htick : s = .critical .tick → k.HarmlessTick) : k'.Inv := by
  obtain ⟨ha, rfl⟩ := hs
  cases s with
  | start tickInit =>
    have hsame : ∀ b, SameCore k { k with isRunning := b } :=
      fun _ => ⟨rfl, rfl, rfl, rfl, rfl, rfl⟩
    simp only [Section.run, Scheduler.start]
    split
    · exact ((hsame true).inv h).performSwitch
    · exact (hsame false).inv h
  | switchContext => exact h.switchContext
  | performSwitch => exact h.performSwitch
  | critical a =>
    have hslice : k.Awake → (processTimeSlicing k).Inv := fun haw =>
      inv_processTimeSlicing h fun c hc => h.ready_of_awake haw hc
    cases a with
    | create config t =>
      simp only [Section.run, Call.critical]
      rcases Task.createStaticSection_cases k config t with ⟨-, e⟩ | ⟨hp, e⟩
      · rw [e]; exact h
      · rw [e]; exact h.enroll ha hp
    | start tickInit => exact ha.elim
    | tick => exact (h.tickSection (htick rfl)).1
    | yield => exact hslice ha
    | delay n =>
      simp only [Section.run, Call.critical]
      split
      · exact hslice ha
      · rename_i hn
        split
        · rename_i c _ hc
          have hr := h.ready_of_awake ha hc
          rw [delaySection_eq_park h.lists hr.1 hr.2 (Nat.pos_of_ne_zero hn)]
          exact h.park hr (Or.inl (Nat.pos_of_ne_zero hn))
        · exact h
    | block W timeout =>
      simp only [Section.run, Call.critical]
      split
      · rename_i c _ hc
        have hr := h.ready_of_awake ha.2 hc
        rw [waitListBlockSection_eq_park h.lists hr.1 hr.2 ha.1]
        exact h.park hr (Or.inr (by simp))
      · exact h
    | unblock W =>
      simp only [Section.run, Call.critical]
      rcases unblockHighest_cases h.lists W with ⟨-, e⟩ | ⟨t, -, ht, hb, -, e⟩
      · rw [e]; exact h
      · rw [e]; exact h.wake ht hb
    | reschedule => exact h
    | lock => exact SameCore.inv (k := k) ⟨rfl, rfl, rfl, rfl, rfl, rfl⟩ h
    | unlock => exact (Call.sameCore_unlockSection k).inv h

end Kernel

end Sertos
