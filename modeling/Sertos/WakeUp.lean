import Sertos.Representation
import Sertos.Frames

/-!
# Waking up

A task that blocked in `sertos_scheduler_wait_list_block` is taken off its wait list by one of two
steps: an event, which is a call of `sertos_scheduler_wait_list_unblock_highest`, or the expiry of
its timeout in the tick.  Both do the same to its control block — `delay_ticks` zero, `wait_list`
`NULL` — and these two fields are all that the blocking call looks at when it runs again.  So the
status it returns depends on the timeout alone: with `SERTOS_WAIT_FOREVER` it is `OK`, and with any
other timeout it is `ERROR_TIMEOUT`, also when the event came first.
-/

set_option autoImplicit false

namespace Sertos

open Intrusive Lts Scheduler

namespace Call.Effect

open Kernel

variable {k k' : Kernel} {t : TaskId} {a : Call}

/-- What a critical section does to a blocked task: it stays blocked where it was, one tick closer
to its expiry if the call was a tick, or it is woken by an expiry or by an event. -/
theorem blocked (he : Effect k a k') (h : k.Settled) (ht : k.Live t)
    (hb : (k.tcb t).state = .blocked) :
    ((k'.tcb t).state = .blocked ∧ (k'.tcb t).waitList = (k.tcb t).waitList ∧
      (k'.tcb t).delayTicks = (k.tcb t).delayTicks - (if a = .tick then 1 else 0) ∧
      ¬ (a = .tick ∧ (k.tcb t).delayTicks = 1)) ∨
    (k'.tcb t = (k.tcb t).woken ∧
      ((a = .tick ∧ (k.tcb t).delayTicks = 1) ∨
        ∃ W, a = .unblock W ∧ (k.tcb t).waitList = some W ∧
          (k.waitLists W).nodes.head? = some t)) := by
  have hsame : ∀ {x : Kernel}, a ≠ .tick → x.tcb t = k.tcb t → (x.tcb t).state = .blocked ∧
      (x.tcb t).waitList = (k.tcb t).waitList ∧
      (x.tcb t).delayTicks = (k.tcb t).delayTicks - (if a = .tick then 1 else 0) ∧
      ¬ (a = .tick ∧ (k.tcb t).delayTicks = 1) := fun hne e => by
    rw [e, if_neg hne]; exact ⟨hb, rfl, rfl, fun h1 => hne h1.1⟩
  cases he with
  | none _ hne => exact Or.inl (hsame hne rfl)
  | enroll hnew _ => exact Or.inl (hsame (by simp) (enroll_tcb_of_live ht hnew))
  | start _ => exact Or.inl (hsame (by simp) rfl)
  | tick =>
    have htick := (Ticked.settled h).tcb t
    by_cases hm : t ∈ k.delayList.nodes
    · rw [if_pos hm] at htick
      by_cases h1 : (k.tcb t).delayTicks = 1
      · exact Or.inr ⟨by rw [htick, Tcb.countDown, if_pos h1], Or.inl ⟨rfl, h1⟩⟩
      · rw [Tcb.countDown, if_neg h1] at htick
        rw [htick]
        exact Or.inl ⟨hb, rfl, rfl, fun h1' => h1 h1'.2⟩
    · -- the task counts no ticks
      have hd : (k.tcb t).delayTicks = 0 := by
        by_contra hd
        exact hm (h.lists.mem_delayList.2 ⟨ht, hb, Nat.pos_of_ne_zero hd⟩)
      rw [if_neg hm] at htick
      rw [htick, hd]
      exact Or.inl ⟨hb, rfl, by simp, by simp⟩
  | rotate ha =>
    exact Or.inl (hsame (by rcases ha with rfl | rfl <;> simp)
      (by rw [(rotated_processTimeSlicing h).tcb]))
  | park hbl _ _ =>
    refine Or.inl (hsame (by rintro rfl; exact hbl.elim) (park_tcb_of_ne k _ _ _ fun e => ?_))
    exact TaskState.ne_blocked_of_isReady (h.ready_current hbl.current).2 (e ▸ hb)
  | @wake W u hW _ _ hwl =>
    by_cases hut : t = u
    · subst hut
      exact Or.inr ⟨wake_tcb_same k t, Or.inr ⟨W, rfl, hwl, hW⟩⟩
    · exact Or.inl (hsame (by simp) (wake_tcb_of_ne k u hut))
  | lock => exact Or.inl (hsame (by simp) rfl)
  | unlock => exact Or.inl (hsame (by simp) (by rw [(sameCore_unlockSection k).tcb]))

/-- Only a blocking call of the task itself puts it on a wait list. -/
theorem notMem_waitList (he : Effect k a k') (h : k.Settled) {W : WaitList}
    (hc : k.currentTcb ≠ some t) (hn : t ∉ (k.waitLists W).nodes) :
    t ∉ (k'.waitLists W).nodes := by
  rw [h.lists.mem_waitList] at hn
  rw [(he.inv h).lists.mem_waitList]
  rintro ⟨hlive, hb, hwl⟩
  cases he with
  | none => exact hn ⟨hlive, hb, hwl⟩
  | enroll hnew _ =>
    rcases live_enroll.1 hlive with ht | rfl
    · rw [enroll_tcb_of_live ht hnew] at hb hwl
      exact hn ⟨ht, hb, hwl⟩
    · simp [enroll_tcb_same, Task.initTcb] at hb
  | start _ => exact hn ⟨hlive, hb, hwl⟩
  | tick =>
    have htick := (Ticked.settled h).tcb t
    rw [Live, (Ticked.settled h).taskRegistry] at hlive
    split at htick
    · rw [htick, Tcb.countDown] at hb hwl
      split at hb
      · simp at hb
      · rename_i h1
        rw [if_neg h1] at hwl
        exact hn ⟨hlive, hb, hwl⟩
    · rw [htick] at hb hwl
      exact hn ⟨hlive, hb, hwl⟩
  | rotate _ =>
    have hr := rotated_processTimeSlicing h
    rw [Live, hr.taskRegistry] at hlive
    rw [hr.tcb] at hb hwl
    exact hn ⟨hlive, hb, hwl⟩
  | park hbl _ _ =>
    have htc : t ≠ _ := fun e => hc (e ▸ hbl.current)
    rw [park_tcb_of_ne k _ _ _ htc] at hb hwl
    exact hn ⟨hlive, hb, hwl⟩
  | @wake _ u _ _ _ _ =>
    by_cases hut : t = u
    · subst hut; simp at hb
    · rw [wake_tcb_of_ne k u hut] at hb hwl
      exact hn ⟨hlive, hb, hwl⟩
  | lock => exact hn ⟨hlive, hb, hwl⟩
  | unlock =>
    have hsame := sameCore_unlockSection k
    rw [Live, hsame.taskRegistry] at hlive
    rw [hsame.tcb] at hb hwl
    exact hn ⟨hlive, hb, hwl⟩

end Call.Effect

namespace Kernel

variable {k k' k₁ k₂ : Kernel} {t : TaskId} {W : WaitList} {a : Call}

/-- What a call does to a task on a wait list: the task stays there, or it is taken off by an expiry
or by an event. -/
theorem Settled.run_mem_waitList (h : k.Settled) (ha : a.Allowed k)
    (hm : t ∈ (k.waitLists W).nodes) :
    (t ∈ ((a.run k).waitLists W).nodes ∧
      ((k.tcb t).delayTicks = 0 → ((a.run k).tcb t).delayTicks = 0)) ∨
    (t ∉ ((a.run k).waitLists W).nodes ∧
      ((a = .tick ∧ (k.tcb t).delayTicks = 1) ∨
        (a = .unblock W ∧ (waitListUnblockHighest k W).2 = some t))) := by
  obtain ⟨ht, hb, hwl⟩ := (h.lists.mem_waitList W).1 hm
  have he := Call.critical_effect h ha
  have hsw := Call.run_switched (he.inv h).lists
  rw [(hsw.listInv (he.inv h).lists).mem_waitList, hsw.live, hsw.blocked, hsw.waitList,
    hsw.delayTicks]
  have hlive := he.live h ht
  rcases he.blocked h ht hb with ⟨hb', hwl', hd, -⟩ | ⟨hw, hcause⟩
  · exact Or.inl ⟨⟨hlive, hb', hwl'.trans hwl⟩, fun h0 => by rw [hd, h0, Nat.zero_sub]⟩
  · refine Or.inr ⟨fun hm' => by simp [hw] at hm', ?_⟩
    rcases hcause with ⟨rfl, h1⟩ | ⟨V, rfl, hV, hhead⟩
    · exact Or.inl ⟨rfl, h1⟩
    · obtain rfl : W = V := Option.some_inj.1 (hwl.symm.trans hV)
      exact Or.inr ⟨rfl, (unblockHighest_snd k W).trans hhead⟩

/-- Only its own blocking call puts a task on a wait list. -/
theorem Settled.run_notMem_waitList (h : k.Settled) (ha : a.Allowed k) (hc : k.currentTcb ≠ some t)
    (hn : t ∉ (k.waitLists W).nodes) : t ∉ ((a.run k).waitLists W).nodes := by
  have he := Call.critical_effect h ha
  rw [(Call.run_switched (he.inv h).lists).waitLists]
  exact he.notMem_waitList h hc hn

/-! ## The blocking call -/

/-- When a task runs, the two fields its blocking call looks at are clear. -/
theorem Settled.current_clear (h : k.Settled) (hc : k.currentTcb = some t) :
    (k.tcb t).delayTicks = 0 ∧ (k.tcb t).waitList = none ∧ ∀ V, t ∉ (k.waitLists V).nodes := by
  obtain ⟨hlive, hr⟩ := h.ready_current hc
  have hnb := TaskState.ne_blocked_of_isReady hr
  obtain ⟨hd, hw⟩ := (h.lists.consistent t hlive).awake hnb
  exact ⟨hd, hw, fun V hm => hnb ((h.lists.mem_waitList V).1 hm).2.1⟩

/-- The status a blocking call returns depends on its timeout alone. -/
theorem Settled.waitListBlockStatus_eq (h : k.Settled) (hc : k.currentTcb = some t)
    (timeout : ℕ) :
    waitListBlockStatus k t timeout = if timeout = waitForever then .ok else .errorTimeout := by
  obtain ⟨hd, hw, -⟩ := h.current_clear hc
  by_cases hf : timeout = waitForever <;> simp [waitListBlockStatus, hd, hw, hf]

/-- After a blocking call its task is on the wait list, with the ticks of its timeout. -/
theorem Settled.run_block (h : k.Settled) (hrun : k.isRunning = true) (hc : k.currentTcb = some t)
    {timeout : ℕ} (ha : (Call.block W timeout).Allowed k) :
    t ∈ (((Call.block W timeout).run k).waitLists W).nodes ∧
      (((Call.block W timeout).run k).tcb t).delayTicks = timeoutTicks timeout := by
  have hw : 0 < timeoutTicks timeout ∨ (some W : Option WaitList) ≠ none := Or.inr (by simp)
  have hinv := h.toInv.park (h.ready_current hc) hw
  have hsw := Switched.switchContext hinv.lists
  rw [Call.run, waitListBlock_eq_park h hrun hc ha.1, hsw.waitLists, hsw.delayTicks]
  refine ⟨(hinv.lists.mem_waitList W).2 ⟨(h.ready_current hc).1, ?_, ?_⟩, ?_⟩ <;> simp

end Kernel

end Sertos
