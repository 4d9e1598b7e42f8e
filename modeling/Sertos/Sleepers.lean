import Sertos.WaitOrder
import Sertos.HeldPriority

/-!
# Tasks that sleep

A task sleeps on a wait list, on the delay list, or on both at once when it waits with a timeout.
It is put there by its own call only.  Everything else the scheduler does can at most wake it
(`Rouses`): an unblock wakes the head of one wait list, and a tick wakes the tasks whose time is up,
and only those (`tickSection_waitList`).

As in `Sertos.WaitOrder`, nothing is asked of the ready queues.
-/

set_option autoImplicit false

namespace Sertos

open Intrusive Lts Scheduler

namespace Scheduler

variable {k : Kernel} {t u c : TaskId}

/-! ## One task of the delay list -/

theorem delay_insertTail_ready (B : Bundle StateList TaskId) (p : ℕ) (t : TaskId) :
    B.insertTail (.ready p) t .delay = B .delay := by
  have hne : StateList.delay ≠ .ready p := by simp
  exact Bundle.insertTail_of_ne hne

theorem addReady_delayList (k : Kernel) (t : TaskId) :
    (addReady k t).1.delayList = k.delayList := by
  simp only [addReady]
  split_ifs
  · rfl
  · exact delay_insertTail_ready k.stateLists (k.tcb t).priority t

theorem removeReady_delayList_sublist (k : Kernel) (t : TaskId) :
    (removeReady k t).1.delayList.nodes.Sublist k.delayList.nodes := by
  simp only [removeReady]
  split_ifs
  · exact List.Sublist.refl _
  · exact List.erase_sublist
  · exact List.erase_sublist
  · exact List.Sublist.refl _

theorem changePriority_delayList_sublist (k : Kernel) (t : TaskId) (p : ℕ) :
    (Mutex.changePriority k t p).delayList.nodes.Sublist k.delayList.nodes := by
  rw [Mutex.changePriority]
  split
  · rw [addReady_delayList]
    exact removeReady_delayList_sublist k t
  · exact List.Sublist.refl _

theorem setPrioritySection_delayList_sublist (k : Kernel) (t : TaskId) (p : ℕ) :
    (Task.setPrioritySection k t p).delayList.nodes.Sublist k.delayList.nodes := by
  simp only [Task.setPrioritySection]
  split
  · rw [addReady_delayList]
    exact removeReady_delayList_sublist k t
  · exact List.Sublist.refl _

theorem processDelayedTask_tcb_of_ne (hu : u ≠ t) :
    (processDelayedTask k t).1.tcb u = k.tcb u :=
  processDelayedTask_of_writes k t (R := fun x y => y.tcb u = x.tcb u) (fun _ => rfl)
    (fun _ _ _ h h' => h'.trans h) (fun x => Kernel.modify_tcb_of_ne x t _ hu) (fun _ => rfl)
    (fun x W => by rw [Kernel.modify_tcb_of_ne _ _ _ hu, waitListRemove_tcb_of_ne x t W hu])
    (fun x => addReady_tcb_of_ne x t hu)

/-- The round counts down, and ends the wait when nothing is left. -/
theorem processDelayedTask_tcb_same :
    ((processDelayedTask k t).1.tcb t).delayTicks = (k.tcb t).delayTicks - 1 ∧
      ((processDelayedTask k t).1.tcb t).waitList =
        if (k.tcb t).delayTicks ≤ 1 then none else (k.tcb t).waitList := by
  have hcount : (if 0 < (k.tcb t).delayTicks then
      k.modify t fun b => { b with delayTicks := b.delayTicks - 1 } else k).tcb t =
        { k.tcb t with delayTicks := (k.tcb t).delayTicks - 1 } := by
    split
    · exact Kernel.modify_tcb_same k t _
    · next h => rw [show (k.tcb t).delayTicks - 1 = (k.tcb t).delayTicks by omega]
  rw [processDelayedTask]
  simp only
  generalize (if 0 < (k.tcb t).delayTicks then
      k.modify t fun b => { b with delayTicks := b.delayTicks - 1 } else k) = x at hcount ⊢
  rw [hcount]
  simp only
  split
  · next h =>
    have hle : (k.tcb t).delayTicks ≤ 1 := by omega
    rw [if_pos hle, addReady_tcb_same]
    cases hW : (k.tcb t).waitList with
    | none =>
      simp [Kernel.removeDirect, hcount, hW]
    | some W =>
      simp [Kernel.removeDirect, hcount, hW, waitListRemove_tcb_same]
  · next h =>
    rw [if_neg (by omega), hcount]
    exact ⟨rfl, rfl⟩

theorem processDelayedTask_delayList_sublist (k : Kernel) (t : TaskId) :
    (processDelayedTask k t).1.delayList.nodes.Sublist k.delayList.nodes :=
  processDelayedTask_of_writes k t (R := fun x y => y.delayList.nodes.Sublist x.delayList.nodes)
    (fun _ => List.Sublist.refl _) (fun _ _ _ h h' => h'.trans h) (fun _ => List.Sublist.refl _)
    (fun _ => List.erase_sublist)
    (fun x W => by
      rw [Kernel.delayList, Kernel.modify_stateLists, waitListRemove_frame]
      exact List.Sublist.refl _)
    (fun x => by rw [addReady_delayList])

end Scheduler

/-! ## What wakes a task -/

namespace Kernel

variable {k k' k'' : Kernel} {t u c : TaskId} {W : WaitList} {P Q : TaskId → Prop}

/-- No task is put to sleep, and those that are taken off a wait list satisfy `P` and have no ticks
left. -/
structure Rouses (P : TaskId → Prop) (k k' : Kernel) : Prop where
  live : ∀ t, k.Live t → k'.Live t
  waitList : ∀ t, k.Live t → (k'.tcb t).waitList = (k.tcb t).waitList ∨
    (P t ∧ (k'.tcb t).waitList = none ∧ (k'.tcb t).delayTicks = 0)
  ticks : ∀ t, k.Live t → (k.tcb t).delayTicks = 0 → (k'.tcb t).delayTicks = 0
  delay : k'.delayList.nodes.Sublist k.delayList.nodes

namespace Rouses

theorem refl (P : TaskId → Prop) (k : Kernel) : Rouses P k k :=
  ⟨fun _ ht => ht, fun _ _ => .inl rfl, fun _ _ h => h, List.Sublist.refl _⟩

theorem trans (h : Rouses P k k') (h' : Rouses P k' k'') : Rouses P k k'' := by
  refine ⟨fun t ht => h'.live t (h.live t ht), fun t ht => ?_,
    fun t ht h0 => h'.ticks t (h.live t ht) (h.ticks t ht h0), h'.delay.trans h.delay⟩
  rcases h'.waitList t (h.live t ht) with e | hwoken
  · rcases h.waitList t ht with e' | ⟨hP, hnone, hticks⟩
    · exact .inl (e.trans e')
    · exact .inr ⟨hP, e.trans hnone, h'.ticks t (h.live t ht) hticks⟩
  · exact .inr hwoken

theorem mono (h : Rouses P k k') (hPQ : ∀ t, P t → Q t) : Rouses Q k k' :=
  ⟨h.live, fun t ht => (h.waitList t ht).imp_right fun ⟨hP, hwoken⟩ => ⟨hPQ t hP, hwoken⟩, h.ticks,
    h.delay⟩

/-- What a control block says about sleeping. -/
def sleepFields (b : Tcb) : Option WaitList × ℕ := (b.waitList, b.delayTicks)

theorem of_eq (hreg : k'.taskRegistry = k.taskRegistry) (hlist : k'.delayList = k.delayList)
    (htcb : ∀ t, sleepFields (k'.tcb t) = sleepFields (k.tcb t)) : Rouses P k k' := by
  simp only [sleepFields, Prod.mk.injEq] at htcb
  exact ⟨fun t ht => by rw [Live, hreg]; exact ht, fun t _ => .inl (htcb t).1,
    fun t _ ht => (htcb t).2.trans ht, by rw [hlist]⟩

theorem performSwitch : Rouses P k (performSwitch k) :=
  of_eq (by rw [performSwitch_frame]) (by rw [delayList, performSwitch_frame]; rfl) fun u =>
    by rw [performSwitch_tcb]; rfl

theorem switchContext : Rouses P k (switchContext k) :=
  of_eq (by rw [switchContext_frame]) (by rw [delayList, switchContext_frame]; rfl) fun u =>
    by rw [switchContext_tcb]; rfl

theorem reschedule : Rouses P k (reschedule k) :=
  of_eq (by rw [reschedule_frame]) (by rw [delayList, reschedule_frame]; rfl) fun u =>
    by rw [reschedule_tcb]; rfl

/-- An unblock wakes the head of the list. -/
theorem unblockHighest :
    Rouses (fun t => (k.waitLists W).nodes.head? = some t) k (waitListUnblockHighest k W).1 := by
  cases hW : (k.waitLists W).nodes with
  | nil => rw [waitListUnblockHighest_nil hW]; exact refl _ k
  | cons t rest =>
    have hsame := unblockHighest_tcb_same k t W hW
    refine ⟨fun u hu => ?_, fun u _ => ?_, fun u _ hu => ?_, ?_⟩
    · rw [Live, unblockHighest_frame]
      exact hu
    · by_cases hut : u = t
      · rw [hut, hsame]
        exact .inr ⟨rfl, rfl, rfl⟩
      · rw [unblockHighest_tcb_of_ne k t W hW hut]
        exact .inl rfl
    · by_cases hut : u = t
      · rw [hut, hsame]
      · rw [unblockHighest_tcb_of_ne k t W hW hut]
        exact hu
    · have hremove : (Scheduler.waitListRemove k W t).delayList = k.delayList := by
        rw [delayList, waitListRemove_frame]
        rfl
      simp only [waitListUnblockHighest, hW, addReady_delayList]
      rw [← hremove]
      split
      · exact List.erase_sublist
      · exact List.Sublist.refl _

theorem processDelayedTask : Rouses (· = t) k (processDelayedTask k t).1 := by
  obtain ⟨hticks, hwait⟩ := processDelayedTask_tcb_same (k := k) (t := t)
  refine ⟨fun u hu => SamePriorities.processDelayedTask.live hu, fun u _ => ?_, fun u _ hu => ?_,
    processDelayedTask_delayList_sublist k t⟩
  · by_cases hut : u = t
    · subst hut
      rw [hwait, hticks]
      split
      · next hle => exact .inr ⟨rfl, rfl, by omega⟩
      · exact .inl rfl
    · rw [processDelayedTask_tcb_of_ne hut]
      exact .inl rfl
  · by_cases hut : u = t
    · rw [hut] at hu
      rw [hut, hticks]
      omega
    · rw [processDelayedTask_tcb_of_ne hut]
      exact hu

theorem processDelayedFrom (l : List TaskId) (b : Bool) :
    Rouses (· ∈ l) k (processDelayedFrom k b l).1 := by
  induction l generalizing k b with
  | nil => exact refl _ k
  | cons t l ih =>
    have hfirst : Rouses (· ∈ t :: l) k (Scheduler.processDelayedTask k t).1 :=
      processDelayedTask.mono fun u hu => by simp [hu]
    exact hfirst.trans ((ih _).mono fun u hu => List.mem_cons_of_mem t hu)

theorem processTimeSlicing : Rouses P k (processTimeSlicing k) := by
  refine ⟨fun u hu => ?_, fun u _ => .inl ?_, fun u _ hu => ?_, ?_⟩
  · rw [Live, processTimeSlicing_frame]
    exact hu
  · rw [processTimeSlicing_tcb]
  · rw [processTimeSlicing_tcb]
    exact hu
  · rw [Scheduler.processTimeSlicing]
    split
    · next c _ _ =>
      simp only
      split_ifs
      · have hlist := delay_insertTail_ready (k.stateLists.remove (.ready (k.tcb c).priority) c)
          (k.tcb c).priority c
        have hnodes := congrArg LinkedList.nodes hlist
        exact hnodes ▸ List.erase_sublist
      · exact List.Sublist.refl _
    · exact List.Sublist.refl _

/-- A tick wakes tasks of the delay list. -/
theorem tickSection : Rouses (· ∈ k.delayList.nodes) k (tickSection k).1 := by
  have hbump : Rouses (· ∈ k.delayList.nodes) k { k with systemTicks := k.systemTicks + 1 } :=
    of_eq rfl rfl fun _ => rfl
  exact hbump.trans ((processDelayedFrom _ false).trans processTimeSlicing)

theorem createStaticSection {config : TaskConfig} (ht : ¬ k.Live t) :
    Rouses P k (Task.createStaticSection k config t).1 := by
  rcases Task.createStaticSection_cases k config t with ⟨-, e⟩ | ⟨-, e⟩
  · rw [e]; exact refl P k
  · rw [e]
    have htcb : ∀ u, k.Live u → (k.enroll t config).tcb u = k.tcb u := fun u hu => by
      have hne : u ≠ t := fun e => ht (e ▸ hu)
      simp [enroll, hne]
    refine ⟨fun u hu => live_enroll.2 (Or.inl hu), fun u hu => .inl (by rw [htcb u hu]),
      fun u hu h0 => (by rw [htcb u hu]; exact h0), ?_⟩
    have hlist : (k.enroll t config).delayList = k.delayList :=
      delay_insertTail_ready k.stateLists config.priority t
    rw [hlist]

end Rouses

/-! ## Falling asleep -/

/-- Only `c` may be put to sleep: the others are as they were. -/
structure Lulls (c : TaskId) (k k' : Kernel) : Prop where
  live : ∀ t, k'.Live t ↔ k.Live t
  tcb : ∀ t, t ≠ c → k'.tcb t = k.tcb t
  delay : ∀ t, t ≠ c → (t ∈ k'.delayList.nodes ↔ t ∈ k.delayList.nodes)
  nodup : k.delayList.nodes.Nodup → c ∉ k.delayList.nodes → k'.delayList.nodes.Nodup

theorem lulls_of_delayList {l : List TaskId} (hl : l.Sublist k.delayList.nodes)
    (hmem : ∀ t, t ≠ c → (t ∈ l ↔ t ∈ k.delayList.nodes))
    (hlist : k'.delayList.nodes = l ∨ k'.delayList.nodes = l ++ [c])
    (hlive : ∀ t, k'.Live t ↔ k.Live t) (htcb : ∀ t, t ≠ c → k'.tcb t = k.tcb t) :
    Lulls c k k' := by
  refine ⟨hlive, htcb, fun t ht => ?_, fun hn hc => ?_⟩
  · rcases hlist with e | e <;> rw [e]
    · exact hmem t ht
    · simp [hmem t ht, ht]
  · rcases hlist with e | e <;> rw [e]
    · exact hn.sublist hl
    · exact (hn.sublist hl).append (List.nodup_singleton c)
        (List.disjoint_singleton.2 fun hm => hc (hl.subset hm))

theorem removeReady_mem_delayList (htc : t ≠ c) :
    t ∈ (removeReady k c).1.delayList.nodes ↔ t ∈ k.delayList.nodes := by
  simp only [removeReady]
  split_ifs
  · rfl
  · exact Bundle.mem_remove_of_ne htc
  · exact Bundle.mem_remove_of_ne htc
  · rfl

theorem lulls_delaySection (n : ℕ) : Lulls c k (delaySection k c n) := by
  refine lulls_of_delayList (removeReady_delayList_sublist k c)
    (fun t ht => removeReady_mem_delayList ht) (.inr ?_) (fun t => ?_) fun t ht => ?_
  · simp only [delaySection, Kernel.insertTail, delayList, Kernel.modify]
    rw [Bundle.insertTail_same]
    rfl
  · rw [Live, Live, delaySection_frame]
  · simp [delaySection, Kernel.insertTail, Kernel.modify, ht]

theorem lulls_waitListBlockSection (W : WaitList) (timeout : ℕ) :
    Lulls c k (waitListBlockSection k c W timeout) := by
  refine lulls_of_delayList (removeReady_delayList_sublist k c)
    (fun t ht => removeReady_mem_delayList ht) ?_ (waitListBlockSection_live k c W timeout)
    fun t ht => waitListBlockSection_tcb_of_ne k c W timeout ht
  simp only [waitListBlockSection, insertWaitListPriority]
  split
  · refine .inr ?_
    simp only [Kernel.insertTail, delayList, Kernel.modify]
    rw [Bundle.insertTail_same]
    rfl
  · exact .inl rfl

/-- A task that waits without a timeout is not put on the delay list. -/
theorem waitListBlockSection_forever (W : WaitList) (hc : c ∉ k.delayList.nodes) :
    c ∉ (waitListBlockSection k c W waitForever).delayList.nodes := by
  have hlist : (waitListBlockSection k c W waitForever).delayList =
    (removeReady k c).1.delayList := by
    simp [waitListBlockSection, insertWaitListPriority, delayList, Kernel.modify]
  rw [hlist]
  exact fun hm => hc ((removeReady_delayList_sublist k c).subset hm)

/-! ## The tick -/

/-- The next tick ends the sleep of the task. -/
def Expires (k : Kernel) (t : TaskId) : Prop := t ∈ k.delayList.nodes ∧ (k.tcb t).delayTicks ≤ 1

instance (k : Kernel) : DecidablePred k.Expires := fun t =>
  inferInstanceAs (Decidable (t ∈ k.delayList.nodes ∧ (k.tcb t).delayTicks ≤ 1))

theorem processDelayedFrom_waitList {l : List TaskId} (hl : l.Nodup) (b : Bool) (t : TaskId) :
    ((processDelayedFrom k b l).1.tcb t).waitList =
      if t ∈ l ∧ (k.tcb t).delayTicks ≤ 1 then none else (k.tcb t).waitList := by
  induction l generalizing k b with
  | nil => simp [processDelayedFrom]
  | cons u l ih =>
    obtain ⟨hu, hl⟩ := List.nodup_cons.1 hl
    rw [processDelayedFrom, ih hl]
    by_cases htu : t = u
    · -- the rest of the walk does not come back to the task
      subst htu
      have hwait := (processDelayedTask_tcb_same (k := k) (t := t)).2
      simp [hu, hwait]
    · rw [processDelayedTask_tcb_of_ne htu]
      simp [htu]

/-- **A tick wakes exactly the tasks whose time is up.** -/
theorem tickSection_waitList (hn : k.delayList.nodes.Nodup) (t : TaskId) :
    ((tickSection k).1.tcb t).waitList = if k.Expires t then none else (k.tcb t).waitList := by
  rw [tickSection, processTimeSlicing_tcb]
  exact processDelayedFrom_waitList (k := { k with systemTicks := k.systemTicks + 1 }) hn false t

theorem tick_waitList (hn : k.delayList.nodes.Nodup) (t : TaskId) :
    ((Scheduler.tick k).tcb t).waitList = if k.Expires t then none else (k.tcb t).waitList := by
  simp only [tick, ← tickSection_waitList hn t]
  split
  · rw [switchContext_tcb]
  · rfl

end Kernel

/-! ## Calls -/

namespace Call

open Kernel

variable {k : Kernel} {a : Call} {c : TaskId}

/-- The tasks that the call may take off a wait list. -/
def Wakes (k : Kernel) : Call → TaskId → Prop
  | .tick, t => t ∈ k.delayList.nodes
  | .unblock W, t => (k.waitLists W).nodes.head? = some t
  | _, _ => False

/-- **A call that does not block** takes tasks off their lists at most. -/
theorem run_rouses (ha : a.Allowed k) (hb : ∀ c, ¬ a.Blocks k c) :
    Thins k (a.run k) ∧ Rouses (a.Wakes k) k (a.run k) := by
  have hsame : ∀ x : Kernel, x.taskRegistry = k.taskRegistry → x.waitLists = k.waitLists →
      x.delayList = k.delayList → x.tcb = k.tcb → Thins k x ∧ Rouses (a.Wakes k) k x :=
    fun x hr hw hd ht =>
      ⟨Thins.of_eq hr hw fun _ => by rw [ht], Rouses.of_eq hr hd fun _ => by rw [ht]⟩
  have hcritical : Thins k (a.critical k) ∧ Rouses (a.Wakes k) k (a.critical k) := by
    cases a with
    | create config t => exact ⟨.createStaticSection ha, .createStaticSection ha⟩
    | start tickInit => exact hsame _ rfl rfl rfl rfl
    | tick => exact ⟨.tickSection, .tickSection⟩
    | yield => exact ⟨.processTimeSlicing, .processTimeSlicing⟩
    | delay n =>
      simp only [critical]
      split
      · exact ⟨.processTimeSlicing, .processTimeSlicing⟩
      · next hn =>
        split
        · next c hrun hc => exact absurd ⟨hn, hrun, hc⟩ (hb c)
        · exact ⟨.refl k, .refl _ k⟩
    | block W timeout =>
      simp only [critical]
      split
      · next c hrun hc => exact absurd ⟨hrun, hc⟩ (hb c)
      · exact ⟨.refl k, .refl _ k⟩
    | unblock W => exact ⟨.unblockHighest, .unblockHighest⟩
    | reschedule => exact ⟨.refl k, .refl _ k⟩
    | lock => exact hsame _ rfl rfl rfl rfl
    | unlock =>
      have hcore := sameCore_unlockSection k
      exact hsame _ hcore.taskRegistry hcore.waitLists
        (by rw [delayList, critical, hcore.stateLists]; rfl) hcore.tcb
  obtain ⟨hthins, hrouses⟩ := hcritical
  rcases run_cases k a with e | e | e | ⟨-, -, e⟩ <;> rw [e]
  · exact ⟨hthins, hrouses⟩
  · exact ⟨hthins.trans .switchContext, hrouses.trans .switchContext⟩
  · exact ⟨hthins.trans .reschedule, hrouses.trans .reschedule⟩
  · exact ⟨hthins.trans .performSwitch, hrouses.trans .performSwitch⟩

/-- **A call that blocks** puts its caller to sleep, and may add it to a wait list. -/
theorem run_lulls (hb : a.Blocks k c) :
    Lulls c k (a.critical k) ∧ a.run k = switchContext (a.critical k) ∧
      ((∃ n, a = .delay n ∧ Thins k (a.critical k) ∧ (a.critical k).waitLists = k.waitLists) ∨
        ∃ W timeout, a = .block W timeout ∧
          a.critical k = waitListBlockSection k c W timeout) := by
  refine ⟨?_, run_of_blocks hb, ?_⟩
  · cases a with
    | delay n =>
      obtain ⟨hn, hrun, hc⟩ := hb
      simp only [critical, hn, if_false, hrun, hc]
      exact lulls_delaySection n
    | block W timeout =>
      obtain ⟨hrun, hc⟩ := hb
      simp only [critical, hrun, hc]
      exact lulls_waitListBlockSection W timeout
    | _ => exact hb.elim
  · cases a with
    | delay n =>
      obtain ⟨hn, hrun, hc⟩ := hb
      simp only [critical, hn, if_false, hrun, hc]
      exact .inl ⟨n, rfl, .delaySection n, delaySection_waitLists k c n⟩
    | block W timeout =>
      obtain ⟨hrun, hc⟩ := hb
      exact .inr ⟨W, timeout, rfl, by simp only [critical, hrun, hc]⟩
    | _ => exact hb.elim

end Call

end Sertos
