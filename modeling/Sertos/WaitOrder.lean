import Sertos.Waiting
import Sertos.Lib.Service

/-!
# Wait lists serve the highest priority first

A task gets its place on a wait list when it blocks: `insert_wait_list_priority` puts it in front of
the first waiter of lower priority, that is, behind all those of its own.  Later steps only take
waiters off, an unblock the head and a tick those whose time is up, from any place.  So the list
stays in the order of service of `Lib.Service`, with the priority as the key and the time of
blocking as the stamp.

The code does not keep the time of blocking; it is recorded here beside the kernel, as
`Watched.since`.  The runs are made of critical sections in any order, with any task made the
current one in between, and nothing is asked of the ready queues and the delay list: what matters of
the kernel is `Kernel.Waiters`.
-/

set_option autoImplicit false

namespace Sertos

open Intrusive Lts Scheduler

namespace Kernel

variable {k k' k'' : Kernel} {W V : WaitList} {t u c : TaskId}

/-- The task has blocked on the wait list, and has not been taken off since. -/
def WaitsOn (k : Kernel) (W : WaitList) (t : TaskId) : Prop :=
  k.Live t ∧ (k.tcb t).waitList = some W

/-- The wait lists hold the tasks that wait on them, each once and linked. -/
structure Waiters (k : Kernel) : Prop where
  nodup : ∀ W, (k.waitLists W).nodes.Nodup
  mem_iff : ∀ W t, t ∈ (k.waitLists W).nodes ↔ k.WaitsOn W t
  linked : ∀ W t, t ∈ (k.waitLists W).nodes → (k.tcb t).eventLinked = true
  priority_lt : ∀ t, k.Live t → (k.tcb t).priority < maxPriorities

theorem ListInv.waiters (h : k.ListInv) : k.Waiters where
  nodup W := (h.waitWF.list W).nodup
  mem_iff W t := by
    rw [h.mem_waitLists, WaitsOn]
    refine and_congr_right fun ht => ?_
    rw [Tcb.eventList]
    split
    · rfl
    · next hs => simp [((h.consistent t ht).awake hs).2]
  linked W t ht := by
    obtain ⟨hlive, he⟩ := (h.mem_waitLists W t).1 ht
    rw [(h.consistent t hlive).eventLinked_eq, he]
    rfl
  priority_lt t ht := (h.consistent t ht).priority_lt

/-- Waiters leave, from any place of any list, and nothing else changes for the wait lists. -/
structure Leaves (k k' : Kernel) : Prop where
  waiters : k'.Waiters
  sublist : ∀ W, (k'.waitLists W).nodes.Sublist (k.waitLists W).nodes
  priority : ∀ t, k.Live t → (k'.tcb t).priority = (k.tcb t).priority

/-- From a kernel with `Waiters`, the step only takes waiters off. -/
def Thins (k k' : Kernel) : Prop := k.Waiters → (∀ t, k.Live t → k'.Live t) ∧ Leaves k k'

namespace Thins

theorem refl (k : Kernel) : Thins k k :=
  fun h => ⟨fun _ ht => ht, h, fun _ => List.Sublist.refl _, fun _ _ => rfl⟩

theorem trans (h : Thins k k') (h' : Thins k' k'') : Thins k k'' := by
  intro hk
  obtain ⟨hlive, hk', hsub, hprio⟩ := h hk
  obtain ⟨hlive', hk'', hsub', hprio'⟩ := h' hk'
  exact ⟨fun t ht => hlive' t (hlive t ht), hk'', fun W => (hsub' W).trans (hsub W),
    fun t ht => (hprio' t (hlive t ht)).trans (hprio t ht)⟩

/-- What a control block says about wait lists. -/
def waitFields (b : Tcb) : Option WaitList × Bool × ℕ := (b.waitList, b.eventLinked, b.priority)

/-- A step that does not touch the wait lists. -/
theorem of_eq (hreg : k'.taskRegistry = k.taskRegistry) (hlists : k'.waitLists = k.waitLists)
    (htcb : ∀ t, waitFields (k'.tcb t) = waitFields (k.tcb t)) : Thins k k' := by
  intro h
  simp only [waitFields, Prod.mk.injEq] at htcb
  have hlive : ∀ t, k'.Live t ↔ k.Live t := fun t => by rw [Live, Live, hreg]
  refine ⟨fun t => (hlive t).2, ⟨fun W => ?_, fun W t => ?_, fun W t => ?_, fun t ht => ?_⟩,
    fun W => ?_, fun t _ => (htcb t).2.2⟩
  · rw [hlists]; exact h.nodup W
  · rw [hlists, WaitsOn, hlive, (htcb t).1]; exact h.mem_iff W t
  · rw [hlists, (htcb t).2.1]; exact h.linked W t
  · rw [(htcb t).2.2]; exact h.priority_lt t ((hlive t).1 ht)
  · rw [hlists]

/-- A step in which one task leaves the list it waits on, if it waits at all. -/
theorem of_leaving (hreg : k'.taskRegistry = k.taskRegistry)
    (hlists : k'.waitLists = (waitListRemove k W t).waitLists)
    (hne : ∀ u, u ≠ t → waitFields (k'.tcb u) = waitFields (k.tcb u))
    (hwait : (k'.tcb t).waitList = none) (hprio : (k'.tcb t).priority = (k.tcb t).priority) :
    Thins k k' := by
  intro h
  simp only [waitFields, Prod.mk.injEq] at hne
  have hlive : ∀ u, k'.Live u ↔ k.Live u := fun u => by rw [Live, Live, hreg]
  have hnodes : ∀ V, (k'.waitLists V).nodes = (k.waitLists V).nodes.erase t := by
    intro V
    rw [hlists, Scheduler.waitListRemove]
    split
    · rfl
    · next hl => exact (List.erase_of_not_mem fun hm => hl (h.linked V t hm)).symm
  refine ⟨fun u => (hlive u).2, ⟨fun V => ?_, fun V u => ?_, fun V u => ?_, fun u hu => ?_⟩,
    fun V => ?_, fun u _ => ?_⟩
  · rw [hnodes]; exact (h.nodup V).erase t
  · rw [hnodes, (h.nodup V).mem_erase_iff, WaitsOn, hlive]
    by_cases hut : u = t
    · subst hut; simp [hwait]
    · rw [(hne u hut).1, and_iff_right hut]; exact h.mem_iff V u
  · rw [hnodes, (h.nodup V).mem_erase_iff]
    rintro ⟨hut, hm⟩
    rw [(hne u hut).2.1]
    exact h.linked V u hm
  · by_cases hut : u = t
    · subst hut; rw [hprio]; exact h.priority_lt u ((hlive u).1 hu)
    · rw [(hne u hut).2.2]; exact h.priority_lt u ((hlive u).1 hu)
  · rw [hnodes]; exact List.erase_sublist
  · by_cases hut : u = t
    · subst hut; exact hprio
    · exact (hne u hut).2.2

theorem modify (f : Tcb → Tcb) (hf : ∀ b, waitFields (f b) = waitFields b) :
    Thins k (k.modify t f) := by
  refine of_eq rfl rfl fun u => ?_
  by_cases hu : u = t
  · rw [hu, modify_tcb_same, hf]
  · rw [modify_tcb_of_ne k t f hu]

theorem addReady : Thins k (addReady k t).1 := by
  refine of_eq (by rw [addReady_frame]) (by rw [addReady_waitLists]) fun u => ?_
  by_cases hu : u = t
  · rw [hu, addReady_tcb_same]; rfl
  · rw [addReady_tcb_of_ne k t hu]

theorem dispatch : Thins k (Scheduler.dispatch k t) :=
  of_eq (by rw [dispatch_frame]) (by rw [dispatch_frame]) fun u => by rw [dispatch_tcb]; rfl

theorem performSwitch : Thins k (performSwitch k) :=
  of_eq (by rw [performSwitch_frame]) (by rw [performSwitch_frame])
    fun u => by rw [performSwitch_tcb]; rfl

theorem switchContext : Thins k (switchContext k) :=
  of_eq (by rw [switchContext_frame]) (by rw [switchContext_frame])
    fun u => by rw [switchContext_tcb]; rfl

theorem reschedule : Thins k (reschedule k) :=
  of_eq (by rw [reschedule_frame]) (by rw [reschedule_frame])
    fun u => by rw [reschedule_tcb]; rfl

theorem unblockHighest : Thins k (waitListUnblockHighest k W).1 := by
  cases hW : (k.waitLists W).nodes with
  | nil => rw [waitListUnblockHighest_nil hW]; exact refl k
  | cons t rest =>
    refine of_leaving (by rw [unblockHighest_frame]) (unblockHighest_waitLists k t W hW)
      (fun u hu => by rw [unblockHighest_tcb_of_ne k t W hW hu]) ?_ ?_
    · rw [unblockHighest_tcb_same k t W hW]
    · rw [unblockHighest_tcb_same k t W hW]

/-- A task that is taken off its wait list names none. -/
theorem leaveWaitList :
    Thins k ((waitListRemove k W t).modify t fun b => { b with waitList := none }) := by
  refine of_leaving (W := W) ?_ rfl (fun u hu => ?_) (by simp) ?_
  · rw [modify_taskRegistry, waitListRemove_frame]
  · rw [modify_tcb_of_ne _ _ _ hu, waitListRemove_tcb_of_ne _ _ _ hu]
  · rw [modify_tcb_same, waitListRemove_tcb_same]

theorem processDelayedTask : Thins k (processDelayedTask k t).1 :=
  processDelayedTask_of_writes k t refl (fun _ _ _ => trans) (fun _ => modify _ fun _ => rfl)
    (fun _ => of_eq rfl rfl fun _ => rfl) (fun _ _ => leaveWaitList) fun _ => addReady

theorem processDelayedFrom (l : List TaskId) (b : Bool) :
    Thins k (processDelayedFrom k b l).1 :=
  processDelayedFrom_of_rounds k refl (fun _ _ _ => trans) (fun _ _ _ => processDelayedTask) b

theorem unblockRounds (W : WaitList) (n : ℕ) : Thins k (unblockRounds W n k) := by
  induction n generalizing k with
  | zero => exact refl k
  | succ n ih =>
    have hround : Thins k (waitListUnblockHighest k W).1 := unblockHighest
    rw [Scheduler.unblockRounds]
    rcases hr : waitListUnblockHighest k W with ⟨k', _ | u⟩ <;> rw [hr] at hround
    · exact hround
    · exact hround.trans ih

theorem processTimeSlicing : Thins k (processTimeSlicing k) :=
  of_eq (by rw [processTimeSlicing_frame]) (by rw [processTimeSlicing_frame])
    fun u => by rw [processTimeSlicing_tcb]; rfl

theorem tickSection : Thins k (tickSection k).1 := by
  have hbump : Thins k { k with systemTicks := k.systemTicks + 1 } := of_eq rfl rfl fun _ => rfl
  exact hbump.trans ((processDelayedFrom _ false).trans processTimeSlicing)

theorem delaySection (n : ℕ) : Thins k (delaySection k c n) :=
  of_eq (by rw [delaySection_frame]) (by rw [delaySection_waitLists])
    fun u => by rw [delaySection_tcb]; rfl

/-- A task that is set up waits for nothing. -/
theorem createStaticSection {config : TaskConfig} (ht : ¬ k.Live t) :
    Thins k (Task.createStaticSection k config t).1 := by
  rcases Task.createStaticSection_cases k config t with ⟨-, e⟩ | ⟨hp, e⟩
  · rw [e]; exact refl k
  · rw [e]
    intro h
    have hlive : ∀ u, (k.enroll t config).Live u ↔ k.Live u ∨ u = t := fun u => by
      simp [Live, enroll]
    have hne : ∀ u, k.Live u → u ≠ t := fun u hu e => ht (e ▸ hu)
    have htcb : ∀ u, u ≠ t → (k.enroll t config).tcb u = k.tcb u := fun u hu => by
      simp [enroll, hu]
    have hsame : (k.enroll t config).tcb t = { Task.initTcb config with stateLinked := true } := by
      simp [enroll]
    refine ⟨fun u hu => (hlive u).2 (.inl hu), ⟨h.nodup, fun W u => ?_, fun W u hu => ?_,
      fun u hu => ?_⟩, fun W => List.Sublist.refl _, fun u hu => ?_⟩
    · rw [enroll_waitLists, h.mem_iff, WaitsOn, WaitsOn, hlive]
      by_cases hut : u = t
      · subst hut; simp [ht, hsame, Task.initTcb]
      · simp [hut, htcb u hut]
    · have hu' := ((h.mem_iff W u).1 hu).1
      rw [htcb u (hne u hu')]
      exact h.linked W u hu
    · rcases (hlive u).1 hu with hu | rfl
      · rw [htcb u (hne u hu)]; exact h.priority_lt u hu
      · rw [hsame]; exact hp
    · rw [htcb u (hne u hu)]

end Thins

/-! ## Blocking -/

theorem waitListBlockSection_priority (k : Kernel) (c : TaskId) (W : WaitList) (timeout : ℕ)
    (t : TaskId) :
    ((waitListBlockSection k c W timeout).tcb t).priority = (k.tcb t).priority := by
  by_cases htc : t = c
  · rw [htc, waitListBlockSection_tcb_same]
  · rw [waitListBlockSection_tcb_of_ne _ _ _ _ htc]

theorem waitListBlockSection_live (k : Kernel) (c : TaskId) (W : WaitList) (timeout : ℕ)
    (t : TaskId) : (waitListBlockSection k c W timeout).Live t ↔ k.Live t := by
  rw [Live, Live, waitListBlockSection_frame]

namespace Waiters

/-- A task that does not wait is on no wait list. -/
theorem notMem (h : k.Waiters) (ht : (k.tcb t).waitList = none) (V : WaitList) :
    t ∉ (k.waitLists V).nodes := fun hm => by
  have := ((h.mem_iff V t).1 hm).2
  simp [ht] at this

/-- A task that does not wait may block on any list. -/
theorem block (h : k.Waiters) (hc : k.Live c) (hwait : (k.tcb c).waitList = none) (W : WaitList)
    (timeout : ℕ) : (waitListBlockSection k c W timeout).Waiters := by
  have hmem : ∀ V t, t ∈ ((waitListBlockSection k c W timeout).waitLists V).nodes ↔
      t ∈ (k.waitLists V).nodes ∨ V = W ∧ t = c := fun V t => by
    rw [waitListBlockSection_waitLists, Bundle.mem_insertByKey]
  refine ⟨fun V => ?_, fun V t => ?_, fun V t ht => ?_, fun t ht => ?_⟩
  · rw [waitListBlockSection_waitLists]
    by_cases hV : V = W
    · subst hV
      rw [Bundle.insertByKey_same]
      exact LinkedList.nodup_insertByKey (h.nodup V) (h.notMem hwait V)
    · rw [Bundle.insertByKey_of_ne hV]
      exact h.nodup V
  · rw [hmem, WaitsOn, waitListBlockSection_live]
    by_cases htc : t = c
    · subst htc
      have hnot := h.notMem hwait V
      rw [waitListBlockSection_tcb_same]
      simp [hnot, hc, eq_comm]
    · rw [waitListBlockSection_tcb_of_ne _ _ _ _ htc, h.mem_iff V t]
      simp [htc, WaitsOn]
  · by_cases htc : t = c
    · rw [htc, waitListBlockSection_tcb_same]
    · rw [waitListBlockSection_tcb_of_ne _ _ _ _ htc]
      exact h.linked V t (((hmem V t).1 ht).resolve_right fun e => htc e.2)
  · rw [waitListBlockSection_priority]
    exact h.priority_lt t ((waitListBlockSection_live k c W timeout t).1 ht)

/-! ## Unblocking all waiters -/

/-- **One round of the loop** makes the head of the list `READY`, in the queue of its priority. -/
theorem unblock (h : k.Waiters) {rest : List TaskId} (hW : (k.waitLists W).nodes = t :: rest) :
    (waitListUnblockHighest k W).2 = some t ∧ (waitListUnblockHighest k W).1.Waiters ∧
      ((waitListUnblockHighest k W).1.waitLists W).nodes = rest ∧
      ((waitListUnblockHighest k W).1.tcb t).state = .ready ∧
      t ∈ ((waitListUnblockHighest k W).1.readyQueue (k.tcb t).priority).nodes := by
  have hm : t ∈ (k.waitLists W).nodes := by simp [hW]
  have hlt := h.priority_lt t ((h.mem_iff W t).1 hm).1
  obtain ⟨k₁, e, -, -, hsame⟩ := unblockHighest_eq k t W hW
  have hprio : (k₁.tcb t).priority = (k.tcb t).priority := by rw [hsame]
  refine ⟨by rw [unblockHighest_snd, hW]; rfl, (Thins.unblockHighest h).2.waiters, ?_, ?_, ?_⟩
  · rw [unblockHighest_waitLists k t W hW, waitListRemove_waitLists k t W (h.linked W t hm)]
    simp [Bundle.remove, hW]
  · rw [e, addReady_eq (by rw [hprio]; exact hlt)]
    simp
  · rw [e, addReady_eq (by rw [hprio]; exact hlt), hprio]
    simp [readyQueue]

end Waiters

end Kernel

/-- The tasks that at most `n` rounds of the loop around
`sertos_scheduler_wait_list_unblock_highest` return. -/
def Scheduler.unblockedBy (W : WaitList) : ℕ → Kernel → List TaskId
  | 0, _ => []
  | n + 1, k => match waitListUnblockHighest k W with
    | (k, some t) => t :: unblockedBy W n k
    | (_, none) => []

namespace Kernel

variable {k : Kernel} {W : WaitList}

/-- What the loop leaves of the waiters `l` of `k`, with `returned` the tasks that its rounds
returned. -/
structure Emptied (k : Kernel) (W : WaitList) (l returned : List TaskId) (k' : Kernel) : Prop where
  returned_eq : returned = l
  nodes : (k'.waitLists W).nodes = []
  ready : ∀ t ∈ l, (k'.tcb t).state = .ready ∧ t ∈ (k'.readyQueue (k.tcb t).priority).nodes
  others : ∀ t, t ∉ l → k'.tcb t = k.tcb t ∧
    ∀ L, t ∈ (k'.stateLists L).nodes ↔ t ∈ (k.stateLists L).nodes

/-- **The loop** returns the waiters in their order and makes each of them `READY`. -/
theorem Waiters.emptied (h : k.Waiters) {n : ℕ} (hn : (k.waitLists W).nodes.length < n) :
    Emptied k W (k.waitLists W).nodes (unblockedBy W n k) (unblockRounds W n k) := by
  induction n generalizing k with
  | zero => exact absurd hn (Nat.not_lt_zero _)
  | succ n ih =>
    cases hW : (k.waitLists W).nodes with
    | nil =>
      simp only [unblockRounds, unblockedBy, waitListUnblockHighest_nil hW]
      exact ⟨rfl, hW, by simp, fun t _ => ⟨rfl, fun _ => Iff.rfl⟩⟩
    | cons t rest =>
      obtain ⟨hret, hk, hnodes, hready, hqueue⟩ := h.unblock hW
      have hnodup := h.nodup W
      rw [hW, List.length_cons] at hn
      rw [hW, List.nodup_cons] at hnodup
      have htcb : ∀ u, u ≠ t → (waitListUnblockHighest k W).1.tcb u = k.tcb u := fun u hu =>
        unblockHighest_tcb_of_ne k t W hW hu
      have hlists := fun u (hu : u ≠ t) => unblockHighest_mem_stateLists k t W hW hu
      have hrest := ih hk (by rw [hnodes]; omega)
      rw [hnodes] at hrest
      rcases hr : waitListUnblockHighest k W with ⟨k₁, r⟩
      simp only [hr] at hret hready hqueue htcb hlists hrest
      subst hret
      simp only [unblockRounds, unblockedBy, hr]
      refine ⟨by rw [hrest.returned_eq], hrest.nodes, fun u hu => ?_, fun u hu => ?_⟩
      · by_cases hut : u = t
        · -- later rounds leave the task alone
          subst hut
          obtain ⟨hsame, hstay⟩ := hrest.others u hnodup.1
          exact ⟨by rw [hsame, hready], (hstay _).2 hqueue⟩
        · have hu' := hrest.ready u ((List.mem_cons.1 hu).resolve_left hut)
          rwa [htcb u hut] at hu'
      · rw [List.mem_cons, not_or] at hu
        obtain ⟨hsame, hstay⟩ := hrest.others u hu.2
        exact ⟨by rw [hsame, htcb u hu.1], fun L => (hstay L).trans (hlists u hu.1 L)⟩

end Kernel

/-! ## Runs -/

/-- One step: a critical section of the scheduler, or the switch to any task. -/
inductive WaitOp
  | kernel (a : Section)
  | dispatch (t : TaskId)
deriving DecidableEq, Repr

namespace WaitOp

/-- The state change of the step. -/
def run (k : Kernel) : WaitOp → Kernel
  | .kernel a => a.run k
  | .dispatch t => Scheduler.dispatch k t

/-- The task that blocks in the step. -/
def blocks (k : Kernel) : WaitOp → Option TaskId
  | .kernel (.critical (.block _ _)) => if k.isRunning then k.currentTcb else none
  | _ => none

/-- A control block is not set up twice, and a task that waits makes no call. -/
def Allowed (k : Kernel) : WaitOp → Prop
  | .kernel (.critical (.create _ t)) => ¬ k.Live t
  | .kernel (.critical (.block _ _)) =>
    ∀ c ∈ k.currentTcb, k.Live c ∧ (k.tcb c).waitList = none
  | _ => True

instance (k : Kernel) : DecidablePred (Allowed k)
  | .kernel (.critical (.create _ t)) => inferInstanceAs (Decidable (¬ k.Live t))
  | .kernel (.critical (.block _ _)) => inferInstanceAs
    (Decidable (∀ c ∈ k.currentTcb, k.Live c ∧ (k.tcb c).waitList = none))
  | .kernel (.critical (.start _)) | .kernel (.critical .tick) | .kernel (.critical .yield)
  | .kernel (.critical (.delay _)) | .kernel (.critical (.unblock _))
  | .kernel (.critical .reschedule) | .kernel (.critical .lock) | .kernel (.critical .unlock)
  | .kernel (.start _) | .kernel .switchContext | .kernel .performSwitch
  | .dispatch _ => .isTrue trivial

open Kernel

variable {k : Kernel} {a : WaitOp}

/-- **What a step does to the wait lists.**  One task blocks, or waiters leave. -/
theorem run_cases (ha : a.Allowed k) :
    (∃ c W timeout, k.Live c ∧ (k.tcb c).waitList = none ∧ a.blocks k = some c ∧
      a.run k = waitListBlockSection k c W timeout) ∨
    (a.blocks k = none ∧ Thins k (a.run k)) := by
  have hsame : ∀ x : Kernel, x.taskRegistry = k.taskRegistry → x.waitLists = k.waitLists →
      x.tcb = k.tcb → Thins k x := fun x hr hw ht => Thins.of_eq hr hw fun _ => by rw [ht]
  cases a with
  | dispatch t => exact .inr ⟨rfl, .dispatch⟩
  | kernel a =>
    cases a with
    | start tickInit =>
      refine .inr ⟨rfl, ?_⟩
      simp only [run, Section.run, Scheduler.start]
      split
      · exact (hsame { k with isRunning := true } rfl rfl rfl).trans .performSwitch
      · exact hsame _ rfl rfl rfl
    | switchContext => exact .inr ⟨rfl, .switchContext⟩
    | performSwitch => exact .inr ⟨rfl, .performSwitch⟩
    | critical a =>
      cases a with
      | create config t => exact .inr ⟨rfl, .createStaticSection ha⟩
      | start tickInit => exact .inr ⟨rfl, hsame _ rfl rfl rfl⟩
      | tick => exact .inr ⟨rfl, .tickSection⟩
      | yield => exact .inr ⟨rfl, .processTimeSlicing⟩
      | delay n =>
        refine .inr ⟨rfl, ?_⟩
        simp only [run, Section.run, Call.critical]
        split
        · exact .processTimeSlicing
        · split
          · exact .delaySection n
          · exact .refl k
      | block W timeout =>
        cases hrun : k.isRunning with
        | false =>
          refine .inr ⟨by simp [blocks, hrun], ?_⟩
          simp only [run, Section.run, Call.critical, hrun]
          exact .refl k
        | true =>
          cases hc : k.currentTcb with
          | none =>
            refine .inr ⟨by simp [blocks, hrun, hc], ?_⟩
            simp only [run, Section.run, Call.critical, hrun, hc]
            exact .refl k
          | some c =>
            obtain ⟨hlive, hwait⟩ := ha c hc
            refine .inl ⟨c, W, timeout, hlive, hwait, by simp [blocks, hrun, hc], ?_⟩
            simp only [run, Section.run, Call.critical, hrun, hc]
      | unblock V => exact .inr ⟨rfl, .unblockHighest⟩
      | reschedule => exact .inr ⟨rfl, .refl k⟩
      | lock => exact .inr ⟨rfl, hsame _ rfl rfl rfl⟩
      | unlock =>
        have hcore := Call.sameCore_unlockSection k
        exact .inr ⟨rfl, hsame _ hcore.taskRegistry hcore.waitLists hcore.tcb⟩

end WaitOp

/-- The kernel, with a record of when each task blocked last. -/
structure Watched where
  kernel : Kernel
  /-- The number of steps taken so far. -/
  time : ℕ
  since : TaskId → ℕ

namespace Watched

open Service (InOrder Before)

/-- The record is empty at the start. -/
def init (k : Kernel) : Watched := ⟨k, 0, fun _ => 0⟩

/-- A step, with its entry in the record. -/
def run (s : Watched) (a : WaitOp) : Watched where
  kernel := a.run s.kernel
  time := s.time + 1
  since := match a.blocks s.kernel with
    | some c => Function.update s.since c s.time
    | none => s.since

/-- One step of a run. -/
abbrev Step : Watched → WaitOp → Watched → Prop :=
  Guarded (fun s a => a.Allowed s.kernel) run

/-- The priority of a task. -/
def priority (s : Watched) (t : TaskId) : ℕ := (s.kernel.tcb t).priority

/-- What holds between the steps of a run. -/
structure Inv (s : Watched) : Prop where
  waiters : s.kernel.Waiters
  past : ∀ W, ∀ t ∈ (s.kernel.waitLists W).nodes, s.since t < s.time
  inOrder : ∀ W, InOrder s.priority s.since (s.kernel.waitLists W).nodes

variable {s s' : Watched} {a : WaitOp} {ops : List WaitOp} {W : WaitList} {t u : TaskId}

theorem Inv.step (h : s.Inv) (hstep : Step s a s') : s'.Inv := by
  obtain ⟨ha, rfl⟩ := hstep
  rcases WaitOp.run_cases ha with ⟨c, V, timeout, hc, hwait, hblocks, hrun⟩ | ⟨hblocks, hthins⟩
  · have hnot := h.waiters.notMem hwait
    have hsince : ∀ U, ∀ t ∈ (s.kernel.waitLists U).nodes,
        Function.update s.since c s.time t = s.since t := fun U t ht =>
      Function.update_of_ne (fun e : t = c => hnot U (e ▸ ht)) _ _
    have hprio : ∀ t, priority ⟨waitListBlockSection s.kernel c V timeout, s.time + 1,
        Function.update s.since c s.time⟩ t = s.priority t := fun t =>
      Kernel.waitListBlockSection_priority _ _ _ _ t
    have hold : ∀ U, InOrder s.priority (Function.update s.since c s.time)
        (s.kernel.waitLists U).nodes := fun U =>
      (h.inOrder U).congr (fun _ _ => rfl) (hsince U)
    simp only [Watched.run, hblocks, hrun]
    refine ⟨h.waiters.block hc hwait V timeout, fun U t ht => ?_, fun U => ?_⟩
    · rw [waitListBlockSection_waitLists, Bundle.mem_insertByKey] at ht
      rcases ht with ht | ⟨-, rfl⟩
      · show Function.update s.since c s.time t < s.time + 1
        rw [hsince U t ht]
        exact Nat.lt_succ_of_lt (h.past U t ht)
      · show Function.update s.since t s.time t < s.time + 1
        rw [Function.update_self]
        exact Nat.lt_succ_self _
    · refine InOrder.congr ?_ (fun t _ => hprio t) fun _ _ => rfl
      simp only [waitListBlockSection_waitLists]
      by_cases hU : U = V
      · subst hU
        rw [Bundle.insertByKey_same]
        -- whoever waits already has blocked before
        refine (hold U).orderedInsert fun t ht => ?_
        rw [hsince U t ht, Function.update_self]
        exact h.past U t ht
      · rw [Bundle.insertByKey_of_ne hU]
        exact hold U
  · obtain ⟨-, hwaiters, hsub, hprio⟩ := hthins h.waiters
    simp only [Watched.run, hblocks]
    refine ⟨hwaiters, fun U t ht => Nat.lt_succ_of_lt (h.past U t ((hsub U).subset ht)),
      fun U => ?_⟩
    refine ((h.inOrder U).sublist (hsub U)).congr (fun t ht => ?_) fun _ _ => rfl
    exact hprio t ((h.waiters.mem_iff U t).1 ((hsub U).subset ht)).1

/-- What holds of a wait list at any time. -/
structure Served (s : Watched) (W : WaitList) : Prop where
  /-- The list holds the tasks that wait. -/
  mem_iff : ∀ t, t ∈ (s.kernel.waitLists W).nodes ↔ s.kernel.WaitsOn W t
  /-- It is sorted: higher priorities first, equal ones in the order in which they blocked. -/
  inOrder : InOrder s.priority s.since (s.kernel.waitLists W).nodes
  /-- An unblock returns `NULL` exactly if no task waits. -/
  returns_none : (waitListUnblockHighest s.kernel W).2 = none ↔ ∀ t, ¬ s.kernel.WaitsOn W t
  /-- The task it returns waits, and is to be served before all others that wait. -/
  returns_some : ∀ t, (waitListUnblockHighest s.kernel W).2 = some t →
    s.kernel.WaitsOn W t ∧ ∀ u, s.kernel.WaitsOn W u → u ≠ t → Before s.priority s.since t u
  /-- Unblocks in a row, more than there are waiters: each waiter is returned once and is `READY` in
  the end, and nobody waits any more. -/
  returns_all : ∀ n, (s.kernel.waitLists W).nodes.length < n →
    (∀ t, (unblockedBy W n s.kernel).count t = if t ∈ (s.kernel.waitLists W).nodes then 1 else 0) ∧
    (∀ t, s.kernel.WaitsOn W t → ((unblockRounds W n s.kernel).tcb t).state = .ready ∧
      t ∈ ((unblockRounds W n s.kernel).readyQueue (s.priority t)).nodes) ∧
    ∀ t, ¬ (unblockRounds W n s.kernel).WaitsOn W t

theorem Inv.served (h : s.Inv) (W : WaitList) : s.Served W := by
  have hmem := h.waiters.mem_iff W
  have hhead := unblockHighest_snd s.kernel W
  refine ⟨hmem, h.inOrder W, ?_, fun t ht => ?_, fun n hn => ?_⟩
  · rw [hhead, List.head?_eq_none_iff, List.eq_nil_iff_forall_not_mem]
    exact forall_congr' fun t => not_congr (hmem t)
  · have hin := h.inOrder W
    rw [hhead] at ht
    obtain ⟨rest, hW⟩ := List.head?_eq_some_iff.1 ht
    rw [hW] at hin
    refine ⟨(hmem t).1 (by simp [hW]), fun u hu hne => hin.before_of_head ?_⟩
    rw [← hmem, hW] at hu
    exact (List.mem_cons.1 hu).resolve_left hne
  · have he := h.waiters.emptied hn
    have hend := (Kernel.Thins.unblockRounds W n h.waiters).2.waiters
    refine ⟨fun t => ?_, fun t ht => he.ready t ((hmem t).2 ht), fun t ht => ?_⟩
    · rw [he.returned_eq, (h.waiters.nodup W).count]
    · rw [← hend.mem_iff, he.nodes] at ht
      exact List.not_mem_nil ht

theorem inv_init (mem : Kernel) (config : Option Config) (idleStack : ℕ) :
    (init (initWithConfig mem config idleStack).1).Inv := by
  have hnil := fun W => (Kernel.usable_initWithConfig mem config idleStack W).1
  refine ⟨(initWithConfig_settled mem config idleStack).lists.waiters, fun W t ht => ?_,
    fun W => ?_⟩
  · simp [init, hnil] at ht
  · simp only [init, hnil]
    exact .nil

/-- **Wait lists serve the highest priority first, and first come first served among equals,**
whatever tasks block on them, time out and are woken, and in whatever order. -/
theorem waits_in_order {mem : Kernel} {config : Option Config} {idleStack : ℕ}
    (hrun : Trace Step (init (initWithConfig mem config idleStack).1) ops s) (W : WaitList) :
    s.Served W :=
  (hrun.invariant (fun _ _ _ h hs => h.step hs) (inv_init mem config idleStack)).served W

/-- Four tasks block on a semaphore, the second of them, of the highest priority, for one tick. -/
def fourBlock : List WaitOp :=
  let block (t timeout : ℕ) : List WaitOp :=
    [.dispatch t, .kernel (.critical (.block (.sem 0) timeout))]
  [.kernel (.critical (.create (.ofPriority 1) 1)), .kernel (.critical (.create (.ofPriority 3) 2)),
    .kernel (.critical (.create (.ofPriority 2) 3)), .kernel (.critical (.create (.ofPriority 1) 4)),
    .kernel (.start .ok)] ++
  block 1 waitForever ++ block 2 1 ++ block 4 waitForever ++ block 3 5 ++
    [.kernel (.critical .tick)]

theorem waits_in_order_four :
    (((fourBlock.take 13).foldl run (init (initWithConfig bss none 0).1)).kernel.waitLists
      (.sem 0)).nodes = [2, 3, 1, 4] ∧
    ((fourBlock.foldl run (init (initWithConfig bss none 0).1)).kernel.waitLists (.sem 0)).nodes =
      [3, 1, 4] ∧
    (fourBlock.foldl run (init (initWithConfig bss none 0).1)).Served (.sem 0) :=
  ⟨by decide +kernel, by decide +kernel, waits_in_order (Trace.of_guards (by decide +kernel)) _⟩

end Watched

end Sertos
