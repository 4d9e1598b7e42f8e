import Sertos.Frames
import Sertos.BlockingWindow

/-!
# One wait list

What the scheduler does to one wait list, seen without the rest of the kernel.  A list is `Usable`
if no task is on it twice and the links of its nodes are not `NULL`; then
`sertos_scheduler_wait_list_unblock_highest` really takes its head off (`Usable.unblock`), the loop
around it empties the list (`Usable.unblockAll`), and `sertos_scheduler_wait_list_block` adds one
task (`Usable.block`).  Everything else the scheduler does to the list, the tick included, is to
take tasks off it (`Section.shrinks`).
-/

set_option autoImplicit false

namespace Sertos

open Intrusive Scheduler

namespace Kernel

variable {k k' k'' : Kernel} {W V : WaitList} {t c : TaskId}

/-- No task is on the wait list twice, and the links of its nodes are not `NULL`. -/
structure Usable (k : Kernel) (W : WaitList) : Prop where
  nodup : (k.waitLists W).nodes.Nodup
  linked : ∀ t ∈ (k.waitLists W).nodes, (k.tcb t).eventLinked = true

/-- The list stays usable, and no task is added to it. -/
def Shrinks (W : WaitList) (k k' : Kernel) : Prop :=
  k.Usable W → k'.Usable W ∧ (k'.waitLists W).nodes ⊆ (k.waitLists W).nodes

namespace Shrinks

theorem refl (W : WaitList) (k : Kernel) : Shrinks W k k := fun h => ⟨h, List.Subset.refl _⟩

theorem trans (h : Shrinks W k k') (h' : Shrinks W k' k'') : Shrinks W k k'' := by
  intro hk
  obtain ⟨hk', hsub⟩ := h hk
  obtain ⟨hk'', hsub'⟩ := h' hk'
  exact ⟨hk'', List.Subset.trans hsub' hsub⟩

/-- A step that leaves the list and the links of its nodes alone. -/
theorem of_eq (hlist : k'.waitLists W = k.waitLists W)
    (htcb : ∀ t ∈ (k.waitLists W).nodes, (k'.tcb t).eventLinked = (k.tcb t).eventLinked) :
    Shrinks W k k' := by
  intro h
  refine ⟨⟨hlist ▸ h.nodup, fun t ht => ?_⟩, hlist ▸ List.Subset.refl _⟩
  rw [hlist] at ht
  rw [htcb t ht, h.linked t ht]

theorem modify (f : Tcb → Tcb) (hf : ∀ b, (f b).eventLinked = b.eventLinked) :
    Shrinks W k (k.modify t f) := by
  refine of_eq rfl fun u _ => ?_
  by_cases hu : u = t
  · rw [hu, modify_tcb_same, hf]
  · rw [modify_tcb_of_ne k t f hu]

theorem addReady : Shrinks W k (addReady k t).1 := by
  refine of_eq (by rw [addReady_waitLists]) fun u _ => ?_
  by_cases hu : u = t
  · rw [hu, addReady_tcb_same]
  · rw [addReady_tcb_of_ne k t hu]

theorem performSwitch : Shrinks W k (performSwitch k) :=
  of_eq (by rw [performSwitch_frame]) fun u _ => by rw [performSwitch_tcb]

theorem switchContext : Shrinks W k (switchContext k) :=
  of_eq (by rw [switchContext_frame]) fun u _ => by rw [switchContext_tcb]

theorem reschedule : Shrinks W k (reschedule k) :=
  of_eq (by rw [reschedule_frame]) fun u _ => by rw [reschedule_tcb]

/-- No wait list depends on a priority. -/
theorem restoreOwner (x : Mutex) : Shrinks W k (Mutex.restoreOwner k x) := by
  rcases Mutex.restoreOwner_cases (k := k) x with e | ⟨o, -, -, e⟩ <;> rw [e]
  · exact refl W k
  · exact of_eq (by rw [Mutex.changePriority_frame]) fun u _ => by rw [Mutex.changePriority_tcb]

theorem rescheduleIfRunning : Shrinks W k (rescheduleIfRunning k) := by
  rw [Scheduler.rescheduleIfRunning]
  split
  · exact reschedule
  · exact refl W k

theorem notifyUnblocked (u : Option TaskId) : Shrinks W k (notifyUnblocked k u) := by
  rw [Scheduler.notifyUnblocked]
  split
  · exact reschedule
  · exact refl W k

/-- A task that is taken off any wait list is on none. -/
theorem waitListRemove : Shrinks W k (waitListRemove k V t) := by
  intro h
  refine ⟨⟨?_, fun u hu => ?_⟩, waitListRemove_subset k t V W⟩
  · rw [Scheduler.waitListRemove]
    split
    · exact h.nodup.erase t
    · exact h.nodup
  · by_cases hut : u = t
    · subst hut
      by_cases hl : (k.tcb u).eventLinked = true
      · rw [waitListRemove_waitLists k u V hl] at hu
        exact absurd hu h.nodup.not_mem_erase
      · exact absurd (h.linked u (waitListRemove_subset k u V W hu)) hl
    · rw [waitListRemove_tcb_of_ne k t V hut]
      exact h.linked u (waitListRemove_subset k t V W hu)

theorem unblockHighest : Shrinks W k (waitListUnblockHighest k V).1 := by
  cases hV : (k.waitLists V).nodes with
  | nil => rw [waitListUnblockHighest_nil hV]; exact refl W k
  | cons t rest =>
    refine waitListRemove.trans (of_eq (by rw [unblockHighest_waitLists k t V hV]) fun u _ => ?_)
    by_cases hu : u = t
    · rw [hu, unblockHighest_tcb_same k t V hV, waitListRemove_tcb_same]
    · rw [unblockHighest_tcb_of_ne k t V hV hu, waitListRemove_tcb_of_ne k t V hu]

theorem processDelayedTask : Shrinks W k (processDelayedTask k t).1 :=
  processDelayedTask_of_writes k t (refl W) (fun _ _ _ => trans) (fun _ => modify _ fun _ => rfl)
    (fun _ => of_eq rfl fun _ _ => rfl)
    (fun _ _ => waitListRemove.trans (modify _ fun _ => rfl)) fun _ => addReady

theorem processDelayedFrom (l : List TaskId) (b : Bool) :
    Shrinks W k (processDelayedFrom k b l).1 :=
  processDelayedFrom_of_rounds k (refl W) (fun _ _ _ => trans) (fun _ _ _ => processDelayedTask) b

theorem processTimeSlicing : Shrinks W k (processTimeSlicing k) := by
  refine of_eq (by rw [processTimeSlicing_frame]) fun u _ => ?_
  rw [Scheduler.processTimeSlicing]
  split
  · simp only
    split_ifs
    · simp only [Kernel.insertTail, Kernel.removeDirect, Kernel.modify, Function.update_apply]
      split_ifs with hu
      · rw [hu]
      · rfl
    · rfl
  · rfl

theorem tickSection : Shrinks W k (tickSection k).1 := by
  have hbump : Shrinks W k { k with systemTicks := k.systemTicks + 1 } := of_eq rfl fun _ _ => rfl
  exact hbump.trans ((processDelayedFrom _ false).trans processTimeSlicing)

theorem delaySection (n : ℕ) : Shrinks W k (delaySection k c n) := by
  refine of_eq (by rw [delaySection_waitLists]) fun u _ => ?_
  simp only [Scheduler.delaySection, Kernel.insertTail, Kernel.modify, removeReady_tcb]
  by_cases hu : u = c
  · simp [hu]
  · simp [hu]

/-- Blocking on another list. -/
theorem block (hV : W ≠ V) (hc : c ∉ (k.waitLists W).nodes) (timeout : ℕ) :
    Shrinks W k (waitListBlockSection k c V timeout) := by
  refine of_eq ?_ fun u hu => ?_
  · rw [waitListBlockSection_waitLists, Bundle.insertByKey_of_ne hV]
  · rw [waitListBlockSection_tcb_of_ne]
    exact fun e => hc (e ▸ hu)

theorem createStaticSection {config : TaskConfig} (ht : t ∉ (k.waitLists W).nodes) :
    Shrinks W k (Task.createStaticSection k config t).1 := by
  rcases Task.createStaticSection_cases k config t with ⟨-, e⟩ | ⟨-, e⟩
  · rw [e]; exact refl W k
  · rw [e]
    refine of_eq rfl fun u hu => ?_
    have hut : u ≠ t := fun e => ht (e ▸ hu)
    simp [enroll, hut]

end Shrinks

/-- A list of a kernel whose lists are right can be used. -/
theorem ListInv.usable (h : k.ListInv) (W : WaitList) : k.Usable W where
  nodup := (h.waitWF.list W).nodup
  linked t ht := by
    obtain ⟨hlive, hb, hW⟩ := (h.mem_waitList W).1 ht
    rw [(h.consistent t hlive).eventLinked_eq, Tcb.eventList_of_blocked hb, hW]
    rfl

namespace Usable

/-- The head of the list is taken off. -/
theorem unblock {rest : List TaskId} (h : k.Usable W) (hW : (k.waitLists W).nodes = t :: rest) :
    ((waitListUnblockHighest k W).1.waitLists W).nodes = rest := by
  have hl : (k.tcb t).eventLinked = true := h.linked t (by simp [hW])
  rw [unblockHighest_waitLists k t W hW, waitListRemove_waitLists k t W hl]
  simp [Bundle.remove, hW]

/-- **The loop empties the list.** -/
theorem unblockAll (h : k.Usable W) : ((unblockAll k W).waitLists W).nodes = [] := by
  have hrounds : ∀ (n : ℕ) (k : Kernel), k.Usable W → (k.waitLists W).nodes.length < n →
      ((unblockRounds W n k).waitLists W).nodes = [] := by
    intro n
    induction n with
    | zero => exact fun k _ hn => absurd hn (Nat.not_lt_zero _)
    | succ n ih =>
      intro k h hn
      cases hW : (k.waitLists W).nodes with
      | nil => simp only [unblockRounds, waitListUnblockHighest_nil hW, hW]
      | cons t rest =>
        have hsnd := unblockHighest_snd k W
        rw [hW, List.head?_cons] at hsnd
        have hrest := h.unblock hW
        rw [hW, List.length_cons] at hn
        rw [unblockRounds]
        rcases hr : waitListUnblockHighest k W with ⟨k', u⟩
        rw [hr] at hsnd hrest
        simp only at hsnd hrest
        subst hsnd
        have hk' : k'.Usable W := by
          have := (Shrinks.unblockHighest (V := W) h).1
          rwa [hr] at this
        exact ih k' hk' (by rw [hrest]; omega)
  exact hrounds _ k h (Nat.lt_succ_self _)

/-- Blocking adds the caller. -/
theorem block (h : k.Usable W) (hc : c ∉ (k.waitLists W).nodes) (timeout : ℕ) :
    (waitListBlockSection k c W timeout).Usable W ∧
      ∀ t, t ∈ ((waitListBlockSection k c W timeout).waitLists W).nodes ↔
        t ∈ (k.waitLists W).nodes ∨ t = c := by
  have hmem : ∀ t, t ∈ ((waitListBlockSection k c W timeout).waitLists W).nodes ↔
      t ∈ (k.waitLists W).nodes ∨ t = c := by
    intro t
    rw [waitListBlockSection_waitLists, Bundle.insertByKey_same, LinkedList.mem_insertByKey]
  refine ⟨⟨?_, fun t ht => ?_⟩, hmem⟩
  · rw [waitListBlockSection_waitLists, Bundle.insertByKey_same]
    exact LinkedList.nodup_insertByKey h.nodup hc
  · by_cases htc : t = c
    · rw [htc, waitListBlockSection_tcb_same]
    · rw [waitListBlockSection_tcb_of_ne _ _ _ _ htc]
      exact h.linked t (((hmem t).1 ht).resolve_right htc)

end Usable

theorem Shrinks.unblockAll : Shrinks W k (unblockAll k V) :=
  unblockAll_induction (motive := Shrinks W k) V (.refl W k) fun _ h => h.trans .unblockHighest

end Kernel

namespace Section

open Kernel

variable {k : Kernel} {W : WaitList}

/-- The section neither queues a task on `W` nor reuses the control block of one that is. -/
def LeavesQueued (W : WaitList) (k : Kernel) : Section → Prop
  | .critical (.create _ t) => t ∉ (k.waitLists W).nodes
  | .critical (.block V _) => W ≠ V ∧ ∀ c ∈ k.currentTcb, c ∉ (k.waitLists W).nodes
  | _ => True

/-- Where only tasks inside calls are queued, it is enough that the task that blocks or is set up is
not in one. -/
theorem LeavesQueued.of_calls {α : Type} {call : TaskId → Option α} {a : Section}
    (hqueued : ∀ t, call t = none → t ∉ (k.waitLists W).nodes)
    (hcreate : ∀ config t, a = .critical (.create config t) → call t = none)
    (hblock : ∀ V timeout, a = .critical (.block V timeout) →
      W ≠ V ∧ k.currentTcb.bind call = none) : a.LeavesQueued W k := by
  cases a with
  | critical a =>
    cases a with
    | create config t => exact hqueued t (hcreate config t rfl)
    | block V timeout =>
      obtain ⟨hne, hcur⟩ := hblock V timeout rfl
      refine ⟨hne, fun c hc => hqueued c ?_⟩
      rw [Option.mem_def.1 hc] at hcur
      exact hcur
    | _ => trivial
  | _ => trivial

/-- **All a section of the scheduler does to a wait list** is to take tasks off. -/
theorem shrinks {a : Section} (ha : a.LeavesQueued W k) : Shrinks W k (a.run k) := by
  have hsame : ∀ x : Kernel, x.waitLists = k.waitLists → x.tcb = k.tcb → Shrinks W k x :=
    fun x hw ht => Shrinks.of_eq (by rw [hw]) fun _ _ => by rw [ht]
  cases a with
  | start tickInit =>
    simp only [run, Scheduler.start]
    split
    · exact (hsame { k with isRunning := true } rfl rfl).trans .performSwitch
    · exact hsame _ rfl rfl
  | switchContext => exact .switchContext
  | performSwitch => exact .performSwitch
  | critical a =>
    cases a with
    | create config t => exact .createStaticSection ha
    | start tickInit => exact hsame _ rfl rfl
    | tick => exact .tickSection
    | yield => exact .processTimeSlicing
    | delay n =>
      simp only [run, Call.critical]
      split
      · exact .processTimeSlicing
      · split
        · exact .delaySection n
        · exact .refl W k
    | block V timeout =>
      simp only [run, Call.critical]
      split
      · rename_i c _ hc
        exact .block ha.1 (ha.2 c hc) timeout
      · exact .refl W k
    | unblock V => exact .unblockHighest
    | reschedule => exact .refl W k
    | lock => exact hsame _ rfl rfl
    | unlock =>
      exact hsame _ (Call.sameCore_unlockSection k).waitLists (Call.sameCore_unlockSection k).tcb

end Section

/-- Nobody is on a wait list at the start. -/
theorem Kernel.usable_initWithConfig (mem : Kernel) (config : Option Config) (idleStack : ℕ)
    (W : WaitList) : ((initWithConfig mem config idleStack).1.waitLists W).nodes = [] ∧
      (initWithConfig mem config idleStack).1.Usable W := by
  have hnil : ((initWithConfig mem config idleStack).1.waitLists W).nodes = [] := by
    rw [initWithConfig_waitLists]
    rfl
  refine ⟨hnil, ?_, fun t ht => ?_⟩
  · rw [hnil]
    exact List.nodup_nil
  · rw [hnil] at ht
    exact absurd ht List.not_mem_nil

end Sertos
