import Sertos.LinkedScheduler

/-!
# What the functions on links compute

One lemma for each function of `Sertos.LinkedScheduler`: on a memory that represents a kernel it has
a result, and the result represents what the function of `Sertos.Scheduler` computes.

`Kernel.SameRest` says what a function that only moves tasks leaves alone, and `Refines.setLists`
puts the memory of the lists and the rest together again.
-/

set_option autoImplicit false

namespace Sertos

open Intrusive Circular

/-! ## Lists -/

namespace Represents

variable {L : ListLibrary NodeAddr} {m : ListMemory} {k k' : Kernel} {t c : TaskId}

/-- The rest of the kernel does not matter. -/
theorem congr (h : Represents m k) (hstates : k'.stateLists = k.stateLists)
    (hwaits : k'.waitLists = k.waitLists) (htcb : k'.tcb = k.tcb)
    (hbitmap : k'.readyBitmap = k.readyBitmap) : Represents m k' where
  states := hstates ▸ h.states
  waits := hwaits ▸ h.waits
  tcb_eq t := by rw [h.tcb_eq, htcb]
  bitmap_eq := h.bitmap_eq.trans hbitmap.symm
  eventLinked_eq t := by rw [htcb, h.eventLinked_eq]

theorem priority_eq (h : Represents m k) (t : TaskId) :
    (m.tcb t).priority = (k.tcb t).priority := by
  rw [h.tcb_eq]
  rfl

theorem state_eq (h : Represents m k) (t : TaskId) : (m.tcb t).state = (k.tcb t).state := by
  rw [h.tcb_eq]
  rfl

theorem delayTicks_eq (h : Represents m k) (t : TaskId) :
    (m.tcb t).delayTicks = (k.tcb t).delayTicks := by
  rw [h.tcb_eq]
  rfl

theorem insertTail {M : ListModule NodeAddr} (hM : M.Lawful) (h : Represents m k) {S : StateList}
    (ht : k.stateLists.Free t) :
    Represents { m with heap := M.insertTailDirect m.heap (.stateRoot S) (.stateNode t) }
      (k.insertTail S t) := by
  have hnew : NodeAddr.stateNode t ∉ stateLayout.root S ::
      (k.stateLists S).nodes.map stateLayout.node :=
    fun hm => ht S (stateLayout.node_mem_ring.1 hm)
  exact (h.setStateLinked t true).setStates (h.states.insertTail hM ht)
    (l := t :: (k.stateLists S).nodes) (hM.insertTail_confined (h.states.list S) hnew)

/-- Both links of a node that is in no list are set to `NULL`. -/
theorem clearState (h : Represents m k) (ht : k.stateLists.Free t) :
    Represents { m with heap := m.heap.clear (.stateNode t) } k where
  states := h.states.of_confined_node (confined_clear m.heap _) fun S hm =>
    ht S (stateLayout.node_mem_ring.1 hm)
  waits := h.waits.of_confined_node (confined_clear m.heap _) fun _ =>
    stateLayout_apart.node_notMem_ring (S := stateLayout)
  tcb_eq := h.tcb_eq
  bitmap_eq := h.bitmap_eq
  eventLinked_eq u := by
    have hne : NodeAddr.eventNode u ∉ NodeAddr.stateNode t :: [] := by simp
    rw [h.eventLinked_eq, (confined_clear m.heap _).next_eq _ hne]

/-- `sertos_scheduler_remove_ready`, for a task in its ready queue. -/
theorem removeReady (hL : L.Lawful) (h : Represents m k)
    (ht : t ∈ (k.readyQueue (k.tcb t).priority).nodes) (hlinked : (k.tcb t).stateLinked = true) :
    Represents (m.removeReady L t).1 (Scheduler.removeReady k t).1 := by
  rw [ListMemory.removeReady, Scheduler.removeReady, h.priority_eq]
  by_cases hp : maxPriorities ≤ (k.tcb t).priority
  · rw [if_pos hp, if_pos hp]
    exact h
  · have hin : NodeAddr.stateNode t ∈ NodeAddr.stateRoot (.ready (k.tcb t).priority) ::
        (k.readyQueue (k.tcb t).priority).nodes.map .stateNode :=
      List.mem_cons_of_mem _ (List.mem_map_of_mem ht)
    obtain ⟨_, -, hnext, -⟩ := (h.states.list (.ready (k.tcb t).priority)).exists_next hin
    obtain ⟨_, -, hprev, -⟩ := (h.states.list (.ready (k.tcb t).priority)).exists_prev hin
    have hremoved := h.removeDirect hL.toLawful ht
    rw [if_neg hp, if_neg hp, if_pos ⟨by simp [hprev], by simp [hnext]⟩, if_pos hlinked]
    have hempty : L.isEmpty (L.removeDirect m.heap (.stateRoot (.ready (k.tcb t).priority))
        (.stateNode t)) (.stateRoot (.ready (k.tcb t).priority)) = true ↔
        ((k.removeDirect (.ready (k.tcb t).priority) t).readyQueue (k.tcb t).priority).nodes = [] :=
      (hL.isEmpty (hremoved.states.list _)).trans List.map_eq_nil_iff
    -- the library and the kernel agree whether the queue is empty now
    by_cases hnil : ((k.removeDirect (.ready (k.tcb t).priority) t).readyQueue
        (k.tcb t).priority).nodes = []
    · simp only [if_pos hnil, if_pos (hempty.2 hnil)]
      exact ⟨hremoved.states, hremoved.waits, hremoved.tcb_eq,
        congrArg (Function.update · _ false) h.bitmap_eq, hremoved.eventLinked_eq⟩
    · simp only [if_neg hnil, if_neg (hempty.not.2 hnil)]
      exact hremoved

/-- `sertos_scheduler_select_next_task`. -/
theorem selectNextTask (hL : L.Lawful) (h : Represents m k) :
    m.selectNextTask L = some (Scheduler.selectNextTask k) := by
  rw [ListMemory.selectNextTask, Scheduler.selectNextTask, h.bitmap_eq]
  cases k.readyBitmap.findLastSet maxPriorities with
  | none => rfl
  | some p =>
    have hhead : L.peekHead m.heap (.stateRoot (.ready p)) =
        (k.readyQueue p).nodes.head?.map .stateNode :=
      (hL.peekHead (h.states.list (.ready p))).trans List.head?_map
    simp only [hhead]
    cases (k.readyQueue p).nodes.head? <;> rfl

/-- `process_time_slicing`, for a current task in its ready queue. -/
theorem processTimeSlicing (hL : L.Lawful) (h : Represents m k)
    (hcur : ∀ c, k.currentTcb = some c → c ∈ (k.readyQueue (k.tcb c).priority).nodes) :
    Represents (m.processTimeSlicing L k.timeSlicingEnabled k.currentTcb)
      (Scheduler.processTimeSlicing k) := by
  cases hs : k.timeSlicingEnabled with
  | false => simpa only [ListMemory.processTimeSlicing, Scheduler.processTimeSlicing, hs] using h
  | true =>
    cases hc : k.currentTcb with
    | none =>
      simpa only [ListMemory.processTimeSlicing, Scheduler.processTimeSlicing, hs, hc] using h
    | some c =>
      have hcount : m.heap.count (.stateRoot (.ready (k.tcb c).priority)) =
          (k.readyQueue (k.tcb c).priority).count := (h.states.count_eq _).symm
      simp only [ListMemory.processTimeSlicing, Scheduler.processTimeSlicing, hs, hc,
        h.priority_eq, hcount]
      split
      · exact (h.removeDirect hL.toLawful (hcur c hc)).insertTail hL.toLawful
          h.states.wf.free_remove
      · exact h

/-- The critical section of `sertos_scheduler_delay`. -/
theorem delaySection (hL : L.Lawful) (hk : k.ListInv) (h : Represents m k) (hc : k.Ready c)
    (ticks : ℕ) :
    Represents (m.delaySection L c ticks) (Scheduler.delaySection k c ticks) := by
  have hqueue : c ∈ (k.readyQueue (k.tcb c).priority).nodes :=
    (hk.mem_readyQueue _).2 ⟨hc.1, hc.2, rfl⟩
  obtain ⟨hlinked, -⟩ := Scheduler.links_of_isReady hk hc.1 hc.2
  have hremoved := h.removeReady hL hqueue hlinked
  refine (hremoved.modify (t := c) (g := fun b => { b with state := .blocked, delayTicks := ticks })
    rfl rfl).insertTail hL.toLawful ?_
  rw [Kernel.modify_stateLists, Scheduler.removeReady_eq (hk.priority_lt hc.1) hlinked]
  exact h.states.wf.free_remove

/-- The critical section of `sertos_scheduler_wait_list_block`. -/
theorem waitListBlockSection (hL : L.Lawful) (hk : k.ListInv) (h : Represents m k)
    (hc : k.Ready c) (W : WaitList) (timeout : ℕ) : ∃ m',
      (∀ n, (k.waitLists W).nodes.length < n →
        m.waitListBlockSection L n c W timeout = some m') ∧
      Represents m' (Scheduler.waitListBlockSection k c W timeout) := by
  have hqueue : c ∈ (k.readyQueue (k.tcb c).priority).nodes :=
    (hk.mem_readyQueue _).2 ⟨hc.1, hc.2, rfl⟩
  obtain ⟨hlinked, -⟩ := Scheduler.links_of_isReady hk hc.1 hc.2
  have hout : (Scheduler.removeReady k c).1.stateLists.Free c := by
    rw [Scheduler.removeReady_eq (hk.priority_lt hc.1) hlinked]
    exact h.states.wf.free_remove
  have hwaits : k.waitLists.Free c := fun V hm => by
    have hstate := ((hk.mem_waitList V).1 hm).2.1
    exact TaskState.ne_blocked_of_isReady hc.2 hstate
  have hremoved := (h.removeReady hL hqueue hlinked).modify (t := c)
    (f := fun b => { b with state := .blocked, waitList := some W })
    (g := fun b => { b with state := .blocked, waitList := some W }) rfl rfl
  obtain ⟨heap, hrun, hinserted⟩ := hremoved.insertWaitListPriority (W := W) hL.toLawful
    (by rwa [Kernel.modify_waitLists, Scheduler.removeReady_waitLists])
  rw [Kernel.modify_waitLists, Scheduler.removeReady_waitLists] at hrun
  by_cases hforever : timeout = waitForever
  · have hcleared := (hinserted.modify (t := c) (f := fun b => { b with delayTicks := 0 })
      (g := fun b => { b with delayTicks := 0, stateLinked := false }) rfl rfl).clearState
      (t := c) hout
    refine ⟨_, fun n hn => ?_, by
      simp only [Scheduler.waitListBlockSection, hforever, ne_eq, not_true_eq_false, if_false]
      exact hcleared⟩
    simp only [ListMemory.waitListBlockSection, hrun n hn, hforever, ne_eq, not_true_eq_false,
      if_false, Option.bind_eq_bind, Option.bind_some, Option.pure_def]
  · have hdelayed := (hinserted.modify (t := c) (f := fun b => { b with delayTicks := timeout })
      (g := fun b => { b with delayTicks := timeout }) rfl rfl).insertTail (S := .delay)
      hL.toLawful hout
    refine ⟨_, fun n hn => ?_, by
      simp only [Scheduler.waitListBlockSection, ne_eq, hforever, not_false_eq_true, if_true]
      exact hdelayed⟩
    simp only [ListMemory.waitListBlockSection, hrun n hn, ne_eq, hforever, not_false_eq_true,
      if_true, Option.bind_eq_bind, Option.bind_some, Option.pure_def]

/-- `sertos_scheduler_wait_list_unblock_highest`. -/
theorem waitListUnblockHighest (hL : L.Lawful) (hk : k.ListInv) (h : Represents m k)
    (W : WaitList) : ∃ m',
      m.waitListUnblockHighest L W = some (m', (Scheduler.waitListUnblockHighest k W).2) ∧
      Represents m' (Scheduler.waitListUnblockHighest k W).1 := by
  have hhead : L.peekHead m.heap (.waitRoot W) = (k.waitLists W).nodes.head?.map .eventNode :=
    (hL.peekHead (h.waits.list W)).trans List.head?_map
  cases hW : (k.waitLists W).nodes with
  | nil =>
    rw [hW] at hhead
    refine ⟨m, ?_, ?_⟩
    · rw [ListMemory.waitListUnblockHighest, hhead, Scheduler.waitListUnblockHighest_nil hW]
      rfl
    · rwa [Scheduler.waitListUnblockHighest_nil hW]
  | cons t rest =>
    have hmem : t ∈ (k.waitLists W).nodes := by rw [hW]; exact List.mem_cons_self
    obtain ⟨hlive, hblocked, -⟩ := (hk.mem_waitList W).1 hmem
    have hleft := h.waitListRemove hL.toLawful (t := t) fun _ => hmem
    have hticks : ((m.waitListRemove L.toListModule W t).tcb t).delayTicks =
        ((Scheduler.waitListRemove k W t).tcb t).delayTicks := hleft.delayTicks_eq t
    rw [hW] at hhead
    simp only [ListMemory.waitListUnblockHighest, hhead, List.head?_cons, Option.map_some,
      NodeAddr.eventOwner, Option.bind_eq_bind, Option.bind_some, Option.pure_def,
      Scheduler.waitListUnblockHighest, hW, hticks]
    refine ⟨_, rfl, ?_⟩
    have hlists : (Scheduler.waitListRemove k W t).stateLists = k.stateLists := by
      rw [Scheduler.waitListRemove_frame]
    have hsame : ((Scheduler.waitListRemove k W t).tcb t).delayTicks = (k.tcb t).delayTicks := by
      rw [Scheduler.waitListRemove_tcb_same]
    rw [hsame]
    -- what is blocked is in no ready queue, and in the delay list if it counts ticks
    by_cases hpos : 0 < (k.tcb t).delayTicks
    · have hdelay : t ∈ ((Scheduler.waitListRemove k W t).stateLists .delay).nodes := by
        rw [hlists]
        exact hk.mem_delayList.2 ⟨hlive, hblocked, hpos⟩
      rw [if_pos hpos, if_pos hpos]
      exact (((hleft.removeDirect hL.toLawful hdelay).modify rfl rfl).modify rfl rfl).addReady
        hL.toLawful hleft.states.wf.free_remove
    · rw [if_neg hpos, if_neg hpos]
      refine (hleft.modify rfl rfl).addReady hL.toLawful fun S hm => ?_
      rw [Kernel.modify_stateLists, hlists, hk.mem_stateLists,
        Tcb.stateList_of_blocked hblocked, if_neg hpos] at hm
      exact absurd hm.2 (by simp)

end Represents

/-! ## What is not a list -/

namespace Kernel

variable {k k' k'' : Kernel} {t c : TaskId}

/-- A task that is not registered is in no list. -/
theorem ListInv.free_of_not_live (h : k.ListInv) (ht : ¬ k.Live t) :
    k.stateLists.Free t ∧ k.waitLists.Free t :=
  ⟨fun _ hm => ht (h.live_of_mem_stateLists hm), fun W hm => ht ((h.mem_waitLists W t).1 hm).1⟩

/-- The two differ at most in where their tasks are. -/
structure SameRest (k k' : Kernel) : Prop where
  statics : k'.statics = k.statics
  taskRegistry : k'.taskRegistry = k.taskRegistry
  basePriority : ∀ t, (k'.tcb t).basePriority = (k.tcb t).basePriority

namespace SameRest

theorem trans (h : SameRest k k') (h' : SameRest k' k'') : SameRest k k'' where
  statics := h'.statics.trans h.statics
  taskRegistry := h'.taskRegistry.trans h.taskRegistry
  basePriority t := (h'.basePriority t).trans (h.basePriority t)

/-- One control block is written, but not its base priority. -/
theorem of_update {b : Tcb} (hstatics : k'.statics = k.statics)
    (hregistry : k'.taskRegistry = k.taskRegistry) (htcb : k'.tcb = Function.update k.tcb t b)
    (hb : b.basePriority = (k.tcb t).basePriority) : SameRest k k' where
  statics := hstatics
  taskRegistry := hregistry
  basePriority u := by
    rw [htcb, Function.update_apply]
    split_ifs with hu
    · rw [hb, hu]
    · rfl

theorem park (W : Option WaitList) (ticks : ℕ) : SameRest k (k.park c W ticks) :=
  of_update rfl rfl rfl rfl

theorem wake : SameRest k (k.wake t) := of_update rfl rfl rfl rfl

theorem countDown : SameRest k (k.countDown t) := by
  rw [Kernel.countDown]
  split
  · exact wake
  · exact of_update rfl rfl rfl rfl

theorem foldl_countDown (l : List TaskId) : SameRest k (l.foldl Kernel.countDown k) := by
  induction l generalizing k with
  | nil => exact ⟨rfl, rfl, fun _ => rfl⟩
  | cons t l ih => exact countDown.trans ih

theorem processDelayedTasks (h : k.ListInv) :
    SameRest k (Scheduler.processDelayedTasks k).1 := by
  rw [Scheduler.processDelayedTasks_eq h]
  exact foldl_countDown _

theorem processTimeSlicing : SameRest k (Scheduler.processTimeSlicing k) where
  statics := by rw [Scheduler.processTimeSlicing_frame]; rfl
  taskRegistry := by rw [Scheduler.processTimeSlicing_frame]
  basePriority t := by rw [Scheduler.processTimeSlicing_tcb]

theorem waitListUnblockHighest (h : k.ListInv) (W : WaitList) :
    SameRest k (Scheduler.waitListUnblockHighest k W).1 := by
  cases hW : (k.waitLists W).nodes with
  | nil =>
    rw [Scheduler.waitListUnblockHighest_nil hW]
    exact ⟨rfl, rfl, fun _ => rfl⟩
  | cons t rest =>
    rw [Scheduler.waitListUnblockHighest_cons h hW]
    exact wake

end SameRest

end Kernel

/-! ## The whole of it -/

namespace LinkedKernel

/-- The memory holds the kernel. -/
structure Refines (c : LinkedKernel) (k : Kernel) : Prop where
  lists : Represents c.lists k
  registry : registryLayout.Spells c.registry fun _ => k.taskRegistry
  basePriority_eq : ∀ t, c.basePriority t = (k.tcb t).basePriority
  statics_eq : c.toStatics = k.statics

namespace Refines

variable {L : ListLibrary NodeAddr} {R : ListLibrary RegistryAddr} {c : LinkedKernel}
  {k k' : Kernel} {m : ListMemory} {t next : TaskId}

theorem currentTcb (h : c.Refines k) : c.currentTcb = k.currentTcb :=
  congrArg Statics.currentTcb h.statics_eq

theorem isRunning (h : c.Refines k) : c.isRunning = k.isRunning :=
  congrArg Statics.isRunning h.statics_eq

theorem lockNesting (h : c.Refines k) : c.lockNesting = k.lockNesting :=
  congrArg Statics.lockNesting h.statics_eq

theorem reschedulePending (h : c.Refines k) : c.reschedulePending = k.reschedulePending :=
  congrArg Statics.reschedulePending h.statics_eq

theorem timeSlicingEnabled (h : c.Refines k) : c.timeSlicingEnabled = k.timeSlicingEnabled :=
  congrArg Statics.timeSlicingEnabled h.statics_eq

theorem stats (h : c.Refines k) : c.stats = k.stats := congrArg Statics.stats h.statics_eq

/-- Only the lists changed. -/
theorem setLists (h : c.Refines k) (hm : Represents m k') (hrest : Kernel.SameRest k k') :
    LinkedKernel.Refines { c with lists := m } k' where
  lists := hm
  registry := by rw [hrest.taskRegistry]; exact h.registry
  basePriority_eq t := by rw [hrest.basePriority, h.basePriority_eq]
  statics_eq := h.statics_eq.trans hrest.statics.symm

/-- Only what is no list changed. -/
theorem setStatics (h : c.Refines k) {s : Statics} (hs : s = k'.statics)
    (hstates : k'.stateLists = k.stateLists) (hwaits : k'.waitLists = k.waitLists)
    (hregistry : k'.taskRegistry = k.taskRegistry) (htcb : k'.tcb = k.tcb)
    (hbitmap : k'.readyBitmap = k.readyBitmap) :
    LinkedKernel.Refines { c with toStatics := s } k' where
  lists := h.lists.congr hstates hwaits htcb hbitmap
  registry := by rw [hregistry]; exact h.registry
  basePriority_eq t := by rw [htcb, h.basePriority_eq]
  statics_eq := hs

theorem setState (h : c.Refines k) (t : TaskId) (s : TaskState) :
    (c.setState t s).Refines (k.modify t fun b => { b with state := s }) :=
  h.setLists (h.lists.modify rfl rfl) (.of_update rfl rfl rfl rfl)

/-! ### Switching -/

theorem preempt (h : c.Refines k) : c.preempt.Refines (Scheduler.preempt k) := by
  rw [LinkedKernel.preempt, Scheduler.preempt, h.currentTcb]
  cases k.currentTcb with
  | none => exact h
  | some prev =>
    simp only [h.lists.state_eq]
    split
    · exact h.setState prev .ready
    · exact h

theorem dispatch (h : c.Refines k) (next : TaskId) :
    (c.dispatch next).Refines (Scheduler.dispatch k next) := by
  have hset := h.preempt.setState next .running
  refine hset.setStatics ?_ rfl rfl rfl rfl rfl
  show { (c.preempt.setState next .running).toStatics with
    currentTcb := some next, stats := c.stats.onSwitch c.currentTcb next } = _
  rw [hset.statics_eq, h.currentTcb, h.stats, Scheduler.dispatch]
  rfl

theorem selectNextTask (hL : L.Lawful) (h : c.Refines k) :
    c.lists.selectNextTask L = some (Scheduler.selectNextTask k) :=
  h.lists.selectNextTask hL

/-- `sertos_scheduler_perform_switch`. -/
theorem performSwitch (hL : L.Lawful) (h : c.Refines k) :
    ∃ c', c.performSwitch L = some c' ∧ c'.Refines (Scheduler.performSwitch k) := by
  rw [LinkedKernel.performSwitch, h.selectNextTask hL, Scheduler.performSwitch]
  cases Scheduler.selectNextTask k with
  | none => exact ⟨c, rfl, h⟩
  | some next => exact ⟨c.dispatch next, rfl, h.dispatch next⟩

/-- `sertos_scheduler_switch_context`. -/
theorem switchContext (hL : L.Lawful) (h : c.Refines k) :
    ∃ c', c.switchContext L = some c' ∧ c'.Refines (Scheduler.switchContext k) := by
  rw [LinkedKernel.switchContext, h.selectNextTask hL, h.lockNesting, h.currentTcb,
    Scheduler.switchContext]
  split
  · exact ⟨_, rfl, h.setStatics (by rw [h.statics_eq]; rfl) rfl rfl rfl rfl rfl⟩
  · cases Scheduler.selectNextTask k with
    | none => exact ⟨c, rfl, h⟩
    | some next =>
      simp only
      split
      · exact ⟨c, rfl, h⟩
      · exact h.performSwitch hL

/-- `sertos_scheduler_reschedule`. -/
theorem reschedule (hL : L.Lawful) (h : c.Refines k) :
    ∃ c', c.reschedule L = some c' ∧ c'.Refines (Scheduler.reschedule k) := by
  rw [LinkedKernel.reschedule, h.selectNextTask hL, h.isRunning, h.currentTcb,
    Scheduler.reschedule]
  split
  · cases Scheduler.selectNextTask k with
    | none => exact ⟨c, rfl, h⟩
    | some next =>
      cases k.currentTcb with
      | none => exact h.switchContext hL
      | some current =>
        simp only [h.lists.priority_eq]
        split
        · exact h.switchContext hL
        · exact ⟨c, rfl, h⟩
  · exact ⟨c, rfl, h⟩

/-- `sertos_scheduler_start`. -/
theorem start (hL : L.Lawful) (h : c.Refines k) (tickInit : Status) :
    ∃ c', c.start L tickInit = some c' ∧ c'.Refines (Scheduler.start k tickInit) := by
  rw [LinkedKernel.start, Scheduler.start]
  split
  · exact performSwitch hL (h.setStatics (by rw [h.statics_eq]; rfl) rfl rfl rfl rfl rfl)
  · exact ⟨_, rfl, h.setStatics (by rw [h.statics_eq]; rfl) rfl rfl rfl rfl rfl⟩

/-! ### The tick, yield and delay -/

/-- `process_time_slicing`. -/
theorem processTimeSlicing (hL : L.Lawful) (hk : k.Settled) (h : c.Refines k) :
    (c.processTimeSlicing L).Refines (Scheduler.processTimeSlicing k) := by
  refine h.setLists ?_ .processTimeSlicing
  rw [h.timeSlicingEnabled, h.currentTcb]
  refine h.lists.processTimeSlicing hL fun t ht => ?_
  obtain ⟨hlive, hready⟩ := hk.ready_current ht
  exact (hk.lists.mem_readyQueue _).2 ⟨hlive, hready, rfl⟩

/-- The critical section of `sertos_scheduler_tick`. -/
theorem tickSection (hL : L.Lawful) (hk : k.Settled) (h : c.Refines k) : ∃ c',
    (∀ n, k.delayList.nodes.length < n →
      c.tickSection L n = some (c', (Scheduler.tickSection k).2)) ∧
    c'.Refines (Scheduler.tickSection k).1 := by
  have hbumped : k.bumpTicks.Settled := (Kernel.sameCore_bumpTicks k).settled hk
  have hstart : LinkedKernel.Refines { c with systemTicks := c.systemTicks + 1 } k.bumpTicks :=
    h.setStatics (by rw [h.statics_eq]; rfl) rfl rfl rfl rfl rfl
  obtain ⟨m, hrun, hm⟩ := ListInv.processDelayedTasks_represents hbumped.lists hL.toLawful
    hstart.lists
  have hwalked := hstart.setLists hm (.processDelayedTasks hbumped.lists)
  have hsettled : (Scheduler.processDelayedTasks k.bumpTicks).1.Settled := by
    rw [Scheduler.processDelayedTasks_eq hbumped.lists]
    exact hk.advance
  refine ⟨_, fun n hn => ?_, hwalked.processTimeSlicing hL hsettled⟩
  simp only [LinkedKernel.tickSection, hrun n hn, Option.bind_eq_bind, Option.bind_some,
    Option.pure_def]
  rfl

/-- `sertos_scheduler_tick`. -/
theorem tick (hL : L.Lawful) (hk : k.Settled) (h : c.Refines k) : ∃ c',
    (∀ n, k.delayList.nodes.length < n → c.tick L n = some c') ∧
    c'.Refines (Scheduler.tick k) := by
  obtain ⟨c₁, hrun, hc₁⟩ := h.tickSection hL hk
  obtain ⟨c₂, hswitch, hc₂⟩ := hc₁.switchContext hL
  rw [Scheduler.tick]
  by_cases hneed : ((Scheduler.tickSection k).2 ||
      (Scheduler.tickSection k).1.timeSlicingEnabled) = true
  · refine ⟨c₂, fun n hn => ?_, by simpa only [hneed, if_true] using hc₂⟩
    simp only [LinkedKernel.tick, hrun n hn, Option.bind_eq_bind, Option.bind_some,
      hc₁.timeSlicingEnabled, hneed, if_true, hswitch]
  · refine ⟨c₁, fun n hn => ?_, by simpa only [hneed, Bool.false_eq_true, if_false] using hc₁⟩
    simp only [LinkedKernel.tick, hrun n hn, Option.bind_eq_bind, Option.bind_some,
      hc₁.timeSlicingEnabled, hneed, Bool.false_eq_true, if_false]

/-- `sertos_scheduler_yield`. -/
theorem yield (hL : L.Lawful) (hk : k.Settled) (h : c.Refines k) :
    ∃ c', c.yield L = some c' ∧ c'.Refines (Scheduler.yield k) :=
  (h.processTimeSlicing hL hk).switchContext hL

/-- `sertos_scheduler_delay`. -/
theorem delay (hL : L.Lawful) (hk : k.Settled) (h : c.Refines k) (ticks : ℕ) :
    ∃ c', c.delay L ticks = some (c', (Scheduler.delay k ticks).2) ∧
      c'.Refines (Scheduler.delay k ticks).1 := by
  rw [LinkedKernel.delay, Scheduler.delay, h.isRunning, h.currentTcb]
  by_cases hzero : ticks = 0
  · obtain ⟨c', hrun, hc'⟩ := h.yield hL hk
    simp only [if_pos hzero, hrun, Option.map_some]
    exact ⟨c', rfl, hc'⟩
  · simp only [if_neg hzero]
    cases k.isRunning with
    | false => exact ⟨c, rfl, h⟩
    | true =>
      cases hcurrent : k.currentTcb with
      | none => exact ⟨c, rfl, h⟩
      | some current =>
        have hready := hk.ready_current hcurrent
        have hrest : Kernel.SameRest k (Scheduler.delaySection k current ticks) := by
          rw [Scheduler.delaySection_eq_park hk.lists hready.1 hready.2 (Nat.pos_of_ne_zero hzero)]
          exact .park none ticks
        obtain ⟨c', hrun, hc'⟩ :=
          (h.setLists (h.lists.delaySection hL hk.lists hready ticks) hrest).switchContext hL
        simp only [hrun, Option.map_some]
        exact ⟨c', rfl, hc'⟩

/-! ### Wait lists -/

/-- `sertos_scheduler_wait_list_block`. -/
theorem waitListBlock (hL : L.Lawful) (hk : k.Settled) (h : c.Refines k) (W : WaitList)
    {timeout : ℕ} (htimeout : timeout ≠ 0) : ∃ c',
    (∀ n, (k.waitLists W).nodes.length < n →
      c.waitListBlock L n W timeout = some (c', (Scheduler.waitListBlock k W timeout).2)) ∧
    c'.Refines (Scheduler.waitListBlock k W timeout).1 := by
  simp only [LinkedKernel.waitListBlock, Scheduler.waitListBlock, h.isRunning, h.currentTcb]
  cases k.isRunning with
  | false => exact ⟨c, fun _ _ => rfl, h⟩
  | true =>
    cases hcurrent : k.currentTcb with
    | none => exact ⟨c, fun _ _ => rfl, h⟩
    | some current =>
      have hready := hk.ready_current hcurrent
      have hrest : Kernel.SameRest k (Scheduler.waitListBlockSection k current W timeout) := by
        rw [Scheduler.waitListBlockSection_eq_park hk.lists hready.1 hready.2 htimeout]
        exact .park _ _
      obtain ⟨m, hrun, hm⟩ := h.lists.waitListBlockSection hL hk.lists hready W timeout
      obtain ⟨c', hswitch, hc'⟩ := (h.setLists hm hrest).switchContext hL
      refine ⟨c', fun n hn => ?_, hc'⟩
      simp only [hrun n hn, hswitch, Option.bind_eq_bind, Option.bind_some, Option.pure_def]

/-- `sertos_scheduler_wait_list_unblock_highest`. -/
theorem waitListUnblockHighest (hL : L.Lawful) (hk : k.ListInv) (h : c.Refines k) (W : WaitList) :
    ∃ c', c.waitListUnblockHighest L W =
        some (c', (Scheduler.waitListUnblockHighest k W).2) ∧
      c'.Refines (Scheduler.waitListUnblockHighest k W).1 := by
  obtain ⟨m, hrun, hm⟩ := h.lists.waitListUnblockHighest hL hk W
  refine ⟨_, ?_, h.setLists hm (.waitListUnblockHighest hk W)⟩
  simp only [LinkedKernel.waitListUnblockHighest, hrun, Option.bind_eq_bind, Option.bind_some,
    Option.pure_def]

/-! ### The scheduler lock -/

/-- `sertos_scheduler_lock`. -/
theorem lock (h : c.Refines k) : c.lock.Refines (Scheduler.lock k) := by
  refine h.setStatics ?_ rfl rfl rfl rfl rfl
  rw [h.statics_eq]
  rfl

/-- The critical section of `sertos_scheduler_unlock`. -/
theorem unlockSection (h : c.Refines k) : c.unlockSection.2 = (Scheduler.unlockSection k).2 ∧
    c.unlockSection.1.Refines (Scheduler.unlockSection k).1 := by
  simp only [LinkedKernel.unlockSection, Scheduler.unlockSection, h.lockNesting,
    h.reschedulePending]
  split_ifs
  · exact ⟨rfl, h.setStatics (by rw [h.statics_eq]; rfl) rfl rfl rfl rfl rfl⟩
  · exact ⟨rfl, h.setStatics (by rw [h.statics_eq]; rfl) rfl rfl rfl rfl rfl⟩
  · exact ⟨rfl, h⟩

/-- `sertos_scheduler_unlock`. -/
theorem unlock (hL : L.Lawful) (h : c.Refines k) :
    ∃ c', c.unlock L = some c' ∧ c'.Refines (Scheduler.unlock k) := by
  obtain ⟨hneeded, hsection⟩ := h.unlockSection
  rw [LinkedKernel.unlock, Scheduler.unlock]
  simp only [hneeded]
  split
  · exact hsection.switchContext hL
  · exact ⟨_, rfl, hsection⟩

/-! ### Tasks -/

/-- `init_tcb_and_stack`, for a control block that is in no list. -/
theorem initTcbAndStack (h : c.Refines k) (hstates : k.stateLists.Free t)
    (hwaits : k.waitLists.Free t) (ht : ¬ k.Live t) (config : TaskConfig) :
    (c.initTcbAndStack t config).Refines (Task.initTcbAndStack k t config) where
  lists :=
    { states := (h.lists.clearState hstates).states.of_confined_node
        (confined_clear _ _) fun _ => stateLayout_apart.symm.node_notMem_ring (S := waitLayout)
      waits := (h.lists.clearState hstates).waits.of_confined_node
        (confined_clear _ _) fun W hm => hwaits W (waitLayout.node_mem_ring.1 hm)
      tcb_eq := fun u => by
        simp only [LinkedKernel.initTcbAndStack, ListMemory.modify, Task.initTcbAndStack,
          Kernel.modify, Function.update_apply]
        split_ifs
        · rfl
        · exact h.lists.tcb_eq u
      bitmap_eq := h.lists.bitmap_eq
      eventLinked_eq := fun u => by
        by_cases hu : u = t
        · subst hu
          simp [LinkedKernel.initTcbAndStack, Task.initTcbAndStack, Task.initTcb, Heap.clear]
        · have hne : NodeAddr.eventNode u ∉ NodeAddr.eventNode t :: [] := by simp [hu]
          have htcb : (Task.initTcbAndStack k t config).tcb u = k.tcb u :=
            Kernel.modify_tcb_of_ne k t (fun _ => Task.initTcb config) hu
          rw [htcb, (h.lists.clearState hstates).eventLinked_eq]
          exact congrArg Option.isSome ((confined_clear _ _).next_eq _ hne).symm }
  registry := h.registry.of_confined_node (confined_clear _ _) fun _ hm =>
    ht (registryLayout.node_mem_ring.1 hm)
  basePriority_eq u := by
    simp only [LinkedKernel.initTcbAndStack, Task.initTcbAndStack, Kernel.modify,
      Function.update_apply]
    split_ifs
    · rfl
    · exact h.basePriority_eq u
  statics_eq := congrArg (fun s : Statics =>
    { s with
      stats :=
        { s.stats with
          runTimeTotal := Function.update s.stats.runTimeTotal t 0
          runTimeLastEntry := Function.update s.stats.runTimeLastEntry t 0
          switchInCount := Function.update s.stats.switchInCount t 0 } }) h.statics_eq

/-- `sertos_scheduler_register_task`. -/
theorem registerTask (hR : R.Lawful) (h : c.Refines k) (ht : ¬ k.Live t) :
    (c.registerTask R t).Refines (Scheduler.registerTask k t) where
  lists := h.lists.congr rfl rfl rfl rfl
  registry := by
    have hinsert := h.registry.insertTail hR.toLawful (i := ()) (a := t) fun _ => ht
    rwa [show Bundle.insertTail (fun _ : Unit => k.taskRegistry) () t =
      fun _ => k.taskRegistry.insertTail t from funext fun _ => Bundle.insertTail_same ..] at hinsert
  basePriority_eq := h.basePriority_eq
  statics_eq := h.statics_eq

/-- `sertos_task_create_static` up to its reschedule. -/
theorem createStaticSection (hL : L.Lawful) (hR : R.Lawful) (h : c.Refines k)
    (hstates : k.stateLists.Free t) (hwaits : k.waitLists.Free t) (ht : ¬ k.Live t)
    (config : TaskConfig) :
    (c.createStaticSection L R config t).2 = (Task.createStaticSection k config t).2 ∧
      (c.createStaticSection L R config t).1.Refines (Task.createStaticSection k config t).1 := by
  rw [LinkedKernel.createStaticSection, Task.createStaticSection]
  by_cases hbuffer : config.stackBuffer = none
  · rw [if_pos hbuffer, if_pos hbuffer]
    exact ⟨rfl, h⟩
  · rw [if_neg hbuffer, if_neg hbuffer]
    cases hvalid : Task.validateTaskConfig config with
    | ok =>
      have hinit := h.initTcbAndStack hstates hwaits ht config
      have hp : ((Task.initTcbAndStack k t config).tcb t).priority < maxPriorities := by
        simpa [Task.initTcbAndStack, Task.initTcb] using Task.priority_lt_of_validate hvalid
      have hp' : (((c.initTcbAndStack t config).lists.tcb t).priority) < maxPriorities := by
        rwa [hinit.lists.priority_eq]
      have hrest : Kernel.SameRest (Task.initTcbAndStack k t config)
          (Scheduler.addReady (Task.initTcbAndStack k t config) t).1 := by
        rw [Scheduler.addReady_eq hp]
        exact .of_update rfl rfl rfl rfl
      have hadded := hinit.setLists (hinit.lists.addReady hL.toLawful hstates) hrest
      have hstatus : ((c.initTcbAndStack t config).lists.addReady L.toListModule t).2 = .ok := by
        rw [ListMemory.addReady, if_neg (Nat.not_le.2 hp')]
      simp only [hstatus, Scheduler.addReady_status hp, if_true, true_and]
      refine hadded.registerTask hR ?_
      rwa [Kernel.Live, hrest.taskRegistry]
    | _ => exact ⟨rfl, h⟩

/-- `sertos_task_create_static`. -/
theorem createStatic (hL : L.Lawful) (hR : R.Lawful) (h : c.Refines k)
    (hstates : k.stateLists.Free t) (hwaits : k.waitLists.Free t) (ht : ¬ k.Live t)
    (config : TaskConfig) :
    ∃ c', c.createStatic L R config t = some (c', (Task.createStatic k config t).2) ∧
      c'.Refines (Task.createStatic k config t).1 := by
  obtain ⟨hstatus, hsection⟩ := h.createStaticSection hL hR hstates hwaits ht config
  rw [LinkedKernel.createStatic, Task.createStatic]
  simp only [hstatus, hsection.isRunning]
  split
  · obtain ⟨c', hrun, hc'⟩ := hsection.reschedule hL
    exact ⟨c', by rw [hrun]; rfl, hc'⟩
  · exact ⟨_, by rw [← hstatus], hsection⟩

end Refines

end LinkedKernel

end Sertos
