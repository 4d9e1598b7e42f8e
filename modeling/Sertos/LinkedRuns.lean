import Sertos.LinkedSteps
import Sertos.Representation

/-!
# Runs on links

`sertos_scheduler_init_with_config` on links, and what `Sertos.LinkedSteps` gives for whole runs:
after the initialisation, every sequence of calls has a result, in which the links are those of the
kernel's lists.  So no call follows a `NULL`, no walk goes past the end of its list or round it for
ever, and whatever is proved of the lists of `Kernel` is true of the memory.

The walk of `sertos_scheduler_visit_all_tasks` over the registry is one of these.  What it visits in
a reachable state is said in terms of the calls that were made.
-/

set_option autoImplicit false

namespace Sertos

open Intrusive Circular Lts

/-! ## Initialisation -/

namespace LinkedKernel

variable (L : ListLibrary NodeAddr) (R : ListLibrary RegistryAddr) (c : LinkedKernel)

/-- The first `n` rounds of the loop that initialises the ready queues. -/
def initReadyQueues (heap : Heap NodeAddr) : ℕ → Heap NodeAddr
  | 0 => heap
  | i + 1 => L.init (initReadyQueues heap i) (.stateRoot (.ready i))

/-- `sertos_scheduler_init_with_config` before it creates the Idle task. -/
def initData (config : Option Config) : LinkedKernel :=
  { c with
    lists :=
      { c.lists with
        heap := L.init (initReadyQueues L c.lists.heap maxPriorities) (.stateRoot .delay)
        readyBitmap := fun _ => false }
    registry := R.init c.registry .root
    currentTcb := none
    isRunning := false
    lockNesting := 0
    reschedulePending := false
    systemTicks := 0
    tickRateHz := match config with
      | some config => if 0 < config.tickRateHz then config.tickRateHz else configTickRateHz
      | none => configTickRateHz
    timeSlicingEnabled := match config with
      | some config => config.enableTimeSlicing
      | none => true
    stats := { c.stats with
      enabled := match config with
        | some config => config.enableRuntimeStats
        | none => false } }

/-- `sertos_scheduler_init_with_config`, with at most `n` rounds of the loop of
`sertos_stats_reset`. -/
def initWithConfig (n : ℕ) (config : Option Config) (idleStack : ℕ) :
    Option (LinkedKernel × Status) := do
  let r ← (c.initData L R config).createStatic L R (Scheduler.idleConfig config idleStack) idleTcb
  let tasks ← r.1.visitAllTasks n
  return ({ r.1 with stats := r.1.stats.reset tasks }, r.2)

/-- What the memory holds beside the lists of the scheduler, as a kernel without tasks. -/
def memory : Kernel where
  __ := Scheduler.bss
  tcb t :=
    { c.lists.tcb t with
      basePriority := c.basePriority t
      stateLinked := (c.lists.heap.next (.stateNode t)).isSome
      eventLinked := (c.lists.heap.next (.eventNode t)).isSome }
  stats := c.stats

/-- Nothing has been linked yet: the lists that the scheduler does not initialise are empty. -/
structure Fresh : Prop where
  waits : ∀ W, IsList c.lists.heap (.waitRoot W) []
  /-- There is no queue for such a priority, so nothing is written there. -/
  ready : ∀ p, maxPriorities ≤ p → IsList c.lists.heap (.stateRoot (.ready p)) []

end LinkedKernel

namespace LinkedKernel

variable {L : ListLibrary NodeAddr} {R : ListLibrary RegistryAddr} {c : LinkedKernel} {k : Kernel}
  {config : Option Config} {idleStack : ℕ}

/-- The loop leaves the queues it has passed empty, and other roots and all nodes alone. -/
theorem initReadyQueues_spec (hL : L.Lawful) (heap : Heap NodeAddr) (n : ℕ) :
    (∀ p, p < n → IsList (initReadyQueues L heap n) (.stateRoot (.ready p)) []) ∧
      ∀ a, (∀ p, p < n → a ≠ NodeAddr.stateRoot (.ready p)) →
        (initReadyQueues L heap n).next a = heap.next a ∧
        (initReadyQueues L heap n).prev a = heap.prev a ∧
        (initReadyQueues L heap n).count a = heap.count a := by
  induction n with
  | zero => exact ⟨fun p hp => absurd hp p.not_lt_zero, fun a _ => ⟨rfl, rfl, rfl⟩⟩
  | succ n ih =>
    obtain ⟨hdone, hrest⟩ := ih
    have hc : Confined (initReadyQueues L heap n) (initReadyQueues L heap (n + 1))
        (.stateRoot (.ready n)) [] := hL.init_confined
    constructor
    · intro p hp
      rcases Nat.lt_succ_iff_lt_or_eq.1 hp with hp | rfl
      · refine (hdone p hp).of_confined hc fun a ha => ?_
        rw [List.mem_singleton] at ha ⊢
        rw [ha]
        simpa using hp.ne
      · exact hL.init
    · intro a ha
      have hne : a ≠ .stateRoot (.ready n) := ha n (Nat.lt_succ_self n)
      obtain ⟨hnext, hprev, hcount⟩ := hrest a fun p hp => ha p (Nat.lt_succ_of_lt hp)
      exact ⟨(hc.next_eq a (by simpa using hne)).trans hnext,
        (hc.prev_eq a (by simpa using hne)).trans hprev, (hc.count_eq a hne).trans hcount⟩

/-- A root that the loop does not reach keeps its empty list. -/
theorem isList_initReadyQueues (hL : L.Lawful) {heap : Heap NodeAddr} {n : ℕ} {r : NodeAddr}
    (hr : ∀ p, p < n → r ≠ NodeAddr.stateRoot (.ready p)) (h : IsList heap r []) :
    IsList (initReadyQueues L heap n) r [] := by
  obtain ⟨hnext, hprev, hcount⟩ := (initReadyQueues_spec hL heap n).2 r hr
  exact .nil (hnext.trans h.next_root) (hprev.trans h.prev_root) (hcount.trans h.count_eq)

/-- **Before the Idle task is created.** -/
theorem initData_refines (hL : L.Lawful) (hR : R.Lawful) (hc : c.Fresh) (config : Option Config) :
    (c.initData L R config).Refines (Scheduler.initData c.memory config) := by
  have hdelay : Confined (initReadyQueues L c.lists.heap maxPriorities)
      (c.initData L R config).lists.heap (.stateRoot .delay) [] := hL.init_confined
  have hqueue : ∀ r, r ≠ .stateRoot .delay →
      IsList (initReadyQueues L c.lists.heap maxPriorities) r [] →
      IsList (c.initData L R config).lists.heap r [] := fun r hr h =>
    h.of_confined hdelay fun a ha => by
      rw [List.mem_singleton] at ha ⊢
      rwa [ha]
  have hstates : ∀ S, IsList (c.initData L R config).lists.heap (.stateRoot S) [] := fun S => by
    cases S with
    | delay => exact hL.init
    | ready p =>
      refine hqueue _ (by simp) ?_
      rcases Nat.lt_or_ge p maxPriorities with hp | hp
      · exact (initReadyQueues_spec hL _ _).1 p hp
      · refine isList_initReadyQueues hL (fun q hq => ?_) (hc.ready p hp)
        simpa using (hq.trans_le hp).ne'
  have hwaits : ∀ W, IsList (c.initData L R config).lists.heap (.waitRoot W) [] := fun W =>
    hqueue _ (by simp) (isList_initReadyQueues hL (fun _ _ => by simp) (hc.waits W))
  refine
    { lists :=
        { states := ⟨hstates, fun S => (hstates S).count_eq.symm⟩
          waits := ⟨hwaits, fun W => (hwaits W).count_eq.symm⟩
          tcb_eq := fun _ => rfl
          bitmap_eq := rfl
          eventLinked_eq := fun t => ?_ }
      registry := ⟨fun _ => hR.init, fun _ => hR.init.count_eq.symm⟩
      basePriority_eq := fun _ => rfl
      statics_eq := rfl }
  rw [hdelay.next_eq _ (by simp),
    ((initReadyQueues_spec hL c.lists.heap maxPriorities).2 _ fun _ _ => by simp).1]
  rfl

/-! ## Visiting all tasks -/

/-- **The walk over the registry**, with `back` ahead of it. -/
theorem visitFrom_spec {front back : List TaskId}
    (h : IsList c.registry .root ((front ++ back).map .registryNode)) {n : ℕ}
    (hn : back.length < n) :
    c.visitFrom n (some ((back.map RegistryAddr.registryNode).headD .root)) = some back := by
  induction back generalizing front n with
  | nil =>
    obtain ⟨n, rfl⟩ := Nat.exists_eq_succ_of_ne_zero (Nat.ne_zero_of_lt hn)
    rfl
  | cons t back ih =>
    obtain ⟨n, rfl⟩ := Nat.exists_eq_succ_of_ne_zero (Nat.ne_zero_of_lt hn)
    have hcut : IsList c.registry .root
        (front.map .registryNode ++ .registryNode t :: back.map .registryNode) := by
      simpa using h
    have hrest := @ih (front ++ [t]) (by simpa using h) n (Nat.lt_of_succ_lt_succ hn)
    simp only [List.map_cons, List.headD_cons, visitFrom, reduceCtorEq, if_false,
      RegistryAddr.owner, hcut.next_eq, hrest, Option.bind_eq_bind, Option.bind_some,
      Option.pure_def]

/-- `sertos_scheduler_visit_all_tasks` visits the tasks of the registry. -/
theorem Refines.visitAllTasks (h : c.Refines k) {n : ℕ} (hn : k.taskRegistry.nodes.length < n) :
    c.visitAllTasks n = some k.taskRegistry.nodes := by
  have hlist : IsList c.registry .root (([] ++ k.taskRegistry.nodes).map .registryNode) :=
    h.registry.list ()
  rw [LinkedKernel.visitAllTasks, hlist.next_root]
  exact visitFrom_spec hlist hn

/-- **Initialisation.** -/
theorem initWithConfig_refines (hL : L.Lawful) (hR : R.Lawful) (hc : c.Fresh)
    (config : Option Config) (idleStack : ℕ) : ∃ c',
    (∀ n, (Scheduler.initWithConfig c.memory config idleStack).1.taskRegistry.nodes.length < n →
      c.initWithConfig L R n config idleStack =
        some (c', (Scheduler.initWithConfig c.memory config idleStack).2)) ∧
    c'.Refines (Scheduler.initWithConfig c.memory config idleStack).1 := by
  have hlive : ¬ (Scheduler.initData c.memory config).Live idleTcb := List.not_mem_nil
  obtain ⟨hstates, hwaits⟩ :=
    (Scheduler.initData_settled c.memory config).lists.free_of_not_live hlive
  obtain ⟨c₁, hrun, hc₁⟩ := (initData_refines hL hR hc config).createStatic hL hR hstates hwaits
    hlive (Scheduler.idleConfig config idleStack)
  refine ⟨_, fun n hn => ?_, hc₁.setStatics (s := { c₁.toStatics with
    stats := c₁.stats.reset (Task.createStatic (Scheduler.initData c.memory config)
      (Scheduler.idleConfig config idleStack) idleTcb).1.taskRegistry.nodes }) ?_
    rfl rfl rfl rfl rfl⟩
  · have hvisit := hc₁.visitAllTasks (n := n) hn
    simp only [LinkedKernel.initWithConfig, hrun, hvisit, Option.bind_eq_bind, Option.bind_some,
      Option.pure_def]
    rfl
  · rw [hc₁.statics_eq]
    rfl

end LinkedKernel

/-! ## Runs -/

/-- The call gives the processor away, if the scheduler lets it. -/
def Call.Suspends : Call → Prop
  | .delay n => n ≠ 0
  | .block _ _ => True
  | _ => False

instance : DecidablePred Call.Suspends
  | .delay n => inferInstanceAs (Decidable (n ≠ 0))
  | .block _ _ => .isTrue trivial
  | .create _ _ | .start _ | .tick | .yield | .unblock _ | .reschedule | .lock
  | .unlock => .isFalse id

/-- A call as the interface asks for it: one that gives the processor away is made with the
scheduler unlocked. -/
def Call.Proper (k : Kernel) (a : Call) : Prop :=
  a.Allowed k ∧ (a.Suspends → k.lockNesting = 0)

instance (k : Kernel) : DecidablePred (Call.Proper k) := fun a =>
  inferInstanceAs (Decidable (a.Allowed k ∧ (a.Suspends → k.lockNesting = 0)))

/-- One step of a run. -/
abbrev Call.ProperStep : Kernel → Call → Kernel → Prop := Guarded Call.Proper Call.run

/-- The task that the call creates, if its configuration is valid. -/
def Call.created : Call → Option TaskId
  | .create config t =>
    if config.stackBuffer ≠ none ∧ Task.validateTaskConfig config = .ok then some t else none
  | _ => none

namespace Call

variable {k k' : Kernel} {a : Call} {as : List Call}

theorem Blocks.suspends {c : TaskId} (h : a.Blocks k c) : a.Suspends := by
  cases a with
  | delay n => exact h.1
  | block W timeout => trivial
  | _ => exact h.elim

theorem Proper.steady (ha : a.Proper k) (h : k.Steady) : (a.run k).Steady :=
  h.run ha.1 fun _ hb => ha.2 hb.suspends

theorem steady_of_run (h : k.Steady) (htrace : Trace ProperStep k as k') : k'.Steady :=
  htrace.invariant (I := Kernel.Steady) (fun _ _ _ hs ⟨ha, e⟩ => e ▸ ha.steady hs) h

theorem Effect.taskRegistry (he : Effect k a k') (h : k.Settled)
    (ha : ∀ config t, a ≠ .create config t) : k'.taskRegistry = k.taskRegistry := by
  cases he with
  | enroll => exact absurd rfl (ha _ _)
  | tick => exact (Kernel.Ticked.settled h).taskRegistry
  | rotate => exact (rotated_processTimeSlicing h).taskRegistry
  | unlock => exact (sameCore_unlockSection k).taskRegistry
  | _ => rfl

/-- **What a call does to the registry.** -/
theorem taskRegistry_run (h : k.Settled) (ha : a.Allowed k) :
    (a.run k).taskRegistry.nodes = k.taskRegistry.nodes ++ a.created.toList := by
  have he := critical_effect h ha
  rw [(run_switched (he.inv h).lists).taskRegistry]
  cases a with
  | create config t =>
    by_cases hbuffer : config.stackBuffer = none
    · simp [critical, created, Task.createStaticSection, hbuffer]
    · cases hvalid : Task.validateTaskConfig config with
      | ok =>
        rw [critical, Task.createStaticSection_of_valid k t hbuffer hvalid, created,
          if_pos ⟨hbuffer, hvalid⟩]
        rfl
      | _ => simp [critical, created, Task.createStaticSection, hbuffer, hvalid]
  | _ =>
    rw [he.taskRegistry h (by simp)]
    exact (List.append_nil _).symm

/-- The registry lists the tasks in the order of their creation. -/
theorem taskRegistry_of_run (h : k.Steady) (htrace : Trace ProperStep k as k') :
    k'.taskRegistry.nodes = k.taskRegistry.nodes ++ as.filterMap created := by
  induction htrace with
  | nil k => simp
  | @cons k k₁ k₂ a as hstep _ ih =>
    obtain ⟨ha, rfl⟩ := hstep
    rw [ih (ha.steady h), taskRegistry_run h.toSettled ha.1, List.append_assoc]
    congr 1
    cases hcreated : a.created with
    | none => simp [hcreated]
    | some t => simp [hcreated]

end Call

namespace LinkedKernel

variable {L : ListLibrary NodeAddr} {R : ListLibrary RegistryAddr} {c : LinkedKernel}
  {k k' : Kernel} {a : Call} {as : List Call} {config : Option Config} {idleStack : ℕ}

/-- A list of the kernel is no longer than the registry. -/
theorem length_le_taskRegistry {l : List TaskId} (hl : l.Nodup) (hlive : ∀ t ∈ l, k.Live t) :
    l.length ≤ k.taskRegistry.nodes.length :=
  (List.subperm_of_subset hl hlive).length_le

/-- **A call, link by link.** -/
theorem Refines.call (hL : L.Lawful) (hR : R.Lawful) (hk : k.Settled) (ha : a.Allowed k)
    (h : c.Refines k) : ∃ c',
    (∀ n, k.taskRegistry.nodes.length < n → c.call L R n a = some c') ∧ c'.Refines (a.run k) := by
  cases a with
  | create config t =>
    obtain ⟨hstates, hwaits⟩ := hk.lists.free_of_not_live ha
    obtain ⟨c', hrun, hc'⟩ := h.createStatic hL hR hstates hwaits ha config
    exact ⟨c', fun n _ => by rw [LinkedKernel.call, hrun]; rfl, hc'⟩
  | start tickInit =>
    obtain ⟨c', hrun, hc'⟩ := h.start hL tickInit
    exact ⟨c', fun _ _ => hrun, hc'⟩
  | tick =>
    obtain ⟨c', hrun, hc'⟩ := h.tick hL hk
    have hle := length_le_taskRegistry (hk.lists.stateWF.list .delay).nodup fun t ht =>
      hk.lists.live_of_mem_stateLists ht
    exact ⟨c', fun n hn => hrun n (hle.trans_lt hn), hc'⟩
  | yield =>
    obtain ⟨c', hrun, hc'⟩ := h.yield hL hk
    exact ⟨c', fun _ _ => hrun, hc'⟩
  | delay ticks =>
    obtain ⟨c', hrun, hc'⟩ := h.delay hL hk ticks
    exact ⟨c', fun n _ => by rw [LinkedKernel.call, hrun]; rfl, hc'⟩
  | block W timeout =>
    obtain ⟨c', hrun, hc'⟩ := h.waitListBlock hL hk W ha.1
    have hle := length_le_taskRegistry (hk.lists.waitWF.list W).nodup fun t ht =>
      ((hk.lists.mem_waitLists W t).1 ht).1
    exact ⟨c', fun n hn => by rw [LinkedKernel.call, hrun n (hle.trans_lt hn)]; rfl, hc'⟩
  | unblock W =>
    obtain ⟨c', hrun, hc'⟩ := h.waitListUnblockHighest hL hk.lists W
    exact ⟨c', fun n _ => by rw [LinkedKernel.call, hrun]; rfl, hc'⟩
  | reschedule =>
    obtain ⟨c', hrun, hc'⟩ := h.reschedule hL
    exact ⟨c', fun _ _ => hrun, hc'⟩
  | lock => exact ⟨c.lock, fun _ _ => rfl, h.lock⟩
  | unlock =>
    obtain ⟨c', hrun, hc'⟩ := h.unlock hL
    exact ⟨c', fun _ _ => hrun, hc'⟩

/-- **A run, link by link.** -/
theorem Refines.calls (hL : L.Lawful) (hR : R.Lawful) (hk : k.Steady) (h : c.Refines k)
    (htrace : Trace Call.ProperStep k as k') : ∃ c',
    (∀ n, k'.taskRegistry.nodes.length < n → c.calls L R n as = some c') ∧ c'.Refines k' := by
  induction htrace generalizing c with
  | nil k => exact ⟨c, fun _ _ => rfl, h⟩
  | @cons k k₁ k₂ a as hstep hrest ih =>
    obtain ⟨ha, rfl⟩ := hstep
    obtain ⟨c₁, hcall, hc₁⟩ := h.call hL hR hk.toSettled ha.1
    obtain ⟨c₂, hcalls, hc₂⟩ := ih (ha.steady hk) hc₁
    -- the registry only grows
    have hgrow : k.taskRegistry.nodes.length ≤ k₂.taskRegistry.nodes.length := by
      rw [Call.taskRegistry_of_run hk (.cons ⟨ha, rfl⟩ hrest), List.length_append]
      exact Nat.le_add_right _ _
    refine ⟨c₂, fun n hn => ?_, hc₂⟩
    rw [LinkedKernel.calls, List.foldlM_cons, hcall n (hgrow.trans_lt hn)]
    exact hcalls n hn

/-- `sertos_scheduler_init_with_config`, and calls after it. -/
def boot (L : ListLibrary NodeAddr) (R : ListLibrary RegistryAddr) (c : LinkedKernel) (n : ℕ)
    (config : Option Config) (idleStack : ℕ) (as : List Call) : Option LinkedKernel := do
  let r ← c.initWithConfig L R n config idleStack
  r.1.calls L R n as

theorem boot_refines (hL : L.Lawful) (hR : R.Lawful) (hc : c.Fresh)
    (hinit : (Scheduler.initWithConfig c.memory config idleStack).2 = .ok)
    (htrace : Trace Call.ProperStep (Scheduler.initWithConfig c.memory config idleStack).1 as k) :
    ∃ c', (∀ n, k.taskRegistry.nodes.length < n →
      c.boot L R n config idleStack as = some c') ∧ c'.Refines k := by
  have hsteady := Kernel.initWithConfig_steady hinit
  obtain ⟨c₁, hboot, hc₁⟩ := initWithConfig_refines hL hR hc config idleStack
  obtain ⟨c₂, hcalls, hc₂⟩ := hc₁.calls hL hR hsteady htrace
  have hgrow : (Scheduler.initWithConfig c.memory config idleStack).1.taskRegistry.nodes.length ≤
      k.taskRegistry.nodes.length := by
    rw [Call.taskRegistry_of_run hsteady htrace, List.length_append]
    exact Nat.le_add_right _ _
  refine ⟨c₂, fun n hn => ?_, hc₂⟩
  rw [boot, hboot n (hgrow.trans_lt hn)]
  exact hcalls n hn

end LinkedKernel

/-! ## Results -/

open LinkedKernel

variable {L : ListLibrary NodeAddr} {R : ListLibrary RegistryAddr} {c : LinkedKernel}
  {k : Kernel} {as : List Call} {config : Option Config} {idleStack : ℕ}

/-- **The scheduler on links refines the scheduler on lists.**  No call of a run takes a `NULL` for
a node or loops for ever, and the links it leaves are rings that spell out the kernel's lists. -/
theorem linkedRun_refines (hL : L.Lawful) (hR : R.Lawful) (hc : c.Fresh)
    (hinit : (Scheduler.initWithConfig c.memory config idleStack).2 = .ok)
    (htrace : Trace Call.ProperStep (Scheduler.initWithConfig c.memory config idleStack).1 as k) :
    ∃ c', (∀ n, k.taskRegistry.nodes.length < n → c.boot L R n config idleStack as = some c') ∧
      c'.Refines k ∧
      (∀ S, Ring c'.lists.heap (.stateRoot S) ((k.stateLists S).nodes.map .stateNode)) ∧
      (∀ W, Ring c'.lists.heap (.waitRoot W) ((k.waitLists W).nodes.map .eventNode)) ∧
      Ring c'.registry .root (k.taskRegistry.nodes.map .registryNode) := by
  obtain ⟨c', hrun, hc'⟩ := boot_refines hL hR hc hinit htrace
  exact ⟨c', hrun, hc', fun S => (hc'.lists.states.list S).ring,
    fun W => (hc'.lists.waits.list W).ring, (hc'.registry.list ()).ring⟩

/-- **`sertos_scheduler_visit_all_tasks` visits each task once,** in the order of creation, and
ends. -/
theorem visitAllTasks_created (hL : L.Lawful) (hR : R.Lawful) (hc : c.Fresh)
    (hinit : (Scheduler.initWithConfig c.memory config idleStack).2 = .ok)
    (htrace : Trace Call.ProperStep (Scheduler.initWithConfig c.memory config idleStack).1 as k) :
    (idleTcb :: as.filterMap Call.created).Nodup ∧
      ∀ n, as.length + 1 < n → ∃ c', c.boot L R n config idleStack as = some c' ∧
        c'.visitAllTasks n = some (idleTcb :: as.filterMap Call.created) := by
  have hsteady := Kernel.initWithConfig_steady hinit
  have hstart : (Scheduler.initWithConfig c.memory config idleStack).1.taskRegistry.nodes =
      [idleTcb] := by
    rw [(Scheduler.initWithConfig_eq hinit).1.taskRegistry]
    rfl
  have hregistry : k.taskRegistry.nodes = idleTcb :: as.filterMap Call.created := by
    rw [Call.taskRegistry_of_run hsteady htrace, hstart]
    rfl
  refine ⟨hregistry ▸ (Call.steady_of_run hsteady htrace).lists.registryWF.nodup,
    fun n hn => ?_⟩
  have hlength : k.taskRegistry.nodes.length < n := by
    rw [hregistry, List.length_cons]
    exact (Nat.succ_le_succ (List.length_filterMap_le _ _)).trans_lt hn
  obtain ⟨c', hrun, hc'⟩ := boot_refines hL hR hc hinit htrace
  exact ⟨c', hrun n hlength, by rw [hc'.visitAllTasks hlength, hregistry]⟩

/-- Memory in which only the wait lists have been initialised. -/
def bootMemory : LinkedKernel where
  toStatics := Scheduler.bss.statics
  lists :=
    { heap :=
        { next := fun
            | .waitRoot W => some (.waitRoot W)
            | .stateRoot (.ready p) =>
              if maxPriorities ≤ p then some (.stateRoot (.ready p)) else none
            | _ => none
          prev := fun
            | .waitRoot W => some (.waitRoot W)
            | .stateRoot (.ready p) =>
              if maxPriorities ≤ p then some (.stateRoot (.ready p)) else none
            | _ => none
          count := fun _ => 0 }
      tcb := fun _ => ⟨.ready, 0, 0, none⟩
      readyBitmap := fun _ => false }
  registry := ⟨fun _ => none, fun _ => none, fun _ => 0⟩
  basePriority _ := 0

theorem bootMemory_fresh : bootMemory.Fresh where
  waits _ := .nil rfl rfl rfl
  ready _ hp := .nil (if_pos hp) (if_pos hp) rfl

/-- Two tasks are created, the first blocks on a semaphore with a timeout, and the second delays
itself. -/
def linkedCalls : List Call :=
  [.create (.ofPriority 5) 1, .create (.ofPriority 3) 2, .start .ok, .block (.sem 0) 10, .delay 2,
    .tick, .tick, .unblock (.sem 0), .reschedule]

theorem linkedCalls_trace :
    Trace Call.ProperStep (Scheduler.initWithConfig bootMemory.memory none 0).1 linkedCalls
      (linkedCalls.foldl Call.run (Scheduler.initWithConfig bootMemory.memory none 0).1) :=
  Trace.of_guards (by decide)

theorem linkedRun_refines_linkedCalls :
    ∃ c', (∀ n, (linkedCalls.foldl Call.run
        (Scheduler.initWithConfig bootMemory.memory none 0).1).taskRegistry.nodes.length < n →
        bootMemory.boot .reference .reference n none 0 linkedCalls = some c') ∧
      c'.Refines (linkedCalls.foldl Call.run
        (Scheduler.initWithConfig bootMemory.memory none 0).1) ∧
      (∀ S, Ring c'.lists.heap (.stateRoot S) (((linkedCalls.foldl Call.run
        (Scheduler.initWithConfig bootMemory.memory none 0).1).stateLists S).nodes.map
          .stateNode)) ∧
      (∀ W, Ring c'.lists.heap (.waitRoot W) (((linkedCalls.foldl Call.run
        (Scheduler.initWithConfig bootMemory.memory none 0).1).waitLists W).nodes.map
          .eventNode)) ∧
      Ring c'.registry .root ((linkedCalls.foldl Call.run
        (Scheduler.initWithConfig bootMemory.memory none 0).1).taskRegistry.nodes.map
          .registryNode) :=
  linkedRun_refines ListLibrary.reference_lawful ListLibrary.reference_lawful bootMemory_fresh
    (by decide) linkedCalls_trace

theorem visitAllTasks_created_linkedCalls :
    [0, 1, 2].Nodup ∧ ∀ n, 10 < n → ∃ c',
      bootMemory.boot .reference .reference n none 0 linkedCalls = some c' ∧
        c'.visitAllTasks n = some [0, 1, 2] :=
  visitAllTasks_created ListLibrary.reference_lawful ListLibrary.reference_lawful
    bootMemory_fresh (by decide) linkedCalls_trace

end Sertos
