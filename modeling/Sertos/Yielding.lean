import Sertos.Orderly
import Sertos.RoundRobin

/-!
# Yield and cooperative scheduling

`sertos_scheduler_yield` rotates with the helper of the tick, `process_time_slicing`, and that
helper does nothing while time slicing is disabled.  The switch that follows then finds the current
task at the head of its queue and keeps it: under cooperative scheduling a task cannot pass the CPU
to another of its priority.  With time slicing enabled it does, in any reachable state, and repeated
yields visit all tasks of the priority in the order of their queue.
-/

set_option autoImplicit false

namespace Sertos

open Intrusive Lts Scheduler

namespace Kernel

variable {k k' : Kernel} {c d t u : TaskId} {a : Call} {p : ℕ}

/-- The current task `c` and behind it the other tasks of its queue, in FIFO order. -/
def turnOrder (k : Kernel) (c : TaskId) : List TaskId :=
  c :: (k.readyQueue (k.tcb c).priority).nodes.erase c

/-- `sertos_scheduler_yield`, or a delay of no ticks. -/
def IsYield (a : Call) : Prop := a = .yield ∨ a = .delay 0

/-- After any number of yields, each by the task that is current then, the current task is the one
whose turn it is. -/
def YieldsInTurn (k : Kernel) (c : TaskId) : Prop :=
  ∀ yields : List Call, (∀ a ∈ yields, IsYield a) →
    (yields.foldl Call.run k).currentTcb =
      (k.turnOrder c)[yields.length % (k.turnOrder c).length]?

theorem IsYield.run (h : IsYield a) (k : Kernel) :
    a.run k = Scheduler.switchContext (processTimeSlicing k) := by
  rcases h with rfl | rfl <;> rfl

theorem IsYield.allowed (h : IsYield a) (k : Kernel) : a.Allowed k := by
  rcases h with rfl | rfl
  · trivial
  · exact fun h0 => absurd rfl h0

theorem IsYield.not_blocks (h : IsYield a) (k : Kernel) (c : TaskId) : ¬ a.Blocks k c := by
  rcases h with rfl | rfl
  · exact id
  · exact fun hb => hb.1 rfl

/-! ## With time slicing -/

/-- The states in which the current task `c` shares the highest ready priority with others. -/
structure Sharing (k : Kernel) (c : TaskId) : Prop extends Steady k where
  unlocked : k.lockNesting = 0
  current : k.currentTcb = some c
  top : ∀ u, k.Ready u → (k.tcb u).priority ≤ (k.tcb c).priority
  others : (k.readyQueue (k.tcb c).priority).nodes.erase c ≠ []

/-- **A yield passes the CPU to the next task**, and the order is rotated by one. -/
theorem Sharing.yield (h : k.Sharing c) (hs : k.timeSlicingEnabled = true) (ha : IsYield a) :
    ∃ d, (a.run k).Sharing d ∧ (a.run k).turnOrder d = (k.turnOrder c).rotate 1 := by
  have hready := h.ready_current h.current
  have hrot := Call.rotated_processTimeSlicing h.toSettled
  have hset := h.toSettled.processTimeSlicing
  have hl : (processTimeSlicing k).lockNesting = 0 := hrot.lockNesting.trans h.unlocked
  have hidle : (processTimeSlicing k).Ready idleTcb := hrot.ready.2 h.idle_ready
  have hsw := Switched.switchContext hset.lists
  have hsteady : (a.run k).Steady :=
    h.toSteady.run (ha.allowed k) fun d hb => absurd hb (ha.not_blocks k d)
  have hfront := hset.lists.fronted_switchContext hl hidle
  obtain ⟨n, hn, htop⟩ := hset.toInv.switchContext_top hl hidle
  rw [ha.run] at hsteady ⊢
  -- the queue behind the current task
  obtain ⟨d, rest, hrest⟩ := List.exists_cons_of_ne_nil h.others
  have hprio : ∀ u, ((Scheduler.switchContext (processTimeSlicing k)).tcb u).priority =
      (k.tcb u).priority := fun u => by rw [hsw.tcb, hrot.tcb]
  have hnodes : ((Scheduler.switchContext (processTimeSlicing k)).readyQueue
      (k.tcb c).priority).nodes = d :: (rest ++ [c]) := by
    rw [readyQueue, hsw.stateLists, ← readyQueue,
      processTimeSlicing_readyQueue h.lists h.current hready hs, if_pos rfl, hrest,
        List.cons_append]
  -- the task that is selected has the priority of `c`
  have hnp : (k.tcb n).priority = (k.tcb c).priority := by
    refine Nat.le_antisymm (h.top n (hrot.ready.1 (hsw.ready.1 htop.ready))) ?_
    have hc := htop.max c (hsw.ready.2 (hrot.ready.2 hready))
    rwa [hprio, hprio] at hc
  have hhead := hfront n hn
  rw [hprio, hnp, hnodes, List.head?_cons, Option.some_inj] at hhead
  subst hhead
  have herase : ((Scheduler.switchContext (processTimeSlicing k)).readyQueue
      ((Scheduler.switchContext (processTimeSlicing k)).tcb d).priority).nodes.erase d =
        rest ++ [c] := by
    rw [hprio, hnp, hnodes, List.erase_cons_head]
  refine ⟨d, { hsteady with
    unlocked := hsw.lockNesting.trans hl
    current := hn
    top := htop.max
    others := by rw [herase]; simp }, ?_⟩
  rw [turnOrder, turnOrder, herase, hrest]
  rfl

/-- Time slicing stays enabled. -/
theorem IsYield.timeSlicingEnabled (ha : IsYield a) (h : k.Settled) :
    (a.run k).timeSlicingEnabled = k.timeSlicingEnabled :=
  Call.run_timeSlicingEnabled h (ha.allowed k)

theorem Sharing.yieldsInTurn (h : k.Sharing c) (hs : k.timeSlicingEnabled = true) :
    k.YieldsInTurn c := by
  intro yields hy
  induction yields generalizing k c with
  | nil => simpa [turnOrder] using h.current
  | cons a yields ih =>
    have ha := hy a List.mem_cons_self
    obtain ⟨d, hd, horder⟩ := h.yield hs ha
    have hrest := ih hd ((ha.timeSlicingEnabled h.toSettled).trans hs)
      fun b hb => hy b (List.mem_cons_of_mem a hb)
    have hpos : 0 < (k.turnOrder c).length := by simp [turnOrder]
    rw [List.foldl_cons, hrest, horder, List.length_rotate,
      List.getElem?_rotate (Nat.mod_lt _ hpos), Nat.mod_add_mod, List.length_cons]

/-! ## Without time slicing -/

/-- Without time slicing a yield changes nothing. -/
theorem Sharing.yield_of_disabled (h : k.Sharing c) (hf : k.Fronted)
    (hs : k.timeSlicingEnabled = false) (ha : IsYield a) : (a.run k).currentTcb = some c := by
  rw [ha.run, processTimeSlicing_of_disabled hs]
  obtain ⟨n, hn, htop⟩ := exists_selectNextTask h.lists h.idle_ready
  have hnp : (k.tcb n).priority = (k.tcb c).priority :=
    Nat.le_antisymm (h.top n htop.ready) (htop.max c (h.ready_current h.current))
  -- the task that is selected is the head of the queue of `c`, which is `c`
  have hhead := h.lists.readyInv.head?_of_selectNextTask hn
  rw [hnp, hf c h.current, Option.some_inj] at hhead
  subst hhead
  rw [Scheduler.switchContext, if_neg (by rw [h.unlocked]; exact Nat.lt_irrefl 0), hn]
  simp [h.current]

/-- **When yield passes the CPU**, in a state in which the current task shares the highest ready
priority: exactly if time slicing is enabled. -/
theorem Sharing.yieldsInTurn_iff (h : k.Sharing c)
    (hf : k.timeSlicingEnabled = false → k.Fronted) :
    k.YieldsInTurn c ↔ k.timeSlicingEnabled = true := by
  refine ⟨fun hy => ?_, h.yieldsInTurn⟩
  by_contra hs
  have hoff : k.timeSlicingEnabled = false := by simpa using hs
  -- after one yield it would be the turn of the next task
  have hone := hy [.yield] (by simp [IsYield])
  rw [List.foldl_cons, List.foldl_nil,
    h.yield_of_disabled (hf hoff) hoff (Or.inl rfl)] at hone
  obtain ⟨d, rest, hrest⟩ := List.exists_cons_of_ne_nil h.others
  have hdc : c ≠ d := by
    rintro rfl
    exact (h.lists.stateWF.list (.ready (k.tcb c).priority)).nodup.not_mem_erase
      (show c ∈ (k.readyQueue (k.tcb c).priority).nodes.erase c by simp [hrest])
  simp only [turnOrder, hrest, List.length_cons, List.length_nil] at hone
  rw [Nat.mod_eq_of_lt (by omega)] at hone
  exact hdc (by simpa using hone)

/-! ## The invariant of runs -/

/-- What every run keeps: the kernel is steady, and without time slicing the current task is the
head of its queue, under the scheduler lock too. -/
structure Cooperative (k : Kernel) : Prop extends Steady k where
  fronted : k.timeSlicingEnabled = false → k.Fronted

/-- Queues grow at the tail, and the current task stays in its own. -/
theorem Moved.fronted (hm : Moved k k') (h : k.Settled) (hf : k.Fronted) : k'.Fronted := by
  intro c hc
  rw [hm.currentTcb] at hc
  have hhead : (k.stateLists (.ready (k.tcb c).priority)).nodes.head? = some c := hf c hc
  have hlive := h.current_live c hc
  rw [readyQueue]
  cases hm with
  | @left t hl _ hne =>
    have hct : c ≠ t := fun e => hne (e ▸ hc)
    rw [hl.tcb_of_ne c hct, hl.stateLists]
    exact Bundle.head?_remove hct hhead
  | joined hj ht =>
    rw [hj.tcb_of_live hlive ht, hj.stateLists]
    exact Bundle.head?_insertTail hhead
  | @priority t p ht hp hs e =>
    subst e
    have hrunning : (k.tcb c).state = .running := h.current_running c hc
    by_cases hr : (k.tcb t).state = .ready
    · have hct : c ≠ t := by
        rintro rfl
        exact absurd (hrunning.symm.trans hr) (by simp)
      rw [Mutex.changePriority_tcb_of_ne k t p hct, Mutex.changePriority_eq_requeue h.lists ht hr hp]
      exact Bundle.head?_insertTail (Bundle.head?_remove hct hhead)
    · -- only the field is written, and for the current task it is the same
      have hprio : ((Mutex.changePriority k t p).tcb c).priority = (k.tcb c).priority := by
        rw [Mutex.changePriority, if_neg hr]
        by_cases hct : c = t
        · subst hct
          rw [modify_tcb_same]
          exact hs.resolve_left (not_not.2 hrunning)
        · rw [modify_tcb_of_ne _ _ _ hct]
      rw [hprio, Mutex.changePriority, if_neg hr, modify_stateLists]
      exact hhead
  | written hk _ _ htcb =>
    obtain ⟨q, e⟩ := htcb c hlive
    rw [e, hk.stateLists]
    exact hhead

theorem Cooperative.run (h : k.Cooperative) (ha : a.Allowed k) (hb : a.BlocksUnlocked k) :
    (a.run k).Cooperative := by
  rw [Call.blocksUnlocked_iff] at hb
  have hen := Call.run_timeSlicingEnabled h.toSettled ha
  exact { h.toSteady.run ha hb with
    fronted := fun hoff => by
      rw [hen] at hoff
      exact (h.fronted hoff).run h.toSteady ha hb fun hon => by simp [hoff] at hon }

instance : Lockable Cooperative where
  inv h := h.toInv
  moved h hm :=
    { hm.steady h.toSteady with
      fronted := fun hoff =>
        hm.fronted h.toSettled (h.fronted (hm.timeSlicingEnabled.symm.trans hoff)) }
  unblock W h := h.run (a := .unblock W) trivial trivial
  settled h := h.toSettled
  run h _ ha hb := h.run ha hb
  performSwitch h :=
    { h.toSteady.performSwitch with
      fronted := fun hoff => (h.fronted ((Switched.performSwitch
        h.lists).timeSlicingEnabled.symm.trans hoff)).performSwitch h.lists }
  lock h := h.run (a := .lock) trivial trivial
  unlock h := h.run (a := .unlock) trivial trivial

theorem initWithConfig_cooperative {mem : Kernel} {config : Option Config} {idleStack : ℕ}
    (hinit : (initWithConfig mem config idleStack).2 = .ok) :
    (initWithConfig mem config idleStack).1.Cooperative :=
  { initWithConfig_steady hinit with
    fronted := fun _ d hd => by
      rw [(initWithConfig_eq hinit).1.currentTcb] at hd
      exact absurd hd (by simp [initData]) }

/-- No yield reads the registry. -/
theorem yieldsInTurn_among {r : LinkedList TaskId} :
    (k.among r).YieldsInTurn c ↔ k.YieldsInTurn c := by
  have hfold : ∀ (yields : List Call) (k : Kernel), (∀ a ∈ yields, IsYield a) →
      yields.foldl Call.run (k.among r) = (yields.foldl Call.run k).among r := by
    intro yields
    induction yields with
    | nil => exact fun _ _ => rfl
    | cons a yields ih =>
      intro k hy
      have hplain : a.Plain := by
        rcases hy a List.mem_cons_self with rfl | rfl
        · trivial
        · trivial
      rw [List.foldl_cons, List.foldl_cons, Call.run_among k r hplain,
        ih _ fun b hb => hy b (List.mem_cons_of_mem a hb)]
  refine forall₂_congr fun yields hy => ?_
  rw [hfold yields k hy]
  rfl

end Kernel

namespace Tasks

/-! ## Runs -/

/-- **When yield passes the CPU.**  In every state that calls in order can lead to, in which the
scheduler is unlocked and the current task shares the highest ready priority with another ready
task: yields pass the CPU on in the order of the queue, exactly if time slicing is enabled. -/
theorem yields_in_turn_iff {mem : Kernel} {config : Option Config} {idleStack : ℕ}
    (hinit : (initWithConfig mem config idleStack).2 = .ok) {sems : ℕ → Semaphore}
    {pre : List TaskOp} {s : Tasks} {c : TaskId}
    (hpre : Trace TaskOp.OrderStep (init (initWithConfig mem config idleStack).1 sems) pre s)
    (hunlocked : s.kernel.lockNesting = 0) (hc : s.kernel.currentTcb = some c)
    (hother : ∃ u, u ≠ c ∧ s.kernel.Ready u ∧ (s.kernel.tcb u).priority = (s.kernel.tcb c).priority)
    (hmax : ∀ u, s.kernel.Ready u → (s.kernel.tcb u).priority ≤ (s.kernel.tcb c).priority) :
    s.kernel.YieldsInTurn c ↔ s.kernel.timeSlicingEnabled = true := by
  obtain ⟨r, h⟩ := ordered_of_run hpre
    ⟨_, init_ordered hinit (Kernel.initWithConfig_cooperative hinit)⟩
  obtain ⟨u, huc, hu, hup⟩ := hother
  have hmem : u ∈ (s.kernel.readyQueue (s.kernel.tcb c).priority).nodes.erase c :=
    (List.mem_erase_of_ne huc).2 (hup ▸ (h.ready_among.2 hu).mem_readyQueue h.inv.lists)
  have hsharing : (s.kernel.among r).Sharing c :=
    { h.kernel.toSteady with
      unlocked := hunlocked
      current := hc
      top := fun u hu => hmax u (h.ready_among.1 hu)
      others := List.ne_nil_of_mem hmem }
  rw [← Kernel.yieldsInTurn_among (r := r)]
  exact hsharing.yieldsInTurn_iff h.kernel.fronted

/-- Two tasks of one priority, and the start. -/
def twoEqual : List TaskOp :=
  [.create (.ofPriority 1) 1, .create (.ofPriority 1) 2, .api (.sched (.start .ok))]

/-- With the default configuration, in which time slicing is enabled, two tasks of one priority pass
the CPU to each other. -/
theorem yields_in_turn_iff_two : (twoEqual.foldl TaskOp.run fresh).kernel.YieldsInTurn 1 := by
  have hready : Kernel.ReadyAt 1 [1, 2] (twoEqual.foldl TaskOp.run fresh).kernel := by
    decide +kernel
  have hprio : ((twoEqual.foldl TaskOp.run fresh).kernel.tcb 1).priority = 1 := by decide +kernel
  have hpre : Trace TaskOp.OrderStep fresh twoEqual (twoEqual.foldl TaskOp.run fresh) :=
    Trace.of_guards (by decide +kernel)
  exact (yields_in_turn_iff (by decide) hpre (by decide +kernel) (by decide +kernel)
    ⟨2, by decide, ⟨by decide +kernel, by decide +kernel⟩, by decide +kernel⟩
    (by rw [hprio]; exact hready.highest)).2 (by decide +kernel)

/-- A configuration for cooperative scheduling. -/
def cooperativeConfig : Config where
  tickRateHz := 1000
  enableTimeSlicing := false
  idleTaskStack := none
  idleTaskStackSize := 0
  enableRuntimeStats := false

/-- **A yield that does not yield.**  Under cooperative scheduling task 1 yields beside task 2,
which is ready at the same priority, and stays current. -/
theorem cooperative_yield_keeps_cpu :
    ∃ s, Trace TaskOp.OrderStep
        (init (initWithConfig bss (some cooperativeConfig) 0).1 fun _ => ⟨0, 1, semMagicWord⟩)
        twoEqual s ∧
      s.kernel.isRunning = true ∧ s.kernel.lockNesting = 0 ∧ s.kernel.currentTcb = some 1 ∧
      Kernel.ReadyAt 1 [1, 2] s.kernel ∧ s.kernel.turnOrder 1 = [1, 2] ∧
      (Call.yield.run s.kernel).currentTcb = some 1 ∧ ¬ s.kernel.YieldsInTurn 1 := by
  refine ⟨_, Trace.of_guards (by decide +kernel), by decide +kernel, by decide +kernel,
    by decide +kernel, by decide +kernel, by decide +kernel, by decide +kernel, fun h => ?_⟩
  exact absurd (h [.yield] (by simp [Kernel.IsYield])) (by decide +kernel)

end Tasks

end Sertos
