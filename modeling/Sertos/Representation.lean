import Sertos.Calls

/-!
# The representation invariant over whole runs

`Kernel.Represented` spells the representation invariant out in terms of the lists alone: which
lists a task of each state is in, and how often.  `represented_of_run` says that it holds after
every run of scheduler calls made with the scheduler unlocked.

The one condition on the configuration is that the initialisation accepts it.  With a misaligned
Idle stack `sertos_scheduler_init_with_config` returns an error and leaves no Idle task behind; a
program that goes on regardless can let its last ready task block, and the tick then rotates a
blocked task into a ready queue (`not_represented_without_idle`).
-/

set_option autoImplicit false

namespace Sertos

open Intrusive Lts

/-- A call made with the scheduler lock not held and never taken. -/
def Call.Unlocked (k : Kernel) (a : Call) : Prop := a.Allowed k ∧ ¬ a.TouchesLock

instance (k : Kernel) : DecidablePred (Call.Unlocked k) := fun a =>
  inferInstanceAs (Decidable (a.Allowed k ∧ ¬ a.TouchesLock))

/-- One step of a run with the scheduler unlocked. -/
abbrev Call.UnlockedStep : Kernel → Call → Kernel → Prop := Guarded Call.Unlocked Call.run

namespace Kernel

/-- The representation invariant, in terms of the lists. -/
structure Represented (k : Kernel) : Prop where
  /-- Bit `p` of the ready bitmap is set exactly if ready queue `p` is not empty. -/
  bitmap : ∀ p, p < maxPriorities → (k.readyBitmap p = true ↔ (k.readyQueue p).nodes ≠ [])
  /-- A live task is ready or blocked, and its priority has a queue. -/
  active : ∀ t, k.Live t → (k.tcb t).priority < maxPriorities ∧
    ((k.tcb t).state = .ready ∨ (k.tcb t).state = .running ∨ (k.tcb t).state = .blocked)
  /-- A `READY` or `RUNNING` task is once in the ready queue of its priority, and in no other list
  through `state_node`. -/
  ready : ∀ t, k.Live t → (k.tcb t).state = .ready ∨ (k.tcb t).state = .running →
    (k.readyQueue (k.tcb t).priority).nodes.count t = 1 ∧
      ∀ L, L ≠ .ready (k.tcb t).priority → t ∉ (k.stateLists L).nodes
  /-- A `BLOCKED` task is in no ready queue, once in the delay list exactly if it counts ticks, once
  in the wait list its `wait_list` names and in no other, and in at least one of the two. -/
  blocked : ∀ t, k.Live t → (k.tcb t).state = .blocked →
    (∀ p, t ∉ (k.readyQueue p).nodes) ∧
      k.delayList.nodes.count t = (if 0 < (k.tcb t).delayTicks then 1 else 0) ∧
      (∀ W, (k.waitLists W).nodes.count t = if (k.tcb t).waitList = some W then 1 else 0) ∧
      (0 < (k.tcb t).delayTicks ∨ (k.tcb t).waitList ≠ none)
  /-- A task that is not `BLOCKED` is on no wait list. -/
  awake : ∀ t, k.Live t → (k.tcb t).state ≠ .blocked → ∀ W, t ∉ (k.waitLists W).nodes
  /-- The lists hold live tasks only, and their counts are exact. -/
  counts : (∀ L, (k.stateLists L).count = (k.stateLists L).nodes.length ∧
      ∀ t ∈ (k.stateLists L).nodes, k.Live t) ∧
    ∀ W, (k.waitLists W).count = (k.waitLists W).nodes.length ∧
      ∀ t ∈ (k.waitLists W).nodes, k.Live t

/-- In a list without repetitions a member occurs once. -/
theorem count_eq_ite {l : LinkedList TaskId} (h : l.WF) (t : TaskId) (p : Prop) [Decidable p]
    (hp : t ∈ l.nodes ↔ p) : l.nodes.count t = if p then 1 else 0 := by
  by_cases hm : t ∈ l.nodes
  · rw [if_pos (hp.1 hm)]; exact List.count_eq_one_of_mem h.nodup hm
  · rw [if_neg fun e => hm (hp.2 e)]; exact List.count_eq_zero_of_not_mem hm

theorem ListInv.represented {k : Kernel} (h : k.ListInv) : k.Represented where
  bitmap p _ := h.bitmap p
  active t ht := by
    refine ⟨h.priority_lt ht, ?_⟩
    rcases (h.consistent t ht).active with hr | hb
    · rcases TaskState.isReady_iff.1 hr with hr | hr
      · exact Or.inl hr
      · exact Or.inr (Or.inl hr)
    · exact Or.inr (Or.inr hb)
  ready t ht hr := by
    have hm : t ∈ (k.readyQueue (k.tcb t).priority).nodes :=
      (h.mem_readyQueue _).2 ⟨ht, TaskState.isReady_iff.2 hr, rfl⟩
    exact ⟨List.count_eq_one_of_mem (h.stateWF.list _).nodup hm,
      fun L hL => h.stateWF.notMem_of_ne hm hL⟩
  blocked t ht hb := by
    refine ⟨fun p hm => ?_, count_eq_ite (h.stateWF.list _) t _ ?_,
      fun W => count_eq_ite (h.waitWF.list W) t _ ?_, (h.consistent t ht).wakeable hb⟩
    · exact TaskState.ne_blocked_of_isReady ((h.mem_readyQueue p).1 hm).2.1 hb
    · exact h.mem_delayList.trans (by simp [ht, hb])
    · exact (h.mem_waitList W).trans (by simp [ht, hb])
  awake t ht hb W hm := hb ((h.mem_waitList W).1 hm).2.1
  counts := ⟨fun L => ⟨(h.stateWF.list L).count_eq, fun _ hm => h.live_of_mem_stateLists hm⟩,
    fun W => ⟨(h.waitWF.list W).count_eq, fun _ hm => ((h.mem_waitLists W _).1 hm).1⟩⟩

/-- The invariant of runs with the scheduler unlocked. -/
structure Unlocked (k : Kernel) : Prop extends Steady k where
  lockNesting_eq : k.lockNesting = 0

theorem Unlocked.step {k k' : Kernel} {a : Call} (h : k.Unlocked) (hs : Call.UnlockedStep k a k') :
    k'.Unlocked := by
  obtain ⟨⟨ha, hlock⟩, rfl⟩ := hs
  exact { h.toSteady.run ha fun _ _ => h.lockNesting_eq with
    lockNesting_eq := (Call.run_lockNesting h.toSettled ha hlock).trans h.lockNesting_eq }

theorem initWithConfig_unlocked {mem : Kernel} {config : Option Config} {idleStack : ℕ}
    (h : (Scheduler.initWithConfig mem config idleStack).2 = .ok) :
    (Scheduler.initWithConfig mem config idleStack).1.Unlocked :=
  { initWithConfig_steady h with lockNesting_eq := (Scheduler.initWithConfig_eq h).2.2.1 }

/-- **The representation invariant holds after every run.** -/
theorem represented_of_run {mem : Kernel} {config : Option Config} {idleStack : ℕ}
    (hinit : (Scheduler.initWithConfig mem config idleStack).2 = .ok) {calls : List Call}
    {k : Kernel}
    (h : Trace Call.UnlockedStep (Scheduler.initWithConfig mem config idleStack).1 calls k) :
    k.Represented := by
  have hk : k.Unlocked := h.invariant (fun _ _ _ => Unlocked.step) (initWithConfig_unlocked hinit)
  exact hk.lists.represented

/-- One task of priority 3 delays itself for two ticks and runs again after the second. -/
theorem represented_of_run_delay :
    (([.create (.ofPriority 3) 1, .start .ok, .delay 2, .tick, .tick] : List Call).foldl Call.run
      (Scheduler.initWithConfig Scheduler.bss none 0).1).Represented :=
  represented_of_run (by decide) (Trace.of_guards (by decide +kernel))

/-- The configuration of a program that passes a misaligned Idle stack. -/
def misalignedIdle : Config where
  tickRateHz := 1000
  enableTimeSlicing := true
  idleTaskStack := some 1
  idleTaskStackSize := 512
  enableRuntimeStats := false

/-- Three tasks of equal priority and no Idle task: two wait on a semaphore, the third delays itself
with nothing left to switch to, the two are woken, and the tick rotates the third. -/
def callsWithoutIdle : List Call :=
  [.create (.ofPriority 1) 1, .create (.ofPriority 1) 2, .create (.ofPriority 1) 3, .start .ok,
    .block (.sem 0) waitForever, .block (.sem 0) waitForever, .delay 5,
    .unblock (.sem 0), .unblock (.sem 0), .tick]

/-- **Not every configuration will do.**  After an initialisation that failed, a run allowed by the
interface ends with a `BLOCKED` task in a ready queue. -/
theorem not_represented_without_idle :
    ∃ k, Trace Call.UnlockedStep
        (Scheduler.initWithConfig Scheduler.bss (some misalignedIdle) 0).1 callsWithoutIdle k ∧
      k.Live 3 ∧ (k.tcb 3).state = .blocked ∧ 3 ∈ (k.readyQueue 1).nodes ∧ ¬ k.Represented := by
  have hlive : (callsWithoutIdle.foldl Call.run
      (Scheduler.initWithConfig Scheduler.bss (some misalignedIdle) 0).1).Live 3 := by decide +kernel
  have hb : ((callsWithoutIdle.foldl Call.run
      (Scheduler.initWithConfig Scheduler.bss (some misalignedIdle) 0).1).tcb 3).state
        = .blocked := by decide +kernel
  have hm : 3 ∈ ((callsWithoutIdle.foldl Call.run
      (Scheduler.initWithConfig Scheduler.bss (some misalignedIdle) 0).1).readyQueue 1).nodes := by
    decide +kernel
  exact ⟨_, Trace.of_guards (by decide +kernel), hlive, hb, hm,
    fun h => (h.blocked 3 hlive hb).1 1 hm⟩

end Kernel

end Sertos
