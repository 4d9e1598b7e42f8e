import Sertos.Startup
import Sertos.Lib.Trace

/-!
# Runs of scheduler calls

A `Call` is one call of the scheduler's interface, and `Call.run` is the state change of the whole
call together with the context switch it requests.  Every call has the same shape: one critical
section that moves tasks between lists (`Call.critical`), then at most one switch, which moves
nothing (`Call.run_switched`).  So a fact about lists is a fact about critical sections, and a fact
about who runs is a fact about switches.

`Steady` is what holds between calls as long as the Idle task never blocks: the kernel is settled
and the Idle task is ready, hence there is always a task to switch to.  `Steady.run` says that
every call keeps it, provided the calls that block are made with the scheduler unlocked.
-/

set_option autoImplicit false

namespace Sertos

open Intrusive Lts

/-- One call of the scheduler's interface. -/
inductive Call
  | create (config : TaskConfig) (t : TaskId)
  | start (tickInit : Status)
  | tick
  | yield
  | delay (n : ℕ)
  | block (W : WaitList) (timeout : ℕ)
  | unblock (W : WaitList)
  | reschedule
  | lock
  | unlock
deriving DecidableEq, Repr

namespace Call

open Scheduler Kernel

/-- The whole call, with the switch it requests. -/
def run (k : Kernel) : Call → Kernel
  | .create config t => (Task.createStatic k config t).1
  | .start tickInit => Scheduler.start k tickInit
  | .tick => Scheduler.tick k
  | .yield => Scheduler.yield k
  | .delay n => (Scheduler.delay k n).1
  | .block W timeout => (Scheduler.waitListBlock k W timeout).1
  | .unblock W => (Scheduler.waitListUnblockHighest k W).1
  | .reschedule => Scheduler.reschedule k
  | .lock => Scheduler.lock k
  | .unlock => Scheduler.unlock k

/-- The critical section of the call. -/
def critical (k : Kernel) : Call → Kernel
  | .create config t => (Task.createStaticSection k config t).1
  | .start tickInit => { k with isRunning := tickInit = .ok }
  | .tick => (Scheduler.tickSection k).1
  | .yield => Scheduler.processTimeSlicing k
  | .delay n =>
    if n = 0 then Scheduler.processTimeSlicing k
    else match k.isRunning, k.currentTcb with
      | true, some c => Scheduler.delaySection k c n
      | _, _ => k
  | .block W timeout => match k.isRunning, k.currentTcb with
    | true, some c => Scheduler.waitListBlockSection k c W timeout
    | _, _ => k
  | .unblock W => (Scheduler.waitListUnblockHighest k W).1
  | .reschedule => k
  | .lock => Scheduler.lock k
  | .unlock => (Scheduler.unlockSection k).1

/-- The calls of the interface that can be made in a state: a control block is not created twice,
the Idle task does not block, and a wait list is not waited on for no time at all (the IPC functions
return at once for `SERTOS_NO_WAIT`). -/
def Allowed (k : Kernel) : Call → Prop
  | .create _ t => ¬ k.Live t
  | .delay n => n ≠ 0 → k.currentTcb ≠ some idleTcb
  | .block _ timeout => timeout ≠ 0 ∧ k.currentTcb ≠ some idleTcb
  | _ => True

instance (k : Kernel) : DecidablePred (Allowed k)
  | .create _ t => inferInstanceAs (Decidable (¬ k.Live t))
  | .delay n => inferInstanceAs (Decidable (n ≠ 0 → k.currentTcb ≠ some idleTcb))
  | .block _ timeout => inferInstanceAs (Decidable (timeout ≠ 0 ∧ k.currentTcb ≠ some idleTcb))
  | .start _ | .tick | .yield | .unblock _ | .reschedule | .lock | .unlock => .isTrue trivial

/-- The call blocks the current task `c`. -/
def Blocks (k : Kernel) (c : TaskId) : Call → Prop
  | .delay n => n ≠ 0 ∧ k.isRunning = true ∧ k.currentTcb = some c
  | .block _ _ => k.isRunning = true ∧ k.currentTcb = some c
  | _ => False

/-- The call takes or releases the scheduler lock. -/
def TouchesLock : Call → Prop
  | .lock | .unlock => True
  | _ => False

instance : DecidablePred TouchesLock
  | .lock | .unlock => .isTrue trivial
  | .create _ _ | .start _ | .tick | .yield | .delay _ | .block _ _ | .unblock _
  | .reschedule => .isFalse id

/-- If the call blocks its caller, the scheduler is unlocked. -/
def BlocksUnlocked (k : Kernel) : Call → Prop
  | .delay n => n ≠ 0 ∧ k.isRunning = true ∧ k.currentTcb ≠ none → k.lockNesting = 0
  | .block _ _ => k.isRunning = true ∧ k.currentTcb ≠ none → k.lockNesting = 0
  | _ => True

instance (k : Kernel) : DecidablePred (BlocksUnlocked k)
  | .delay n => inferInstanceAs (Decidable
      (n ≠ 0 ∧ k.isRunning = true ∧ k.currentTcb ≠ none → k.lockNesting = 0))
  | .block _ _ => inferInstanceAs (Decidable
      (k.isRunning = true ∧ k.currentTcb ≠ none → k.lockNesting = 0))
  | .create _ _ | .start _ | .tick | .yield | .unblock _ | .reschedule | .lock
  | .unlock => .isTrue trivial

variable {k : Kernel} {t u c : TaskId}

theorem blocksUnlocked_iff {a : Call} :
    a.BlocksUnlocked k ↔ ∀ c, a.Blocks k c → k.lockNesting = 0 := by
  cases a with
  | delay n =>
    refine ⟨fun h c hb => h ⟨hb.1, hb.2.1, by simp [hb.2.2]⟩, fun h hb => ?_⟩
    obtain ⟨c, hc⟩ := Option.ne_none_iff_exists'.1 hb.2.2
    exact h c ⟨hb.1, hb.2.1, hc⟩
  | block W timeout =>
    refine ⟨fun h c hb => h ⟨hb.1, by simp [hb.2]⟩, fun h hb => ?_⟩
    obtain ⟨c, hc⟩ := Option.ne_none_iff_exists'.1 hb.2
    exact h c ⟨hb.1, hc⟩
  | _ => exact iff_of_true trivial fun _ hb => hb.elim

/-! ## A call is a critical section and a switch -/

/-- After its critical section a call does one of four things. -/
theorem run_cases (k : Kernel) (a : Call) :
    a.run k = a.critical k ∨ a.run k = switchContext (a.critical k) ∨
      a.run k = Scheduler.reschedule (a.critical k) ∨
      (∃ tickInit, a = .start tickInit ∧ a.run k = performSwitch (a.critical k)) := by
  cases a with
  | create config t =>
    simp only [run, critical, Task.createStatic]
    split
    · exact Or.inr (Or.inr (Or.inl rfl))
    · exact Or.inl rfl
  | start tickInit =>
    by_cases h : tickInit = .ok
    · refine Or.inr (Or.inr (Or.inr ⟨tickInit, rfl, ?_⟩))
      simp [run, critical, Scheduler.start, h]
    · exact Or.inl (by simp [run, critical, Scheduler.start, h])
  | tick =>
    simp only [run, critical, Scheduler.tick]
    split
    · exact Or.inr (Or.inl rfl)
    · exact Or.inl rfl
  | yield => exact Or.inr (Or.inl rfl)
  | delay n =>
    simp only [run, critical, Scheduler.delay]
    split
    · exact Or.inr (Or.inl rfl)
    · cases hrun : k.isRunning <;> cases hc : k.currentTcb <;> simp
  | block W timeout =>
    simp only [run, critical, Scheduler.waitListBlock]
    cases hrun : k.isRunning <;> cases hc : k.currentTcb <;> simp
  | unblock W => exact Or.inl rfl
  | reschedule => exact Or.inr (Or.inr (Or.inl rfl))
  | lock => exact Or.inl rfl
  | unlock =>
    simp only [run, critical, Scheduler.unlock]
    split
    · exact Or.inr (Or.inl rfl)
    · exact Or.inl rfl

/-- **A call is its critical section followed by at most a switch.** -/
theorem run_switched {a : Call} (h : (a.critical k).ListInv) :
    Switched (a.critical k) (a.run k) := by
  rcases run_cases k a with e | e | e | ⟨-, -, e⟩ <;> rw [e]
  · exact Switched.refl _
  · exact Switched.switchContext h
  · exact Switched.reschedule h
  · exact Switched.performSwitch h

/-- A settled critical section gives a settled call. -/
theorem settled_run_of_critical {a : Call} (h : (a.critical k).Settled) : (a.run k).Settled := by
  rcases run_cases k a with e | e | e | ⟨-, -, e⟩ <;> rw [e]
  · exact h
  · exact h.switchContext
  · exact h.reschedule
  · exact h.performSwitch

theorem Blocks.current {a : Call} (h : a.Blocks k c) : k.currentTcb = some c := by
  cases a with
  | delay n => exact h.2.2
  | block W timeout => exact h.2
  | _ => exact h.elim

theorem Blocks.ne_idle {a : Call} (h : a.Blocks k c) (ha : a.Allowed k) : c ≠ idleTcb := by
  rintro rfl
  cases a with
  | delay n => exact ha h.1 h.2.2
  | block W timeout => exact ha.2 h.2
  | _ => exact h.elim

/-! ## What a critical section does -/

/-- All that the critical section of a call can do to a settled kernel. -/
inductive Effect (k : Kernel) : Call → Kernel → Prop
  /-- Nothing: a call that fails, an empty wait list, `sertos_scheduler_reschedule`. -/
  | none (a : Call) (ha : a ≠ .tick) (hb : ∀ c, ¬ a.Blocks k c) : Effect k a k
  | enroll {config : TaskConfig} {t : TaskId} (ht : ¬ k.Live t)
      (hp : config.priority < maxPriorities) : Effect k (.create config t) (k.enroll t config)
  | start (tickInit : Status) : Effect k (.start tickInit) { k with isRunning := tickInit = .ok }
  | tick : Effect k .tick (tickSection k).1
  | rotate {a : Call} (ha : a = .yield ∨ a = .delay 0) : Effect k a (processTimeSlicing k)
  /-- A blocking call parks the current task. -/
  | park {a : Call} {c : TaskId} {W : Option WaitList} {ticks : ℕ} (hb : a.Blocks k c)
      (hw : 0 < ticks ∨ W ≠ .none) (ha : ∀ V timeout, a = .block V timeout →
        W = some V ∧ ticks = timeoutTicks timeout) : Effect k a (k.park c W ticks)
  /-- An event wakes the head of a wait list. -/
  | wake {W : WaitList} {t : TaskId} (hW : (k.waitLists W).nodes.head? = some t) (ht : k.Live t)
      (hb : (k.tcb t).state = .blocked) (hwl : (k.tcb t).waitList = some W) :
      Effect k (.unblock W) (k.wake t)
  | lock : Effect k .lock (Scheduler.lock k)
  | unlock : Effect k .unlock (unlockSection k).1

theorem critical_effect (h : k.Settled) {a : Call} (ha : a.Allowed k) :
    Effect k a (a.critical k) := by
  cases a with
  | create config t =>
    rcases Task.createStaticSection_cases k config t with ⟨-, e⟩ | ⟨hp, e⟩
    · rw [critical, e]; exact .none _ (by simp) fun _ hb => hb.elim
    · rw [critical, e]; exact .enroll ha hp
  | start tickInit => exact .start tickInit
  | tick => exact .tick
  | yield => exact .rotate (Or.inl rfl)
  | delay n =>
    by_cases hn : n = 0
    · subst hn; exact .rotate (Or.inr rfl)
    · simp only [critical, hn, if_false]
      split
      · rename_i c hrun hc
        obtain ⟨hlive, hr⟩ := h.ready_current hc
        have hpos := Nat.pos_of_ne_zero hn
        rw [delaySection_eq_park h.lists hlive hr hpos]
        exact .park ⟨hn, hrun, hc⟩ (Or.inl hpos) fun _ _ e => absurd e (by simp)
      · rename_i hne
        exact .none _ (by simp) fun c hb => hne c hb.2.1 hb.2.2
  | block W timeout =>
    simp only [critical]
    split
    · rename_i c hrun hc
      obtain ⟨hlive, hr⟩ := h.ready_current hc
      rw [waitListBlockSection_eq_park h.lists hlive hr ha.1]
      refine .park ⟨hrun, hc⟩ (Or.inr (by simp)) fun V n e => ?_
      obtain ⟨rfl, rfl⟩ := Call.block.inj e
      exact ⟨rfl, rfl⟩
    · rename_i hne
      exact .none _ (by simp) fun c hb => hne c hb.1 hb.2
  | unblock W =>
    rcases unblockHighest_cases h.lists W with ⟨-, e⟩ | ⟨t, hW, ht, hb, hwl, e⟩
    · rw [critical, e]; exact .none _ (by simp) fun _ hb => hb.elim
    · rw [critical, e]; exact .wake hW ht hb hwl
  | reschedule => exact .none _ (by simp) fun _ hb => hb.elim
  | lock => exact .lock
  | unlock => exact .unlock

theorem sameCore_unlockSection (k : Kernel) : SameCore k (unlockSection k).1 := by
  rw [unlockSection]
  split
  · split <;> exact ⟨rfl, rfl, rfl, rfl, rfl, rfl⟩
  · exact ⟨rfl, rfl, rfl, rfl, rfl, rfl⟩

theorem rotated_processTimeSlicing (h : k.Settled) : Rotated k (processTimeSlicing k) :=
  Rotated.processTimeSlicing h.toInv fun _ hc => h.ready_current hc

namespace Effect

variable {a : Call} {k' : Kernel}

/-- A critical section that does not block the current task keeps the kernel settled. -/
theorem settled (he : Effect k a k') (h : k.Settled) (hb : ∀ c, ¬ a.Blocks k c) : k'.Settled := by
  cases he with
  | none => exact h
  | enroll ht hp => exact h.enroll ht hp
  | start tickInit => exact SameCore.settled (k := k) ⟨rfl, rfl, rfl, rfl, rfl, rfl⟩ h
  | tick => exact h.tickSection
  | rotate => exact h.processTimeSlicing
  | park hbl => exact absurd hbl (hb _)
  | wake _ ht hblocked => exact h.wake ht hblocked
  | lock => exact SameCore.settled (k := k) ⟨rfl, rfl, rfl, rfl, rfl, rfl⟩ h
  | unlock => exact (sameCore_unlockSection k).settled h

/-- The critical section of a blocking call parks the caller. -/
theorem of_blocks (he : Effect k a k') (hb : a.Blocks k c) :
    ∃ W ticks, (0 < ticks ∨ W ≠ Option.none) ∧ k' = k.park c W ticks := by
  cases he with
  | park hbl hw =>
    obtain rfl := Option.some_inj.1 (hb.current.symm.trans hbl.current)
    exact ⟨_, _, hw, rfl⟩
  | none _ _ hnb => exact absurd hb (hnb c)
  | rotate ha =>
    rcases ha with rfl | rfl
    · exact hb.elim
    · exact absurd rfl hb.1
  | _ => exact hb.elim

theorem inv (he : Effect k a k') (h : k.Settled) : k'.Inv := by
  by_cases hb : ∃ c, a.Blocks k c
  · obtain ⟨c, hb⟩ := hb
    obtain ⟨W, ticks, hw, rfl⟩ := he.of_blocks hb
    exact h.toInv.park (h.ready_current hb.current) hw
  · exact (he.settled h (not_exists.1 hb)).toInv

/-- What was ready stays ready, except for the task that blocks. -/
theorem ready (he : Effect k a k') (h : k.Settled) (hu : k.Ready u) (hb : ¬ a.Blocks k u) :
    k'.Ready u := by
  cases he with
  | none => exact hu
  | enroll ht hp => exact ready_enroll ht hu
  | start tickInit => exact hu
  | tick => exact ((Ticked.settled h).ready h.lists u).2 (Or.inl hu)
  | rotate => exact (rotated_processTimeSlicing h).ready.2 hu
  | park hbl => exact ready_park hu fun e => hb (e ▸ hbl)
  | wake => exact ready_wake hu
  | lock => exact hu
  | unlock => exact (sameCore_unlockSection k).ready.2 hu

/-- Tasks stay live. -/
theorem live (he : Effect k a k') (h : k.Settled) (hu : k.Live u) : k'.Live u := by
  cases he with
  | enroll => exact live_enroll.2 (Or.inl hu)
  | tick => rw [Live, (Ticked.settled h).taskRegistry]; exact hu
  | rotate => rw [Live, (rotated_processTimeSlicing h).taskRegistry]; exact hu
  | unlock => rw [Live, (sameCore_unlockSection k).taskRegistry]; exact hu
  | _ => exact hu

/-- No critical section changes `sertos_current_tcb`. -/
theorem currentTcb (he : Effect k a k') (h : k.Settled) : k'.currentTcb = k.currentTcb := by
  cases he with
  | tick => exact (Ticked.settled h).currentTcb
  | rotate => exact (rotated_processTimeSlicing h).currentTcb
  | unlock => exact (sameCore_unlockSection k).currentTcb
  | _ => rfl

/-- Only `sertos_scheduler_lock` and `sertos_scheduler_unlock` change the nesting count. -/
theorem lockNesting (he : Effect k a k') (h : k.Settled) (hlock : ¬ a.TouchesLock) :
    k'.lockNesting = k.lockNesting := by
  cases he with
  | tick => exact (Ticked.settled h).lockNesting
  | rotate => exact (rotated_processTimeSlicing h).lockNesting
  | lock => exact absurd trivial hlock
  | unlock => exact absurd trivial hlock
  | _ => rfl

end Effect

theorem critical_inv (h : k.Settled) {a : Call} (ha : a.Allowed k) : (a.critical k).Inv :=
  (critical_effect h ha).inv h

theorem run_lockNesting (h : k.Settled) {a : Call} (ha : a.Allowed k) (hlock : ¬ a.TouchesLock) :
    (a.run k).lockNesting = k.lockNesting :=
  (run_switched (critical_inv h ha).lists).lockNesting.trans
    ((critical_effect h ha).lockNesting h hlock)

/-- A blocking call requests a switch. -/
theorem run_of_blocks {a : Call} (hb : a.Blocks k c) : a.run k = switchContext (a.critical k) := by
  cases a with
  | delay n => simp only [run, critical, Scheduler.delay, hb.1, if_false, hb.2.1, hb.2.2]
  | block W timeout => simp only [run, critical, Scheduler.waitListBlock, hb.1, hb.2]
  | _ => exact hb.elim

end Call

/-! ## The Idle task is always there -/

namespace Kernel

variable {k : Kernel} {c : TaskId}

/-- What holds between calls: the kernel is settled and the Idle task is ready. -/
structure Steady (k : Kernel) : Prop extends Settled k where
  idle_ready : k.Ready idleTcb

/-- **Every call keeps the kernel steady**, if the calls that block find the scheduler unlocked. -/
theorem Steady.run (h : k.Steady) {a : Call} (ha : a.Allowed k)
    (hl : ∀ c, a.Blocks k c → k.lockNesting = 0) : (a.run k).Steady := by
  have he := Call.critical_effect h.toSettled ha
  have hinv := he.inv h.toSettled
  have hidle : (a.critical k).Ready idleTcb :=
    he.ready h.toSettled h.idle_ready fun hb => hb.ne_idle ha rfl
  have hidle' : (a.run k).Ready idleTcb := (Call.run_switched hinv.lists).ready.2 hidle
  by_cases hb : ∃ c, a.Blocks k c
  · obtain ⟨c, hb⟩ := hb
    obtain ⟨W, ticks, hw, e⟩ := he.of_blocks hb
    have hs := h.park_switchContext hb.current (hl c hb) h.idle_ready (hb.ne_idle ha).symm hw
    rw [← e, ← Call.run_of_blocks hb] at hs
    exact { hs with idle_ready := hidle' }
  · have hs := Call.settled_run_of_critical (he.settled h.toSettled (not_exists.1 hb))
    exact { hs with idle_ready := hidle' }

theorem initWithConfig_steady {mem : Kernel} {config : Option Config} {idleStack : ℕ}
    (h : (Scheduler.initWithConfig mem config idleStack).2 = .ok) :
    (Scheduler.initWithConfig mem config idleStack).1.Steady :=
  { Scheduler.initWithConfig_settled mem config idleStack with
    idle_ready := Scheduler.ready_idleTcb_initWithConfig h }

/-- The state in which task 1, of priority 1, runs after the start. -/
def oneTask : Kernel :=
  [.create (.ofPriority 1) 1, .start .ok].foldl Call.run
    (Scheduler.initWithConfig Scheduler.bss none 0).1

end Kernel

end Sertos
