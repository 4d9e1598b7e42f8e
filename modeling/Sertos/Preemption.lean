import Sertos.Representation

/-!
# The highest priority runs, and preemption under the lock

After `sertos_scheduler_start` the running task is one of maximal priority whenever the scheduler
is unlocked, and while the scheduler is locked the running task does not change.  The decision to
switch is taken in different places by different tests: `sertos_scheduler_reschedule` compares
priorities, the tick and `sertos_scheduler_yield` switch unconditionally, and under the lock the
decision is only noted in `s_reschedule_pending`.  `Kernel.Deferred` is the invariant behind all
of them: unlocked, nothing is pending and the current task is a top one; locked, it still is a top
one or a switch is pending.

The nesting count is a `uint32_t`.  Locking `2 ^ 32` times wraps it to zero with the switch still
pending (`preemption_lost_by_wrap`), so the results are about nesting depths below that.
-/

set_option autoImplicit false

namespace Sertos

open Intrusive Lts

/-- A call, or an event: `sertos_scheduler_wait_list_unblock_highest` followed by
`sertos_scheduler_reschedule`, which is how the IPC functions use it. -/
inductive Action
  | call (a : Call)
  | signal (W : WaitList)
deriving DecidableEq, Repr

namespace Action

/-- The whole action, with the switch it requests. -/
def run (k : Kernel) : Action → Kernel
  | .call a => a.run k
  | .signal W => Scheduler.reschedule (Scheduler.waitListUnblockHighest k W).1

/-- The actions of a run after the start: a task blocks only while the scheduler is unlocked, and an
event is always followed by its reschedule. -/
def Allowed (k : Kernel) : Action → Prop
  | .call (.start _) | .call (.unblock _) => False
  | .call (.delay n) => (n ≠ 0 → k.currentTcb ≠ some idleTcb) ∧ (n ≠ 0 → k.lockNesting = 0)
  | .call (.block _ timeout) =>
    (timeout ≠ 0 ∧ k.currentTcb ≠ some idleTcb) ∧ k.lockNesting = 0
  | .call a => a.Allowed k
  | .signal _ => True

instance (k : Kernel) : DecidablePred (Allowed k)
  | .call (.start _) | .call (.unblock _) => .isFalse id
  | .call (.delay n) => inferInstanceAs (Decidable
      ((n ≠ 0 → k.currentTcb ≠ some idleTcb) ∧ (n ≠ 0 → k.lockNesting = 0)))
  | .call (.block _ timeout) => inferInstanceAs (Decidable
      ((timeout ≠ 0 ∧ k.currentTcb ≠ some idleTcb) ∧ k.lockNesting = 0))
  | .call (.create config t) => inferInstanceAs (Decidable ((Call.create config t).Allowed k))
  | .call .tick | .call .yield | .call .reschedule | .call .lock | .call .unlock
  | .signal _ => .isTrue trivial

theorem Allowed.call {k : Kernel} {a : Call} (h : (Action.call a).Allowed k) :
    a.Allowed k ∧ (∀ c, a.Blocks k c → k.lockNesting = 0) ∧ (∀ s, a ≠ .start s) ∧
      ∀ W, a ≠ .unblock W := by
  cases a with
  | start s => exact h.elim
  | unblock W => exact h.elim
  | delay n => exact ⟨h.1, fun c hb => h.2 hb.1, by simp, by simp⟩
  | block W timeout => exact ⟨h.1, fun c _ => h.2, by simp, by simp⟩
  | _ => exact ⟨h, fun c hb => hb.elim, by simp, by simp⟩

/-- The nesting depth stays below what the counter can hold. -/
def DepthOk (k : Kernel) (a : Action) : Prop := a = .call .lock → k.lockNesting + 1 < 2 ^ 32

instance (k : Kernel) (a : Action) : Decidable (a.DepthOk k) :=
  inferInstanceAs (Decidable (a = .call .lock → k.lockNesting + 1 < 2 ^ 32))

end Action

/-- A call made before the scheduler is started. -/
def Call.BeforeStart (k : Kernel) (a : Call) : Prop :=
  a.Allowed k ∧ a ≠ .start .ok ∧ (a = .lock → k.lockNesting + 1 < 2 ^ 32)

instance (k : Kernel) : DecidablePred (Call.BeforeStart k) := fun a =>
  inferInstanceAs (Decidable
    (a.Allowed k ∧ a ≠ .start .ok ∧ (a = .lock → k.lockNesting + 1 < 2 ^ 32)))

namespace Kernel

open Scheduler

variable {k k' S : Kernel} {c : TaskId}

/-- The current task is a ready one of maximal priority. -/
def CurrentTop (k : Kernel) : Prop := ∃ c, k.currentTcb = some c ∧ k.IsTop c

theorem SameCore.currentTop (e : SameCore k k') (h : k.CurrentTop) : k'.CurrentTop := by
  obtain ⟨c, hc, htop⟩ := h
  exact ⟨c, e.currentTcb.trans hc, e.isTop htop⟩

/-- The invariant of the runs after the start. -/
structure Deferred (k : Kernel) : Prop extends Steady k where
  started : k.isRunning = true
  has_current : ∃ c, k.currentTcb = some c
  unlocked : k.lockNesting = 0 → k.reschedulePending = false ∧ k.CurrentTop
  locked : 0 < k.lockNesting → k.reschedulePending = true ∨ k.CurrentTop

/-! ## Switches -/

/-- A requested switch is made or noted. -/
theorem deferred_switchContext (hinv : S.Inv) (hs : (switchContext S).Steady)
    (hrun : S.isRunning = true) (hcur : ∃ c, S.currentTcb = some c)
    (hpend : S.lockNesting = 0 → S.reschedulePending = false) : (switchContext S).Deferred := by
  have hsw := Switched.switchContext hinv.lists
  have hidle : S.Ready idleTcb := hsw.ready.1 hs.idle_ready
  refine { hs with
    started := hsw.isRunning.trans hrun, has_current := ?_,
    unlocked := fun hl => ?_, locked := fun hl => ?_ }
  · by_cases hl : 0 < S.lockNesting
    · rw [switchContext_current_of_locked hl]; exact hcur
    · obtain ⟨n, hn, -⟩ := hinv.switchContext_top (by omega) hidle
      exact ⟨n, hn⟩
  · rw [hsw.lockNesting] at hl
    exact ⟨(switchContext_pending hinv.lists hl).trans (hpend hl),
      hinv.switchContext_top hl hidle⟩
  · rw [hsw.lockNesting] at hl
    exact Or.inl (by rw [switchContext_locked hl])

/-- A reschedule makes the switch, notes it, or finds that none is needed. -/
theorem deferred_reschedule (h : S.Steady) (hrun : S.isRunning = true)
    (hcur : ∃ c, S.currentTcb = some c)
    (hpend : S.lockNesting = 0 → S.reschedulePending = false) : (reschedule S).Deferred := by
  rcases reschedule_cases h.lists with e | ⟨e, hmax⟩
  · rw [e]
    refine deferred_switchContext h.toInv { h.switchContext with idle_ready := ?_ } hrun hcur hpend
    exact (Switched.switchContext h.lists).ready.2 h.idle_ready
  · have htop : S.CurrentTop := by
      obtain ⟨c, hc⟩ := hcur
      refine ⟨c, hc, h.ready_current hc, fun u hu => ?_⟩
      obtain ⟨d, hd, hle⟩ := hmax hrun u hu
      obtain rfl := Option.some_inj.1 (hc.symm.trans hd)
      exact hle
    rw [e]
    exact { h with
      started := hrun, has_current := hcur
      unlocked := fun hl => ⟨hpend hl, htop⟩, locked := fun _ => Or.inr htop }

/-- Where nothing that matters changes, the invariant stays. -/
theorem Deferred.congr (h : k.Deferred) (hs : k'.Steady) (hrun : k'.isRunning = k.isRunning)
    (hcur : k'.currentTcb = k.currentTcb) (hl : k'.lockNesting = k.lockNesting)
    (hpend : k'.reschedulePending = k.reschedulePending)
    (htop : k.CurrentTop → k'.CurrentTop) : k'.Deferred :=
  { hs with
    started := hrun.trans h.started
    has_current := by rw [hcur]; exact h.has_current
    unlocked := fun h0 => by
      rw [hpend]
      exact ⟨(h.unlocked (hl ▸ h0)).1, htop (h.unlocked (hl ▸ h0)).2⟩
    locked := fun h0 => by
      rw [hpend]
      exact (h.locked (hl ▸ h0)).imp_right htop }

/-! ## Every action keeps the invariant -/

theorem Deferred.pending_of_unlocked (h : k.Deferred) (hl : k.lockNesting = 0) :
    k.reschedulePending = false :=
  (h.unlocked hl).1

theorem Deferred.create (h : k.Deferred) {config : TaskConfig} {t : TaskId} (ht : ¬ k.Live t) :
    (Task.createStatic k config t).1.Deferred := by
  rcases Task.createStatic_cases k config t with ⟨-, e⟩ | ⟨hp, -, e⟩
  · rw [e]; exact h
  · rw [e, if_pos h.started]
    exact deferred_reschedule
      { h.toSettled.enroll ht hp with idle_ready := ready_enroll ht h.idle_ready }
      h.started h.has_current h.pending_of_unlocked

theorem Deferred.tick (h : k.Deferred) : (Scheduler.tick k).Deferred := by
  have hs : (Scheduler.tick k).Steady := h.toSteady.run (a := .tick) trivial fun _ hb => hb.elim
  have ht := Ticked.settled h.toSettled
  rcases h.toSettled.tick_cases with e | ⟨e, hr⟩
  · rw [e] at hs ⊢
    refine deferred_switchContext h.toSettled.tickSection.toInv hs (ht.isRunning.trans h.started)
      (by rw [ht.currentTcb]; exact h.has_current) fun hl => ?_
    rw [ht.lockNesting] at hl
    exact ht.reschedulePending.trans (h.pending_of_unlocked hl)
  · rw [e] at hs ⊢
    refine h.congr hs ht.isRunning ht.currentTcb ht.lockNesting ht.reschedulePending ?_
    rintro ⟨c, hc, htop⟩
    exact ⟨c, ht.currentTcb.trans hc, htop.congr hr ht.priority⟩

theorem Deferred.yield (h : k.Deferred) : (Scheduler.yield k).Deferred := by
  have hr := Call.rotated_processTimeSlicing h.toSettled
  refine deferred_switchContext h.toSettled.processTimeSlicing.toInv
    (h.toSteady.run (a := .yield) trivial fun _ hb => hb.elim) (hr.isRunning.trans h.started)
    (by rw [hr.currentTcb]; exact h.has_current) fun hl => ?_
  rw [hr.lockNesting] at hl
  exact hr.reschedulePending.trans (h.pending_of_unlocked hl)

/-- A call that blocks the current task. -/
theorem Deferred.blocks (h : k.Deferred) {a : Call} (ha : a.Allowed k) (hb : a.Blocks k c)
    (hl : k.lockNesting = 0) : (a.run k).Deferred := by
  have hs := h.toSteady.run ha fun _ _ => hl
  have he := Call.critical_effect h.toSettled ha
  have hinv := he.inv h.toSettled
  rw [Call.run_of_blocks hb] at hs ⊢
  obtain ⟨W, ticks, -, e⟩ := he.of_blocks hb
  rw [e] at hs hinv ⊢
  exact deferred_switchContext hinv hs h.started h.has_current h.pending_of_unlocked

theorem Deferred.reschedule (h : k.Deferred) : (Scheduler.reschedule k).Deferred :=
  deferred_reschedule h.toSteady h.started h.has_current h.pending_of_unlocked

theorem Deferred.signal (h : k.Deferred) (W : WaitList) :
    (Scheduler.reschedule (waitListUnblockHighest k W).1).Deferred := by
  rcases unblockHighest_cases h.lists W with ⟨-, e⟩ | ⟨t, -, ht, hb, -, e⟩
  · rw [e]; exact h.reschedule
  · rw [e]
    exact deferred_reschedule
      { h.toSettled.wake ht hb with idle_ready := ready_wake h.idle_ready }
      h.started h.has_current h.pending_of_unlocked

theorem Deferred.lock (h : k.Deferred) (hd : k.lockNesting + 1 < 2 ^ 32) :
    (Scheduler.lock k).Deferred := by
  have hl : (Scheduler.lock k).lockNesting = k.lockNesting + 1 := Nat.mod_eq_of_lt hd
  have hsame : SameCore k (Scheduler.lock k) := ⟨rfl, rfl, rfl, rfl, rfl, rfl⟩
  refine { hsame.settled h.toSettled with
    idle_ready := h.idle_ready, started := h.started, has_current := h.has_current,
    unlocked := fun h0 => by omega, locked := fun _ => ?_ }
  by_cases h0 : k.lockNesting = 0
  · exact Or.inr (hsame.currentTop (h.unlocked h0).2)
  · exact (h.locked (Nat.pos_of_ne_zero h0)).imp_right hsame.currentTop

/-- The outermost unlock makes the switch that was noted; without one the current task still is a
top one. -/
theorem Deferred.unlock (h : k.Deferred) : (Scheduler.unlock k).Deferred := by
  have hs : (Scheduler.unlock k).Steady := h.toSteady.run (a := .unlock) trivial fun _ hb => hb.elim
  by_cases h0 : k.lockNesting = 0
  · have e : Scheduler.unlock k = k := by simp [Scheduler.unlock, unlockSection, h0]
    rw [e]; exact h
  · have hpos : 0 < k.lockNesting := Nat.pos_of_ne_zero h0
    by_cases hlast : k.lockNesting - 1 = 0 ∧ k.reschedulePending = true
    · have e : Scheduler.unlock k = switchContext
          { k with lockNesting := k.lockNesting - 1, reschedulePending := false } := by
        simp [Scheduler.unlock, unlockSection, hpos, hlast]
      rw [e] at hs ⊢
      exact deferred_switchContext
        (SameCore.inv (k := k) ⟨rfl, rfl, rfl, rfl, rfl, rfl⟩ h.toInv) hs h.started h.has_current
        fun _ => rfl
    · have e : Scheduler.unlock k = { k with lockNesting := k.lockNesting - 1 } := by
        simp only [Scheduler.unlock, unlockSection, hpos, if_true, hlast, if_false]
        rfl
      have hsame : SameCore k { k with lockNesting := k.lockNesting - 1 } :=
        ⟨rfl, rfl, rfl, rfl, rfl, rfl⟩
      rw [e] at hs ⊢
      refine { hs with
        started := h.started, has_current := h.has_current, unlocked := fun hl => ?_,
        locked := fun _ => (h.locked hpos).imp_right hsame.currentTop }
      have hpend : k.reschedulePending = false := by
        rw [← Bool.not_eq_true]
        exact fun e => hlast ⟨hl, e⟩
      exact ⟨hpend, hsame.currentTop ((h.locked hpos).resolve_left (by simp [hpend]))⟩

/-- **Every action keeps the invariant.** -/
theorem Deferred.action (h : k.Deferred) {a : Action} (ha : a.Allowed k) (hd : a.DepthOk k) :
    (a.run k).Deferred := by
  cases a with
  | signal W => exact h.signal W
  | call a =>
    obtain ⟨hal, hbl, hst, hun⟩ := ha.call
    by_cases hb : ∃ c, a.Blocks k c
    · obtain ⟨c, hb⟩ := hb
      exact h.blocks hal hb (hbl c hb)
    · cases a with
      | create config t => exact h.create hal
      | start s => exact absurd rfl (hst s)
      | tick => exact h.tick
      | yield => exact h.yield
      | delay n =>
        by_cases hn : n = 0
        · subst hn; exact h.yield
        · obtain ⟨c, hc⟩ := h.has_current
          exact absurd ⟨c, hn, h.started, hc⟩ hb
      | block W timeout =>
        obtain ⟨c, hc⟩ := h.has_current
        exact absurd ⟨c, h.started, hc⟩ hb
      | unblock W => exact absurd rfl (hun W)
      | reschedule => exact h.reschedule
      | lock => exact h.lock (hd rfl)
      | unlock => exact h.unlock

/-- While the scheduler stays locked the current task stays the same. -/
theorem current_of_locked (h : k.Settled) {a : Action} (ha : a.Allowed k)
    (hl : 0 < (a.run k).lockNesting) : (a.run k).currentTcb = k.currentTcb := by
  cases a with
  | signal W =>
    have hu := h.unblockHighest W
    have he := (Call.critical_effect h (a := .unblock W) trivial).currentTcb h
    rw [Action.run, (Switched.reschedule hu.lists).lockNesting] at hl
    exact (reschedule_current_of_locked hu.lists hl).trans he
  | call a =>
    obtain ⟨hal, -, hst, -⟩ := ha.call
    have hinv := Call.critical_inv h hal
    have he := (Call.critical_effect h hal).currentTcb h
    rw [Action.run, (Call.run_switched hinv.lists).lockNesting] at hl
    rw [Action.run, ← he]
    rcases Call.run_cases k a with e | e | e | ⟨s, hs, -⟩
    · rw [e]
    · rw [e]; exact switchContext_current_of_locked hl
    · rw [e]; exact reschedule_current_of_locked hinv.lists hl
    · exact absurd hs (hst s)

/-! ## Up to the start -/

/-- What holds before the start: nothing runs, and nothing is pending unless the scheduler is
locked. -/
structure Waiting (k : Kernel) : Prop extends Steady k where
  not_started : k.isRunning = false
  pending : k.lockNesting = 0 → k.reschedulePending = false

theorem Waiting.not_blocks (h : k.Waiting) (a : Call) (c : TaskId) : ¬ a.Blocks k c := by
  intro hb
  cases a with
  | delay n => exact absurd (h.not_started.symm.trans hb.2.1) (by simp)
  | block W timeout => exact absurd (h.not_started.symm.trans hb.1) (by simp)
  | _ => exact hb

theorem Waiting.effect (h : k.Waiting) {a : Call} (ha : a.BeforeStart k)
    (he : Call.Effect k a k') :
    k'.isRunning = false ∧ (k'.lockNesting = 0 → k'.reschedulePending = false) := by
  cases he with
  | none => exact ⟨h.not_started, h.pending⟩
  | enroll => exact ⟨h.not_started, h.pending⟩
  | start s => exact ⟨by simpa using ha.2.1, h.pending⟩
  | tick =>
    have ht := Ticked.settled h.toSettled
    exact ⟨ht.isRunning.trans h.not_started, fun hl =>
      ht.reschedulePending.trans (h.pending (ht.lockNesting ▸ hl))⟩
  | rotate =>
    have hr := Call.rotated_processTimeSlicing h.toSettled
    exact ⟨hr.isRunning.trans h.not_started, fun hl =>
      hr.reschedulePending.trans (h.pending (hr.lockNesting ▸ hl))⟩
  | park hb => exact absurd hb (h.not_blocks _ _)
  | wake => exact ⟨h.not_started, h.pending⟩
  | lock =>
    have hl : (Scheduler.lock k).lockNesting = k.lockNesting + 1 :=
      Nat.mod_eq_of_lt (ha.2.2 rfl)
    exact ⟨h.not_started, fun h0 => by omega⟩
  | unlock =>
    rw [unlockSection]
    split
    · split
      · exact ⟨h.not_started, fun _ => rfl⟩
      · rename_i hlast
        refine ⟨h.not_started, fun hl => ?_⟩
        rw [← Bool.not_eq_true]
        exact fun e => hlast ⟨hl, e⟩
    · exact ⟨h.not_started, h.pending⟩

theorem Waiting.step (h : k.Waiting) {a : Call} (hs : Guarded Call.BeforeStart Call.run k a k') :
    k'.Waiting := by
  obtain ⟨ha, rfl⟩ := hs
  have hst : (a.run k).Steady := h.toSteady.run ha.1 fun c hb => absurd hb (h.not_blocks a c)
  have hinv := Call.critical_inv h.toSettled ha.1
  obtain ⟨hrun, hpend⟩ := h.effect ha (Call.critical_effect h.toSettled ha.1)
  have hsw := Call.run_switched hinv.lists
  refine { hst with not_started := hsw.isRunning.trans hrun, pending := fun hl => ?_ }
  rw [hsw.lockNesting] at hl
  rcases Call.run_cases k a with e | e | e | ⟨s, rfl, e⟩
  · rw [e]; exact hpend hl
  · rw [e, switchContext_pending hinv.lists hl]; exact hpend hl
  · rw [e]
    rcases reschedule_cases hinv.lists with e' | ⟨e', -⟩
    · rw [e', switchContext_pending hinv.lists hl]; exact hpend hl
    · rw [e']; exact hpend hl
  · rw [e, performSwitch]
    split
    · exact hpend hl
    · simpa using hpend hl

theorem initWithConfig_waiting {mem : Kernel} {config : Option Config} {idleStack : ℕ}
    (h : (initWithConfig mem config idleStack).2 = .ok) :
    (initWithConfig mem config idleStack).1.Waiting :=
  { initWithConfig_steady h with
    not_started := (initWithConfig_eq h).2.1
    pending := fun _ => (initWithConfig_eq h).2.2.2 }

/-- The start dispatches a task of maximal priority. -/
theorem Waiting.start (h : k.Waiting) : (Scheduler.start k .ok).Deferred := by
  have hsame : SameCore k { k with isRunning := true } := ⟨rfl, rfl, rfl, rfl, rfl, rfl⟩
  have hinv := hsame.inv h.toInv
  obtain ⟨n, hn, htop⟩ := exists_selectNextTask hinv.lists (hsame.ready.2 h.idle_ready)
  have e : Scheduler.start k .ok = Scheduler.dispatch { k with isRunning := true } n := by
    rw [Scheduler.start, if_pos rfl, performSwitch_of_some hn]
  have hcur : (Scheduler.dispatch { k with isRunning := true } n).CurrentTop :=
    ⟨n, by simp, isTop_dispatch htop⟩
  rw [e]
  exact { settled_dispatch hinv htop.ready with
    idle_ready := (ready_dispatch htop.ready).2 (hsame.ready.2 h.idle_ready)
    started := by simp
    has_current := ⟨n, by simp⟩
    unlocked := fun hl => ⟨by simpa using h.pending (by simpa using hl), hcur⟩
    locked := fun _ => Or.inr hcur }

/-! ## Whole runs -/

section Runs

variable {mem : Kernel} {config : Option Config} {idleStack : ℕ} {calls : List Call}
  {actions : List Action} {k₀ : Kernel}

/-- The invariant holds between the actions of every run after the start. -/
theorem deferred_of_run (hinit : (initWithConfig mem config idleStack).2 = .ok)
    (hpre : Trace (Guarded Call.BeforeStart Call.run) (initWithConfig mem config idleStack).1 calls
      k₀)
    (hrun : Trace (Guarded (fun k a => Action.Allowed k a ∧ Action.DepthOk k a) Action.run)
      (Scheduler.start k₀ .ok) actions k) : k.Deferred := by
  have hk₀ : k₀.Waiting := hpre.invariant (fun _ _ _ h => h.step) (initWithConfig_waiting hinit)
  refine hrun.invariant (I := Deferred) ?_ hk₀.start
  rintro s a t hs ⟨⟨ha, hd⟩, rfl⟩
  exact hs.action ha hd

end Runs

/-- **The highest priority runs.**  After a successful initialisation and start, in every run of
actions whose nesting depth stays below `2 ^ 32`: unlocked, the current task is a ready one of
maximal priority; and no step from a locked state to a locked state changes the current task. -/
theorem highest_priority_runs {mem : Kernel} {config : Option Config} {idleStack : ℕ}
    (hinit : (initWithConfig mem config idleStack).2 = .ok) {calls : List Call} {k₀ k : Kernel}
    (hpre : Trace (Guarded Call.BeforeStart Call.run) (initWithConfig mem config idleStack).1 calls
      k₀)
    {actions : List Action}
    (hrun : Trace (Guarded (fun k a => Action.Allowed k a ∧ Action.DepthOk k a) Action.run)
      (Scheduler.start k₀ .ok) actions k) :
    (k.lockNesting = 0 → ∃ c, k.currentTcb = some c ∧ k.IsTop c) ∧
      Trace.AllSteps (Guarded (fun k a => Action.Allowed k a ∧ Action.DepthOk k a) Action.run)
        (fun s _ t => 0 < s.lockNesting → 0 < t.lockNesting → t.currentTcb = s.currentTcb)
        (Scheduler.start k₀ .ok) actions k := by
  refine ⟨fun hl => ((deferred_of_run hinit hpre hrun).unlocked hl).2, ?_⟩
  intro bs a cs s t _ h1 hR _
  have hs : s.Deferred := deferred_of_run hinit hpre h1
  obtain ⟨⟨ha, -⟩, rfl⟩ := hR
  exact fun _ hl => current_of_locked hs.toSettled ha hl

/-- A run through all of it: a task of higher priority is created under two nested locks, and runs
when the outer one is released. -/
theorem highest_priority_runs_nested :
    ∃ k, Trace (Guarded (fun k a => Action.Allowed k a ∧ Action.DepthOk k a) Action.run)
        (Scheduler.start ([.create (.ofPriority 1) 1].foldl Call.run (initWithConfig bss none 0).1)
          .ok)
        [.call .lock, .call .lock, .call (.create (.ofPriority 2) 2), .call .unlock, .call .unlock]
        k ∧
      k.lockNesting = 0 ∧ k.currentTcb = some 2 ∧ k.IsTop 2 := by
  have hpre : Guards Call.BeforeStart Call.run (initWithConfig bss none 0).1
      [.create (.ofPriority 1) 1] := by decide +kernel
  have hrun : Guards (fun k a => Action.Allowed k a ∧ Action.DepthOk k a) Action.run
      (Scheduler.start ([.create (.ofPriority 1) 1].foldl Call.run (initWithConfig bss none 0).1)
        .ok)
      [.call .lock, .call .lock, .call (.create (.ofPriority 2) 2), .call .unlock,
        .call .unlock] := by decide +kernel
  refine ⟨_, Trace.of_guards hrun, by decide +kernel, by decide +kernel, ?_⟩
  obtain ⟨c, hc, htop⟩ := (highest_priority_runs (by decide) (Trace.of_guards hpre)
    (Trace.of_guards hrun)).1 (by decide +kernel)
  obtain rfl : c = 2 := Option.some_inj.1 (hc.symm.trans (by decide +kernel))
  exact htop

/-- Locking over and over only moves the counter. -/
theorem trace_replicate_lock (n : ℕ) (k : Kernel) (hk : k.lockNesting < 2 ^ 32) :
    Trace (Guarded Action.Allowed Action.run) k (List.replicate n (.call .lock))
      { k with lockNesting := (k.lockNesting + n) % 2 ^ 32 } := by
  induction n generalizing k with
  | zero =>
    rw [Nat.add_zero, Nat.mod_eq_of_lt hk]
    exact .nil k
  | succ n ih =>
    rw [List.replicate_succ]
    refine .cons ⟨trivial, rfl⟩ ?_
    have h := ih (Scheduler.lock k) (Nat.mod_lt _ (by decide))
    have hsum : ((Scheduler.lock k).lockNesting + n) % 2 ^ 32
        = (k.lockNesting + (n + 1)) % 2 ^ 32 := by
      rw [Scheduler.lock, Nat.mod_add_mod]
      congr 1
      omega
    rw [hsum] at h
    exact h

theorem not_currentTop_of_lt {u : TaskId} (hc : k.currentTcb = some c) (hu : k.Ready u)
    (hlt : (k.tcb c).priority < (k.tcb u).priority) : ¬ k.CurrentTop := by
  rintro ⟨d, hd, htop⟩
  obtain rfl := Option.some_inj.1 (hc.symm.trans hd)
  exact absurd (htop.max u hu) (by omega)

theorem not_currentTop_of_blocked (hc : k.currentTcb = some c)
    (hb : (k.tcb c).state = .blocked) : ¬ k.CurrentTop := by
  rintro ⟨d, hd, htop⟩
  obtain rfl := Option.some_inj.1 (hc.symm.trans hd)
  exact TaskState.ne_blocked_of_isReady htop.ready.2 hb

/-- **Two ways to lose a preemption.**  Locking `2 ^ 32` times wraps the nesting count to zero while
a task of higher priority waits for the unlock; and without an Idle task, after an initialisation
that failed, a blocked task can stay the current one. -/
theorem preemption_lost_by_wrap :
    (∃ actions k, Trace (Guarded Action.Allowed Action.run)
        (Scheduler.start ([.create (.ofPriority 1) 1].foldl Call.run (initWithConfig bss none 0).1)
          .ok) actions k ∧
      k.lockNesting = 0 ∧ ¬ k.CurrentTop) ∧
    (∃ actions k, Trace (Guarded Action.Allowed Action.run)
        (Scheduler.start ([.create (.ofPriority 1) 1, .create (.ofPriority 0) 2].foldl Call.run
          (initWithConfig bss (some misalignedIdle) 0).1) .ok) actions k ∧
      k.lockNesting = 0 ∧ ¬ k.CurrentTop) := by
  constructor
  · have htwo : Guards Action.Allowed Action.run
        (Scheduler.start ([.create (.ofPriority 1) 1].foldl Call.run (initWithConfig bss none 0).1)
          .ok) [.call .lock, .call (.create (.ofPriority 2) 2)] := by decide +kernel
    have h := (Trace.of_guards htwo).append
      (trace_replicate_lock (2 ^ 32 - 1) _ (by decide +kernel))
    refine ⟨_, _, h, ?_, ?_⟩
    · decide +kernel
    · refine not_currentTop_of_lt (c := 1) (u := 2) ?_ ⟨?_, ?_⟩ ?_ <;> decide +kernel
  · refine ⟨[.call (.delay 1), .call (.block (.sem 0) waitForever), .call .tick, .call (.delay 5),
      .signal (.sem 0)], _, Trace.of_guards (by decide +kernel), by decide +kernel, ?_⟩
    exact not_currentTop_of_blocked (c := 1) (by decide +kernel) (by decide +kernel)

end Kernel

end Sertos
