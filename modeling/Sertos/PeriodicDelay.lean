import Mathlib.Data.List.Induction
import Sertos.Expiry

/-!
# Periodic delays keep to their grid

`sertos_scheduler_delay_until` measures its delay from the previous wake time, in `uint32_t`
arithmetic.  Here the tick counter is followed in true time, which does not wrap: the variable
`last_wake_time` holds the previous deadline modulo `2 ^ 32`, and when the task makes its next call
that deadline has passed (`OnGrid`), because the task sleeps up to it.  So the distance the function
computes is the true distance as long as it fits into the counter, and the deadlines are
`t₀ + n * period` whatever happens between the calls.
-/

set_option autoImplicit false

namespace Sertos

open Intrusive Lts Scheduler

/-! ## The tick counter -/

namespace Kernel

variable {k : Kernel}

theorem foldl_countDown_systemTicks (l : List TaskId) :
    (l.foldl countDown k).systemTicks = k.systemTicks := by
  induction l generalizing k with
  | nil => rfl
  | cons t l ih =>
    rw [List.foldl_cons, ih, countDown]
    split <;> rfl

theorem systemTicks_switchContext (h : k.ListInv) :
    (Scheduler.switchContext k).systemTicks = k.systemTicks := by
  rcases switchContext_cases h with ⟨-, e⟩ | ⟨-, -, e⟩ | ⟨-, n, -, -, e⟩ | ⟨-, n, -, e⟩ <;> rw [e]
  rw [dispatch_frame]

theorem Settled.systemTicks_processTimeSlicing (h : k.Settled) :
    (Scheduler.processTimeSlicing k).systemTicks = k.systemTicks := by
  rcases processTimeSlicing_cases h.toInv fun c hc => h.ready_current hc with e | ⟨c, -, -, e⟩ <;>
    rw [e]
  rfl

end Kernel

/-- Only a tick advances the counter. -/
theorem Call.Effect.systemTicks {k k' : Kernel} {a : Call} (he : Call.Effect k a k')
    (h : k.Settled) : k'.systemTicks = k.systemTicks + if a = .tick then 1 else 0 := by
  cases he with
  | none a ha => simp [ha]
  | tick =>
    rw [Kernel.tickSection_eq h.toInv, if_pos rfl]
    rw [h.advance.systemTicks_processTimeSlicing]
    exact Kernel.foldl_countDown_systemTicks _
  | rotate ha =>
    rw [h.systemTicks_processTimeSlicing]
    rcases ha with rfl | rfl <;> simp
  | @park a c W ticks hb =>
    have ha : a ≠ .tick := by rintro rfl; exact hb.elim
    simp [Kernel.park, ha]
  | unlock =>
    rw [unlockSection]
    split
    · split <;> simp
    · simp
  | _ => rfl

theorem Call.run_systemTicks {k : Kernel} (h : k.Settled) {a : Call} (ha : a.Allowed k) :
    (a.run k).systemTicks = k.systemTicks + if a = .tick then 1 else 0 := by
  have he := Call.critical_effect h ha
  rw [← he.systemTicks h]
  rcases Call.run_cases k a with e | e | e | ⟨s, -, e⟩ <;> rw [e]
  · exact Kernel.systemTicks_switchContext (he.inv h).lists
  · rcases reschedule_cases (he.inv h).lists with e' | ⟨e', -⟩ <;> rw [e']
    exact Kernel.systemTicks_switchContext (he.inv h).lists
  · rw [performSwitch]
    split
    · rfl
    · rw [dispatch_frame]

/-! ## Runs of a periodic task -/

/-- The kernel, and the variable `last_wake_time` points to. -/
structure Periodic where
  kernel : Kernel
  lastWakeTime : Option ℕ

namespace Periodic

/-- A step: the periodic call of the task, or any scheduler call of any task. -/
inductive Op
  | delayUntil
  | call (a : Call)
deriving DecidableEq, Repr

def run (period : ℕ) (s : Periodic) : Op → Periodic
  | .delayUntil =>
    let r := Scheduler.delayUntil s.kernel s.lastWakeTime period
    ⟨r.1, r.2.1⟩
  | .call a => { s with kernel := a.run s.kernel }

/-- The periodic call is made by `t`, which is not the Idle task, while the scheduler runs. -/
def Allowed (t : TaskId) (s : Periodic) : Op → Prop
  | .delayUntil => s.kernel.isRunning = true ∧ s.kernel.currentTcb = some t ∧ t ≠ idleTcb
  | .call a => Call.Unlocked s.kernel a

instance (t : TaskId) (s : Periodic) : DecidablePred (Allowed t s)
  | .delayUntil => inferInstanceAs (Decidable (_ ∧ _))
  | .call a => inferInstanceAs (Decidable (Call.Unlocked s.kernel a))

abbrev Step (t : TaskId) (period : ℕ) : Periodic → Op → Periodic → Prop :=
  Guarded (Allowed t) (run period)

/-- The deadline of the `n`-th periodic call, in true time. -/
def deadline (t₀ period n : ℕ) : ℕ := t₀ + n * period

/-- At each periodic call of the run the task is less than `2 ^ 32 - period` ticks behind the
deadline of that call. -/
def LagBounded (t : TaskId) (period : ℕ) (s : Periodic) (ops : List Op) : Prop :=
  ∀ before after s', ops = before ++ .delayUntil :: after → Trace (Step t period) s before s' →
    s'.kernel.systemTicks <
      deadline s.kernel.systemTicks period (before.count .delayUntil + 1) + (2 ^ 32 - period)

variable {s s' : Periodic} {t : TaskId} {period d t₀ n : ℕ} {op : Op} {ops : List Op}

/-! ## One step -/

/-- The deadline `d` has passed, or `t` sleeps up to it. -/
def Until (t : TaskId) (d : ℕ) (k : Kernel) : Prop :=
  d ≤ k.systemTicks ∨ k.systemTicks < d ∧ k.Asleep t none (d - k.systemTicks)

/-- A task that sleeps does not run, so a running task is past its deadline. -/
theorem Until.of_current {k : Kernel} (hu : Until t d k) (h : k.Settled)
    (hc : k.currentTcb = some t) : d ≤ k.systemTicks := by
  rcases hu with hd | ⟨-, hs⟩
  · exact hd
  · exact absurd hs.blocked (TaskState.ne_blocked_of_isReady (h.ready_current hc).2)

theorem Until.call {k : Kernel} (hu : Until t d k) (h : k.Settled) {a : Call} (ha : a.Allowed k) :
    Until t d (a.run k) := by
  have hticks := Call.run_systemTicks h ha
  rcases hu with hd | ⟨hd, hs⟩
  · exact Or.inl (by omega)
  · rcases hs.step h ha with ⟨hne, hs'⟩ | ⟨⟨rfl, h1⟩ | ⟨V, hV, -⟩, -⟩
    · refine Or.inr ?_
      have hlt : (a.run k).systemTicks < d := by
        rw [hticks]
        split
        · rename_i htick
          have : ¬ d - k.systemTicks = 1 := fun h1 => hne (Or.inl ⟨htick, h1⟩)
          omega
        · omega
      refine ⟨hlt, ?_⟩
      rw [hticks, ← Nat.sub_sub]
      exact hs'
    · refine Or.inl ?_
      rw [hticks, if_pos rfl]
      omega
    · simp at hV

theorem run_delay (k : Kernel) (n : ℕ) : (Call.delay n).run k = (Scheduler.delay k n).1 := rfl

/-- To the kernel a periodic call is a delay or a yield, or it fails. -/
theorem delayUntil_cases (k : Kernel) (last : Option ℕ) (period : ℕ) :
    ∃ k' last' status, Scheduler.delayUntil k last period = (k', last', status) ∧
      (k' = k ∨ ∃ m, k' = (Call.delay m).run k) := by
  cases last with
  | none => exact ⟨_, _, _, rfl, Or.inl rfl⟩
  | some last =>
    rw [Scheduler.delayUntil]
    by_cases hp : period = 0
    · exact ⟨_, _, _, if_pos hp, Or.inl rfl⟩
    · rw [if_neg hp]
      -- how much time has passed does not matter here
      generalize (getTickCount k + 2 ^ 32 - last) % 2 ^ 32 = elapsed
      by_cases he : elapsed < period
      · exact ⟨_, _, _, if_pos he, Or.inr ⟨_, (run_delay k _).symm⟩⟩
      · refine ⟨_, _, _, if_neg he, Or.inr ⟨0, ?_⟩⟩
        rw [run_delay, delay, if_pos rfl]

/-- To the kernel a step is a scheduler call, or nothing. -/
theorem Step.kernel (h : Step t period s op s') :
    s'.kernel = s.kernel ∨ ∃ a, Call.UnlockedStep s.kernel a s'.kernel := by
  obtain ⟨ha, rfl⟩ := h
  cases op with
  | call a => exact Or.inr ⟨a, ha, rfl⟩
  | delayUntil =>
    obtain ⟨k', last', status, e, hk⟩ := delayUntil_cases s.kernel s.lastWakeTime period
    simp only [run, e]
    refine hk.imp_right fun ⟨m, hm⟩ => ⟨.delay m, ⟨fun _ hc => ?_, id⟩, hm⟩
    exact ha.2.2 (Option.some_inj.1 (ha.2.1.symm.trans hc))

theorem Until.step (hu : Until t d s.kernel) (h : s.kernel.Unlocked) (hs : Step t period s op s') :
    s'.kernel.Unlocked ∧ Until t d s'.kernel := by
  rcases Step.kernel hs with e | ⟨a, ha⟩
  · rw [e]; exact ⟨h, hu⟩
  · refine ⟨h.step ha, ?_⟩
    obtain ⟨ha, e⟩ := ha
    rw [e]
    exact hu.call h.toSettled ha.1

/-- **The distance the function computes is the true one**, as long as it fits into the counter. -/
theorem elapsed_eq {now last : ℕ} (h : last ≤ now) (h' : now < last + 2 ^ 32) :
    (now % 2 ^ 32 + 2 ^ 32 - last % 2 ^ 32) % 2 ^ 32 = now - last := by
  omega

/-- What the periodic call does when the previous deadline `d` has passed. -/
theorem delayUntil_eq {k : Kernel} (hp : 0 < period) (hd : d ≤ k.systemTicks)
    (hlag : k.systemTicks < d + 2 ^ 32) :
    Scheduler.delayUntil k (some (d % 2 ^ 32)) period =
      if k.systemTicks < d + period then
        ((Scheduler.delay k (d + period - k.systemTicks)).1, some ((d + period) % 2 ^ 32),
          (Scheduler.delay k (d + period - k.systemTicks)).2)
      else (Scheduler.yield k, some ((d + period) % 2 ^ 32), .ok) := by
  simp only [Scheduler.delayUntil, if_neg hp.ne', getTickCount, elapsed_eq hd hlag,
    Nat.mod_add_mod]
  by_cases h : k.systemTicks < d + period
  · rw [if_pos h, if_pos (by omega), show period - (k.systemTicks - d) = d + period - k.systemTicks
      by omega]
  · rw [if_neg h, if_neg (by omega)]

/-- The invariant of a run that began at `t₀`, after `n` periodic calls. -/
structure OnGrid (t : TaskId) (period t₀ n : ℕ) (s : Periodic) : Prop where
  unlocked : s.kernel.Unlocked
  lastWakeTime : s.lastWakeTime = some (deadline t₀ period n % 2 ^ 32)
  sleeps : Until t (deadline t₀ period n) s.kernel

theorem deadline_succ (t₀ period n : ℕ) :
    deadline t₀ period (n + 1) = deadline t₀ period n + period := by
  rw [deadline, deadline, Nat.succ_mul, Nat.add_assoc]

/-- What the periodic call does on the grid: it puts the task to sleep up to its deadline, or the
deadline has passed and the task stays ready. -/
theorem OnGrid.delayUntil (h : OnGrid t period t₀ n s) (hp : 0 < period) (hp' : period < 2 ^ 32)
    (ha : Allowed t s .delayUntil)
    (hlag : s.kernel.systemTicks < deadline t₀ period (n + 1) + (2 ^ 32 - period)) :
    OnGrid t period t₀ (n + 1) (run period s .delayUntil) ∧
    (run period s .delayUntil).kernel.systemTicks = s.kernel.systemTicks ∧
    (Scheduler.delayUntil s.kernel s.lastWakeTime period).2.2 = .ok ∧
    (deadline t₀ period (n + 1) ≤ s.kernel.systemTicks →
      (run period s .delayUntil).kernel.Ready t) := by
  obtain ⟨hrun, hcur, hidle⟩ := ha
  have hset := h.unlocked.toSettled
  have hd := h.sleeps.of_current hset hcur
  rw [deadline_succ] at hlag ⊢
  have e := delayUntil_eq (k := s.kernel) hp hd (by omega)
  rw [← h.lastWakeTime] at e
  simp only [run, e]
  by_cases hlt : s.kernel.systemTicks < deadline t₀ period n + period
  · -- the task goes to sleep
    simp only [if_pos hlt]
    set m := deadline t₀ period n + period - s.kernel.systemTicks with hm
    have hm0 : 0 < m := by omega
    have hal : (Call.delay m).Allowed s.kernel := fun _ hc => by
      rw [hcur, Option.some_inj] at hc
      exact hidle hc
    have hstep : Call.UnlockedStep s.kernel (.delay m) (Scheduler.delay s.kernel m).1 :=
      ⟨⟨hal, id⟩, rfl⟩
    have hticks : (Scheduler.delay s.kernel m).1.systemTicks = s.kernel.systemTicks :=
      Call.run_systemTicks hset hal
    refine ⟨⟨h.unlocked.step hstep, by rw [deadline_succ], ?_⟩, hticks, ?_, fun hle => ?_⟩
    · refine Or.inr ⟨by rw [hticks, deadline_succ]; exact hlt, ?_⟩
      rw [hticks, deadline_succ]
      exact hset.asleep_delay hrun hcur hm0
    · simp only [delay, if_neg hm0.ne', hrun, hcur]
    · omega
  · -- the deadline has passed
    simp only [if_neg hlt]
    have hstep : Call.UnlockedStep s.kernel .yield (Scheduler.yield s.kernel) :=
      ⟨⟨trivial, id⟩, rfl⟩
    have hticks : (Scheduler.yield s.kernel).systemTicks = s.kernel.systemTicks :=
      Call.run_systemTicks hset (a := .yield) trivial
    refine ⟨⟨h.unlocked.step hstep, by rw [deadline_succ], Or.inl ?_⟩, hticks, trivial,
      fun _ => ?_⟩
    · rw [hticks, deadline_succ]
      omega
    · have he := Call.critical_effect hset (a := .yield) trivial
      exact (Call.run_switched (he.inv hset).lists).ready.2
        (he.ready hset (hset.ready_current hcur) id)

theorem OnGrid.call (h : OnGrid t period t₀ n s) {a : Call} (ha : Call.Unlocked s.kernel a) :
    OnGrid t period t₀ n (run period s (.call a)) :=
  ⟨h.unlocked.step ⟨ha, rfl⟩, h.lastWakeTime, h.sleeps.call h.unlocked.toSettled ha.1⟩

/-! ## Runs -/

theorem LagBounded.of_append {ops' : List Op} (h : LagBounded t period s (ops ++ ops')) :
    LagBounded t period s ops :=
  fun before after s' hsplit => h before (after ++ ops') s' (by simp [hsplit])

/-- **After the `n`-th periodic call** the variable holds the `n`-th deadline. -/
theorem OnGrid.run {s₀ : Periodic} (h : OnGrid t period s₀.kernel.systemTicks 0 s₀)
    (hp : 0 < period) (hp' : period < 2 ^ 32) (hrun : Trace (Step t period) s₀ ops s)
    (hlag : LagBounded t period s₀ ops) :
    OnGrid t period s₀.kernel.systemTicks (ops.count .delayUntil) s := by
  induction ops using List.reverseRecOn generalizing s with
  | nil =>
    rw [Trace.nil_iff] at hrun
    exact hrun ▸ h
  | append_singleton ops op ih =>
    obtain ⟨r, hinit, hlast⟩ := Trace.append_iff.1 hrun
    obtain ⟨_, hstep, hnil⟩ := Trace.cons_iff.1 hlast
    obtain rfl := Trace.nil_iff.1 hnil
    have hr := ih hinit hlag.of_append
    obtain ⟨ha, rfl⟩ := hstep
    cases op with
    | delayUntil =>
      rw [List.count_append, List.count_singleton_self]
      exact (hr.delayUntil hp hp' ha (hlag ops [] r rfl hinit)).1
    | call a =>
      rw [List.count_append, List.count_singleton]
      exact hr.call ha

/-- **Periodic delays do not drift.**  A task `t` seeds `last_wake_time` with the tick count and
calls `sertos_scheduler_delay_until` with one period again and again, in any run with the scheduler
unlocked, never `2 ^ 32 - period` ticks or more behind.  After its `n`-th call the variable holds
the `n`-th deadline of the grid `t₀ + n * period`, modulo `2 ^ 32`.  Each call whose deadline is
still to come blocks the task up to the tick that reaches it, which makes the task ready; every
other call leaves it ready. -/
theorem periodic_delay_keeps_grid {mem : Kernel} {config : Option Config} {idleStack : ℕ}
    (hinit : (initWithConfig mem config idleStack).2 = .ok) {pre : List Call} {k₀ : Kernel}
    (hpre : Trace Call.UnlockedStep (initWithConfig mem config idleStack).1 pre k₀)
    (hp : 0 < period) (hp' : period < 2 ^ 32)
    (hrun : Trace (Step t period) ⟨k₀, some (getTickCount k₀)⟩ ops s)
    (hlag : LagBounded t period ⟨k₀, some (getTickCount k₀)⟩ ops) :
    s.lastWakeTime =
      some (deadline k₀.systemTicks period (ops.count .delayUntil) % 2 ^ 32) ∧
    ∀ before after s₁ s₂, ops = before ++ .delayUntil :: after →
      Trace (Step t period) ⟨k₀, some (getTickCount k₀)⟩ before s₁ →
      Step t period s₁ .delayUntil s₂ → Trace (Step t period) s₂ after s →
      ∀ d, d = deadline k₀.systemTicks period (before.count .delayUntil + 1) →
        (Scheduler.delayUntil s₁.kernel s₁.lastWakeTime period).2.2 = .ok ∧
        (d ≤ s₁.kernel.systemTicks → s₂.kernel.Ready t) ∧
        (s₁.kernel.systemTicks < d → s.kernel.systemTicks < d →
          (s.kernel.tcb t).state = .blocked ∧
          ∀ s₃, Step t period s (.call .tick) s₃ → s.kernel.systemTicks + 1 = d →
            ((tickSection s.kernel).1.tcb t).state = .ready ∧ s₃.kernel.Ready t) := by
  have hk₀ : k₀.Unlocked :=
    hpre.invariant (fun _ _ _ => Kernel.Unlocked.step) (Kernel.initWithConfig_unlocked hinit)
  have hstart : OnGrid t period k₀.systemTicks 0 ⟨k₀, some (getTickCount k₀)⟩ := by
    refine ⟨hk₀, ?_, Or.inl ?_⟩ <;> simp [deadline, getTickCount]
  refine ⟨(hstart.run hp hp' hrun hlag).lastWakeTime, ?_⟩
  rintro before after s₁ s₂ rfl h₁ ⟨ha, rfl⟩ h₂ d rfl
  have hs₁ := hstart.run hp hp' h₁ hlag.of_append
  obtain ⟨hs₂, hticks, hok, hready⟩ := hs₁.delayUntil hp hp' ha (hlag before after s₁ rfl h₁)
  refine ⟨hok, hready, fun hfuture hd => ?_⟩
  obtain ⟨hs, huntil⟩ := h₂.invariant
    (I := fun r => r.kernel.Unlocked ∧
      Until t (deadline k₀.systemTicks period (before.count .delayUntil + 1)) r.kernel)
    (fun _ _ _ hr hstep => hr.2.step hr.1 hstep) ⟨hs₂.unlocked, hs₂.sleeps⟩
  obtain ⟨-, hasleep⟩ := huntil.resolve_left (by omega)
  refine ⟨hasleep.blocked, fun s₃ htick hlast => ?_⟩
  obtain ⟨htick, rfl⟩ := htick
  -- the deadline is one tick away
  rcases hasleep.step hs.toSettled htick.1 with ⟨hne, -⟩ | ⟨-, hst, hr⟩
  · exact absurd (Or.inl ⟨rfl, by omega⟩) hne
  · exact ⟨hst, hr⟩

/-- Task 1 has seeded its variable. -/
def seeded : Periodic := ⟨Kernel.oneTask, some (getTickCount Kernel.oneTask)⟩

/-- Task 1 calls with period 3 one tick late: it sleeps through the second tick and is ready after
the third. -/
theorem periodic_delay_keeps_grid_three :
    (([.call .tick, .delayUntil, .call .tick] : List Op).foldl (run 3) seeded).lastWakeTime
      = some 3 ∧
    ((([.call .tick, .delayUntil, .call .tick] : List Op).foldl (run 3) seeded).kernel.tcb 1).state
      = .blocked ∧
    (([.call .tick, .delayUntil, .call .tick, .call .tick] : List Op).foldl (run 3)
      seeded).kernel.Ready 1 := by
  have hpre : Trace Call.UnlockedStep (initWithConfig bss none 0).1
      [.create (.ofPriority 1) 1, .start .ok] Kernel.oneTask :=
    Trace.of_guards (by decide +kernel)
  have hbefore : Trace (Step 1 3) seeded [.call .tick]
      (([.call .tick] : List Op).foldl (run 3) seeded) := Trace.of_guards (by decide +kernel)
  have hafter : Trace (Step 1 3)
      (([.call .tick, .delayUntil] : List Op).foldl (run 3) seeded) [.call .tick]
      (([.call .tick, .delayUntil, .call .tick] : List Op).foldl (run 3) seeded) :=
    Trace.of_guards (by decide +kernel)
  have hcall : Step 1 3 (([.call .tick] : List Op).foldl (run 3) seeded) .delayUntil
      (([.call .tick, .delayUntil] : List Op).foldl (run 3) seeded) := ⟨by decide +kernel, rfl⟩
  have hlag : LagBounded 1 3 seeded [.call .tick, .delayUntil, .call .tick] := by
    intro before after s' hsplit h
    obtain rfl : before = [.call .tick] := by
      rcases before with _ | ⟨a, _ | ⟨b, _ | ⟨c, before⟩⟩⟩ <;> simp_all
    rw [h.eq_foldl]
    decide +kernel
  obtain ⟨hlast, h⟩ := periodic_delay_keeps_grid (t := 1) (by decide) hpre (by decide) (by decide)
    (hbefore.append (.cons hcall hafter)) hlag
  obtain ⟨-, -, h⟩ := h [.call .tick] [.call .tick] _ _ rfl hbefore hcall hafter 3
    (by decide +kernel)
  obtain ⟨hblocked, h⟩ := h (by decide +kernel) (by decide +kernel)
  exact ⟨hlast, hblocked, (h _ ⟨by decide +kernel, rfl⟩ (by decide +kernel)).2⟩

end Periodic

end Sertos
