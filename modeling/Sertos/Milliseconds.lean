import Sertos.Expiry

/-!
# Delays in milliseconds

`sertos_scheduler_delay_ms` rounds the number of ticks up, so that a delay is not shortened by the
rounding.  The product is computed in 64 bits, where it always fits, but the number of ticks is then
cut to the 32 bits of a `SertosTick`.

A span of `n` ticks lasts `n / rate` seconds.  `delayMs_long_enough_iff` says that a delay is long
enough exactly if the number of ticks it takes is a `SertosTick`; beyond that it can be as short as
a plain yield.
-/

set_option autoImplicit false

namespace Sertos

open Intrusive Lts Scheduler

/-! ## The conversion -/

section Conversion

variable {ms rate : ℕ}

/-- The product and the sum fit in 64 bits: only the last conversion can cut anything off. -/
theorem msToTicks_eq (hms : ms < 2 ^ 32) (hrate : rate < 2 ^ 32) :
    msToTicks rate ms = (ms * rate + 999) / 1000 % 2 ^ 32 := by
  have hprod : ms * rate ≤ (2 ^ 32 - 1) * (2 ^ 32 - 1) := Nat.mul_le_mul (by omega) (by omega)
  rw [msToTicks, Nat.mod_eq_of_lt (show ms * rate < 2 ^ 64 by omega),
    Nat.mod_eq_of_lt (show ms * rate + 999 < 2 ^ 64 by omega)]

/-- The ticks last as long as the milliseconds exactly if their number is a `SertosTick`. -/
theorem le_msToTicks_iff (hms : ms < 2 ^ 32) (hrate : rate < 2 ^ 32) :
    ms * rate ≤ msToTicks rate ms * 1000 ↔ ms * rate ≤ 1000 * (2 ^ 32 - 1) := by
  rw [msToTicks_eq hms hrate, show 1000 * (2 ^ 32 - 1) = 4294967295000 from rfl]
  generalize ms * rate = product
  constructor
  · intro hle
    have hlt : (product + 999) / 1000 % 2 ^ 32 < 2 ^ 32 := Nat.mod_lt _ (by decide)
    omega
  · intro hle
    rw [Nat.mod_eq_of_lt (by omega)]
    omega

theorem one_le_msToTicks (hms : 0 < ms) (hrate : 0 < rate)
    (h : ms * rate ≤ msToTicks rate ms * 1000) : 1 ≤ msToTicks rate ms := by
  have hpos : 0 < ms * rate := Nat.mul_pos hms hrate
  omega

end Conversion

/-! ## The tick rate -/

section TickRate

variable {k k' : Kernel} {a : Call}

theorem processTimeSlicing_tickRateHz (k : Kernel) :
    (processTimeSlicing k).tickRateHz = k.tickRateHz := by
  rw [processTimeSlicing]
  split
  · dsimp only
    split <;> rfl
  · rfl

theorem switchContext_tickRateHz (k : Kernel) : (switchContext k).tickRateHz = k.tickRateHz := by
  rw [switchContext]
  split
  · rfl
  · split
    · rfl
    · split
      · rfl
      · rw [performSwitch]
        split
        · rfl
        · rw [dispatch_frame]

namespace Kernel

theorem foldl_countDown_tickRateHz (l : List TaskId) :
    (l.foldl countDown k).tickRateHz = k.tickRateHz := by
  induction l generalizing k with
  | nil => rfl
  | cons t l ih =>
    rw [List.foldl_cons, ih, countDown]
    split <;> rfl

end Kernel

namespace Call

theorem Effect.tickRateHz (he : Effect k a k') (h : k.Settled) : k'.tickRateHz = k.tickRateHz := by
  cases he with
  | tick =>
    rw [Kernel.tickSection_eq h.toInv, processTimeSlicing_tickRateHz]
    exact Kernel.foldl_countDown_tickRateHz _
  | rotate => exact processTimeSlicing_tickRateHz k
  | unlock =>
    rw [unlockSection]
    split
    · split <;> rfl
    · rfl
  | _ => rfl

/-- The tick rate is configured once and for all. -/
theorem run_tickRateHz (h : k.Settled) (ha : a.Allowed k) :
    (a.run k).tickRateHz = k.tickRateHz := by
  have he := critical_effect h ha
  rw [← he.tickRateHz h]
  rcases run_cases k a with e | e | e | ⟨s, -, e⟩ <;> rw [e]
  · exact switchContext_tickRateHz _
  · rcases reschedule_cases (he.inv h).lists with e' | ⟨e', -⟩ <;> rw [e']
    exact switchContext_tickRateHz _
  · rw [performSwitch]
    split
    · rfl
    · rw [dispatch_frame]

end Call

theorem Kernel.Unlocked.run_tickRateHz {calls : List Call} (h : k.Unlocked)
    (hrun : Trace Call.UnlockedStep k calls k') : k'.tickRateHz = k.tickRateHz := by
  induction hrun with
  | nil k => rfl
  | cons hstep _ ih =>
    rw [ih (h.step hstep), hstep.2]
    exact Call.run_tickRateHz h.toSettled hstep.1.1

end TickRate

/-! ## The delay -/

namespace Kernel

variable {k₀ : Kernel} {t : TaskId} {ms : ℕ}

/-- After `sertos_scheduler_delay_ms(ms)` the task `t`, which called it, is blocked as long as less
than `ms` milliseconds' worth of ticks have come. -/
def DelaysFor (ms : ℕ) (t : TaskId) (k₀ : Kernel) : Prop :=
  ∀ calls k, Trace Call.UnlockedStep (delayMs k₀ ms).1 calls k →
    calls.count .tick * 1000 < ms * getTickRateHz k₀ → (k.tcb t).state = .blocked

theorem delayMs_eq_run (hms : ms ≠ 0) :
    (delayMs k₀ ms).1 = (Call.delay (msToTicks (getTickRateHz k₀) ms)).run k₀ := by
  rw [delayMs, if_neg hms]
  rfl

/-- Any number of ticks can come. -/
theorem exists_ticks (k : Kernel) (n : ℕ) :
    Trace Call.UnlockedStep k (.replicate n .tick)
      ((List.replicate n Call.tick).foldl Call.run k) := by
  refine Trace.of_guards ?_
  induction n generalizing k with
  | zero => trivial
  | succ n ih => exact ⟨⟨trivial, id⟩, ih _⟩

/-- After a delay of `n` ticks, and as many ticks, the task is ready. -/
theorem Unlocked.ready_after_delay (h₀ : k₀.Unlocked) (hrunning : k₀.isRunning = true)
    (ht : k₀.currentTcb = some t) {n : ℕ} (hn : Call.Unlocked k₀ (.delay n)) :
    ((List.replicate n Call.tick).foldl Call.run ((Call.delay n).run k₀)).Ready t := by
  cases n with
  | zero =>
    have he := Call.critical_effect h₀.toSettled hn.1
    exact (Call.run_switched (he.inv h₀.toSettled).lists).ready.2
      (he.ready h₀.toSettled (h₀.ready_current ht) fun hb => hb.1 rfl)
  | succ n =>
    rw [List.replicate_succ', List.foldl_append]
    have hends := h₀.delay_ends hrunning ht n.succ_pos ⟨hn, rfl⟩
      (exists_ticks ((Call.delay (n + 1)).run k₀) n) (by simp)
    exact (hends.2 _ ⟨⟨trivial, id⟩, rfl⟩ (by simp)).2

/-- A delay in milliseconds lasts for the number of ticks it has been converted to, and no
longer. -/
theorem Unlocked.delaysFor_iff (h₀ : k₀.Unlocked) (hrunning : k₀.isRunning = true)
    (ht : k₀.currentTcb = some t) (htask : t ≠ idleTcb) (hms : ms ≠ 0) :
    DelaysFor ms t k₀ ↔
      ms * getTickRateHz k₀ ≤ msToTicks (getTickRateHz k₀) ms * 1000 := by
  have hcall : Call.Unlocked k₀ (.delay (msToTicks (getTickRateHz k₀) ms)) := by
    refine ⟨fun _ hidle => htask ?_, id⟩
    exact Option.some_inj.1 (ht.symm.trans hidle)
  rw [DelaysFor, delayMs_eq_run hms]
  generalize msToTicks (getTickRateHz k₀) ms = n at hcall ⊢
  constructor
  · intro hdelays
    by_contra hshort
    have hready := h₀.ready_after_delay hrunning ht hcall
    refine TaskState.ne_blocked_of_isReady hready.2 (hdelays _ _ (exists_ticks _ n) ?_)
    rw [List.count_replicate_self]
    exact not_le.1 hshort
  · intro hlong calls k hrun hcount
    have hlt : calls.count .tick < n := by omega
    exact (h₀.delay_ends hrunning ht (Nat.zero_lt_of_lt hlt) ⟨hcall, rfl⟩ hrun hlt).1

end Kernel

/-- **When delays in milliseconds are long enough.**  The number of ticks is at least one, and lasts
as long as the milliseconds do, exactly if the product of milliseconds and tick rate is at most
`1000 * (2 ^ 32 - 1)`; and exactly then is a task that calls `sertos_scheduler_delay_ms`, in a run
with the scheduler unlocked, blocked for that long. -/
theorem delayMs_long_enough_iff {ms : ℕ} (hms : 0 < ms) (hms' : ms < 2 ^ 32) :
    (∀ rate, 0 < rate → rate < 2 ^ 32 →
      ((1 ≤ msToTicks rate ms ∧ ms * rate ≤ msToTicks rate ms * 1000) ↔
        ms * rate ≤ 1000 * (2 ^ 32 - 1))) ∧
    ∀ mem config idleStack pre k₀ t, (initWithConfig mem config idleStack).2 = .ok →
      (initWithConfig mem config idleStack).1.tickRateHz < 2 ^ 32 →
      Trace Call.UnlockedStep (initWithConfig mem config idleStack).1 pre k₀ →
      k₀.isRunning = true → k₀.currentTcb = some t → t ≠ idleTcb →
        (k₀.DelaysFor ms t ↔
          ms * getTickRateHz (initWithConfig mem config idleStack).1 ≤ 1000 * (2 ^ 32 - 1)) := by
  refine ⟨fun rate hrate hrate' => ?_, ?_⟩
  · rw [← le_msToTicks_iff hms' hrate']
    exact ⟨fun h => h.2, fun h => ⟨one_le_msToTicks hms hrate h, h⟩⟩
  · intro mem config idleStack pre k₀ t hinit hrate hpre hrunning ht htask
    have hinit' := Kernel.initWithConfig_unlocked hinit
    have h₀ : k₀.Unlocked := hpre.invariant (fun _ _ _ => Kernel.Unlocked.step) hinit'
    have hsame : getTickRateHz k₀ = getTickRateHz (initWithConfig mem config idleStack).1 := by
      rw [getTickRateHz, hinit'.run_tickRateHz hpre, getTickRateHz]
    have hrate' : getTickRateHz (initWithConfig mem config idleStack).1 < 2 ^ 32 := by
      rw [getTickRateHz]
      split
      · exact hrate
      · decide
    rw [h₀.delaysFor_iff hrunning ht htask hms.ne', hsame]
    exact le_msToTicks_iff hms' hrate'

/-- A configuration with 4000 ticks per second. -/
def fastConfig : Config := ⟨4000, true, none, 0, false⟩

/-- Task 1 runs on a kernel with 4000 ticks per second. -/
def fastTask : Kernel :=
  ([.create (.ofPriority 1) 1, .start .ok] : List Call).foldl Call.run
    (initWithConfig bss (some fastConfig) 0).1

theorem fastTask_run : Trace Call.UnlockedStep (initWithConfig bss (some fastConfig) 0).1
    [.create (.ofPriority 1) 1, .start .ok] fastTask :=
  Trace.of_guards (by decide +kernel)

/-- One millisecond is one tick at the default rate, and at 4000 ticks per second task 1 sleeps for
a millisecond. -/
theorem delayMs_long_enough_iff_one :
    (1 ≤ msToTicks 1000 1 ∧ 1 * 1000 ≤ msToTicks 1000 1 * 1000) ∧ fastTask.DelaysFor 1 1 :=
  have h := delayMs_long_enough_iff (show 0 < 1 by decide) (by decide)
  ⟨(h.1 1000 (by decide) (by decide)).2 (by decide),
    (h.2 bss (some fastConfig) 0 _ fastTask 1 (by decide +kernel) (by decide +kernel) fastTask_run
      (by decide +kernel) (by decide +kernel) (by decide)).2 (by decide +kernel)⟩

/-- **A delay of twelve days that is a plain yield.**  At 4000 ticks per second, `2 ^ 30`
milliseconds are `2 ^ 32` ticks, which a `SertosTick` holds as zero. -/
theorem delayMs_too_short :
    msToTicks 4000 (2 ^ 30) = 0 ∧ delayMs fastTask (2 ^ 30) = (yield fastTask, .ok) ∧
      ¬ fastTask.DelaysFor (2 ^ 30) 1 := by
  have hrate : getTickRateHz fastTask = 4000 := by decide +kernel
  have hzero : msToTicks 4000 (2 ^ 30) = 0 := by decide
  refine ⟨hzero, ?_, ?_⟩
  · rw [delayMs, hrate, hzero]
    rfl
  · have h₀ : fastTask.Unlocked := fastTask_run.invariant (fun _ _ _ => Kernel.Unlocked.step)
      (Kernel.initWithConfig_unlocked (by decide +kernel))
    rw [h₀.delaysFor_iff (by decide +kernel) (by decide +kernel) (by decide) (by decide), hrate,
      hzero]
    decide

end Sertos
