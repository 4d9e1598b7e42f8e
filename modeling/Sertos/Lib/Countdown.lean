import Mathlib.Logic.Function.Iterate
import Mathlib.Tactic.Common

/-!
# Countdowns

A `Countdown` is the clockwork of a software timer or of a timeout: armed with a period it is
lowered by every tick, and *fires* on the tick that brings it to zero.  A periodic one is
reloaded then, a one-shot is switched off.

The two facts that everything rests on are about ticks alone.  A periodic countdown armed with
`p` fires on the `j`-th tick exactly if `p` divides `j` (`fires_periodic`); a one-shot fires on the
`p`-th tick and on no other, and is off from then on (`fires_oneShot`, `active_oneShot`).
-/

set_option autoImplicit false

/-- The state of one countdown. -/
@[ext] structure Countdown where
  period : ℕ
  remaining : ℕ
  periodic : Bool
  active : Bool
deriving DecidableEq, Repr

namespace Countdown

variable {c : Countdown} {j : ℕ}

/-- The next tick brings the countdown to zero. -/
def due (c : Countdown) : Bool := c.active && decide (c.remaining ≤ 1)

/-- One tick. -/
def tick (c : Countdown) : Countdown :=
  if c.due then
    if c.periodic then { c with remaining := c.period }
    else { c with remaining := 0, active := false }
  else if c.active then { c with remaining := c.remaining - 1 }
  else c

/-- The state after `j` ticks. -/
def after (c : Countdown) (j : ℕ) : Countdown := tick^[j] c

/-- The countdown fires on the `j`-th tick from now. -/
def Fires (c : Countdown) (j : ℕ) : Prop := 0 < j ∧ (c.after (j - 1)).due = true

instance (c : Countdown) (j : ℕ) : Decidable (c.Fires j) := inferInstanceAs (Decidable (_ ∧ _))

/-- The countdown has just been armed: all of its period is still to come. -/
structure Armed (c : Countdown) : Prop where
  active : c.active = true
  remaining : c.remaining = c.period
  period_pos : 0 < c.period

@[simp] theorem after_zero (c : Countdown) : c.after 0 = c := rfl

theorem after_succ (c : Countdown) (j : ℕ) : c.after (j + 1) = (c.after j).tick :=
  Function.iterate_succ_apply' tick j c

theorem after_after (c : Countdown) (i j : ℕ) : (c.after i).after j = c.after (i + j) := by
  rw [after, after, after, ← Function.iterate_add_apply, Nat.add_comm]

theorem tick_of_inactive (h : c.active = false) : c.tick = c := by simp [tick, due, h]

/-! ## Periodic countdowns -/

/-- How far a periodic countdown is into its period. -/
theorem after_periodic (h : c.Armed) (hp : c.periodic = true) (j : ℕ) :
    c.after j = { c with remaining := c.period - j % c.period } := by
  have hpos := h.period_pos
  induction j with
  | zero =>
    ext <;> simp [h.remaining]
  | succ j ih =>
    rw [after_succ, ih]
    have hlt := Nat.mod_lt j hpos
    by_cases hd : c.period - j % c.period ≤ 1
    · -- the period is over, and the next one starts
      have hmod : (j + 1) % c.period = 0 := by
        rw [Nat.add_mod, show j % c.period = c.period - 1 by omega]
        rcases Nat.lt_or_ge 1 c.period with h1 | h1
        · rw [Nat.mod_eq_of_lt h1, Nat.sub_add_cancel hpos, Nat.mod_self]
        · rw [show c.period = 1 by omega, Nat.mod_one]
      simp [tick, due, h.active, hp, hd, hmod]
    · have hmod : (j + 1) % c.period = j % c.period + 1 := by
        rw [Nat.add_mod, Nat.mod_eq_of_lt (a := 1) (by omega), Nat.mod_eq_of_lt (by omega)]
      simp [tick, due, h.active, hd, hmod]
      omega

/-- **A periodic countdown fires on the multiples of its period.** -/
theorem fires_periodic (h : c.Armed) (hp : c.periodic = true) :
    c.Fires j ↔ 0 < j ∧ c.period ∣ j := by
  refine and_congr_right fun hj => ?_
  have hpos := h.period_pos
  have hlt := Nat.mod_lt (j - 1) hpos
  rw [after_periodic h hp, Nat.dvd_iff_mod_eq_zero]
  simp only [due, h.active, Bool.true_and, decide_eq_true_eq]
  obtain ⟨i, rfl⟩ : ∃ i, j = i + 1 := ⟨j - 1, by omega⟩
  rw [Nat.add_sub_cancel] at hlt ⊢
  rcases Nat.lt_or_ge (i % c.period + 1) c.period with h1 | h1
  · rw [Nat.add_mod, Nat.mod_eq_of_lt (a := 1) (by omega), Nat.mod_eq_of_lt h1]
    omega
  · refine ⟨fun _ => ?_, fun _ => by omega⟩
    rw [← Nat.mod_add_mod, show i % c.period + 1 = c.period by omega, Nat.mod_self]

/-! ## One-shot countdowns -/

/-- A one-shot counts down until its period is over and is off afterwards. -/
theorem after_oneShot (h : c.Armed) (hp : c.periodic = false) (j : ℕ) :
    c.after j = { c with remaining := c.period - j, active := decide (j < c.period) } := by
  have hpos := h.period_pos
  induction j with
  | zero => ext <;> simp [h.remaining, h.active, hpos]
  | succ j ih =>
    rw [after_succ, ih]
    rcases Nat.lt_or_ge (j + 1) c.period with h1 | h1
    · have hj : j < c.period := by omega
      have hd : ¬ c.period - j ≤ 1 := by omega
      simp [tick, due, hj, h1, hd]
      omega
    · rcases Nat.lt_or_ge j c.period with h2 | h2
      · have hd : c.period - j ≤ 1 := by omega
        simp [tick, due, hp, h2, hd, Nat.not_lt.2 h1]
        omega
      · simp [tick, due, Nat.not_lt.2 h1, Nat.not_lt.2 h2]
        omega

/-- **A one-shot fires once, when its period is over.** -/
theorem fires_oneShot (h : c.Armed) (hp : c.periodic = false) : c.Fires j ↔ j = c.period := by
  have hpos := h.period_pos
  rw [Fires, after_oneShot h hp]
  simp only [due, Bool.and_eq_true, decide_eq_true_eq]
  omega

theorem active_oneShot (h : c.Armed) (hp : c.periodic = false) :
    (c.after j).active = true ↔ j < c.period := by
  rw [after_oneShot h hp, decide_eq_true_eq]

end Countdown
