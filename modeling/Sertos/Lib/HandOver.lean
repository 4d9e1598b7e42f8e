import Mathlib.Data.Int.Basic
import Mathlib.Data.List.Count
import Mathlib.Tactic.Common
import Sertos.Lib.Trace

/-!
# A recursive lock with direct hand-over

The abstract lock that a recursive mutex with a queue of waiters implements.  It is free, held by
one thread, or already promised to a waiter that has not yet noticed: a release may pass the lock
on to a waiter directly, and the lock belongs to that waiter from then on.

What can be observed are the calls that succeed, `Event.locked` and `Event.unlocked`; how often a
thread holds the lock is the difference of the two counts (`holdDepth`).  The state of the lock
agrees with this count along every trace, so at most one thread holds the lock (`Holder.depth` is
positive for one thread only), and a promised lock goes to nobody else before the waiter has taken
and released it (`handed_locked_first`).
-/

set_option autoImplicit false

namespace HandOver

open Lts

variable {τ : Type*} [DecidableEq τ]

/-- Who has the lock. -/
inductive Holder (τ : Type*)
  | free
  /-- The thread has locked it once, and then `again` more times. -/
  | held (t : τ) (again : ℕ)
  /-- A release has passed it on to a thread that is still waiting. -/
  | handed (t : τ)
deriving DecidableEq, Repr

/-- What is seen of a step. -/
inductive Event (τ : Type*)
  | locked (t : τ)
  | unlocked (t : τ)
  /-- No call of the lock succeeds in this step. -/
  | other
deriving DecidableEq, Repr

/-- The successful locks of a thread minus its successful unlocks. -/
def holdDepth (es : List (Event τ)) (t : τ) : ℤ := es.count (.locked t) - es.count (.unlocked t)

theorem holdDepth_append (es fs : List (Event τ)) (t : τ) :
    holdDepth (es ++ fs) t = holdDepth es t + holdDepth fs t := by
  simp only [holdDepth, List.count_append]
  omega

namespace Holder

/-- How often a thread holds the lock. -/
def depth : Holder τ → τ → ℤ
  | .held t again, u => if u = t then again + 1 else 0
  | _, _ => 0

/-- The thread has the lock, or has been promised it. -/
def Of (w : τ) : Holder τ → Prop
  | .free => False
  | .held t _ => t = w
  | .handed t => t = w

/-- The steps of the lock. -/
inductive Step : Holder τ → Event τ → Holder τ → Prop
  | other (h : Holder τ) : Step h .other h
  | acquire (t : τ) : Step .free (.locked t) (.held t 0)
  | again (t : τ) (n : ℕ) : Step (.held t n) (.locked t) (.held t (n + 1))
  /-- The waiter notices that it has been given the lock. -/
  | accept (t : τ) : Step (.handed t) (.locked t) (.held t 0)
  | leave (t : τ) (n : ℕ) : Step (.held t (n + 1)) (.unlocked t) (.held t n)
  | release (t : τ) : Step (.held t 0) (.unlocked t) .free
  | handOver (t w : τ) : Step (.held t 0) (.unlocked t) (.handed w)

variable {h h' : Holder τ} {e : Event τ} {es : List (Event τ)} {t u w : τ}

theorem of_depth_pos (ht : 0 < h.depth t) : ∃ n, h = .held t n ∧ h.depth t = n + 1 := by
  cases h with
  | held v n =>
    by_cases hv : t = v
    · subst hv
      exact ⟨n, rfl, by simp [depth]⟩
    · simp [depth, hv] at ht
  | _ => simp [depth] at ht

/-- One step changes the depths by what is seen of it. -/
theorem Step.depth (hs : Step h e h') (t : τ) : h'.depth t = h.depth t + holdDepth [e] t := by
  cases hs with
  | other => simp [holdDepth]
  | acquire v => by_cases hv : t = v <;> simp [Holder.depth, holdDepth, hv, Ne.symm]
  | again v n => by_cases hv : t = v <;> simp [Holder.depth, holdDepth, hv, Ne.symm]
  | accept v => by_cases hv : t = v <;> simp [Holder.depth, holdDepth, hv, Ne.symm]
  | leave v n =>
    by_cases hv : t = v
    · have hone : holdDepth [Event.unlocked v] v = -1 := by simp [holdDepth]
      rw [hv, hone]
      simp only [Holder.depth, if_true]
      omega
    · simp [Holder.depth, holdDepth, hv, Ne.symm]
  | release v => by_cases hv : t = v <;> simp [Holder.depth, holdDepth, hv, Ne.symm]
  | handOver v w => by_cases hv : t = v <;> simp [Holder.depth, holdDepth, hv, Ne.symm]

/-- **The state of the lock is what has been observed.** -/
theorem depth_of_trace (hs : Trace Step h es h') (t : τ) :
    h'.depth t = h.depth t + holdDepth es t := by
  induction hs with
  | nil _ => simp [holdDepth]
  | @cons h h₁ h₂ e es hstep _ ih =>
    have happend := holdDepth_append [e] es t
    rw [List.singleton_append] at happend
    have hdepth := hstep.depth t
    omega

omit [DecidableEq τ] in
/-- A lock succeeds only for the thread that has it or may take it. -/
theorem Step.of_locked (hs : Step h (.locked u) h') (hw : h.Of w) : u = w := by
  cases hs with
  | acquire => exact hw.elim
  | again _ n => exact hw
  | accept => exact hw

/-- Only a full release takes the lock from a thread. -/
theorem Step.of_lost (hs : Step h e h') (hw : h.Of w) (hw' : ¬ h'.Of w) :
    e = .unlocked w ∧ h.depth w = 1 := by
  cases hs with
  | other => exact absurd hw hw'
  | acquire => exact hw.elim
  | again => exact absurd hw hw'
  | accept => exact absurd hw hw'
  | leave => exact absurd hw hw'
  | release t =>
    obtain rfl : t = w := hw
    exact ⟨rfl, by simp [Holder.depth]⟩
  | handOver t =>
    obtain rfl : t = w := hw
    exact ⟨rfl, by simp [Holder.depth]⟩

/-- **A promised lock is taken and released first.**  Before another thread's lock succeeds, the
waiter's own lock has succeeded, and its last unlock has brought its depth back to zero. -/
theorem handed_locked_first (hs : Trace Step (.handed w) es h) (hstep : Step h (.locked u) h')
    (hu : u ≠ w) : ∃ fs gs, es = fs ++ .unlocked w :: gs ∧ .locked w ∈ fs ∧
      holdDepth (fs ++ [.unlocked w]) w = 0 := by
  have hlost : ¬ h.Of w := fun hw => hu (hstep.of_locked hw)
  obtain ⟨fs, e, gs, h₁, h₂, hsplit, h1, hR, -, hw, hw'⟩ :=
    hs.exists_step (P := Of w) (show Of w (.handed w) from rfl) hlost
  obtain ⟨rfl, hone⟩ := hR.of_lost hw hw'
  have hdepth : holdDepth fs w = 1 := by
    have := depth_of_trace h1 w
    rw [hone] at this
    simpa [depth] using this.symm
  refine ⟨fs, gs, hsplit, ?_, ?_⟩
  · by_contra hmem
    simp only [holdDepth, List.count_eq_zero.2 hmem] at hdepth
    omega
  · rw [holdDepth_append, hdepth]
    simp [holdDepth]

end Holder

end HandOver
