import Mathlib.Algebra.Order.Ring.Nat
import Mathlib.Algebra.BigOperators.Group.List.Basic
import Mathlib.Tactic.Ring

/-!
# Shares of a total, rounded down

What part of a total each of several amounts makes up, in units of `1 / scale`, each share rounded
down on its own.  The shares of amounts that add up to the total come to at most `scale`
(`sum_share_le`), and fall short of it by less than one for each of them
(`lt_sum_share_add_length`).

A share is usually computed in a word of some width, where the product can wrap around.
`mod_div_eq_div_iff` says that it must not: a product that wraps is never divided to the right
share.
-/

set_option autoImplicit false

namespace Shares

variable {scale total amount : ℕ} {amounts : List ℕ}

/-- The share of `amount` in `total`. -/
def share (scale total amount : ℕ) : ℕ := amount * scale / total

theorem share_le (h : amount ≤ total) : share scale total amount ≤ scale := by
  refine Nat.div_le_of_le_mul ?_
  exact Nat.mul_le_mul_right scale h

theorem sum_share_mul_le (scale total : ℕ) (amounts : List ℕ) :
    (amounts.map (share scale total)).sum * total ≤ amounts.sum * scale := by
  induction amounts with
  | nil => simp
  | cons amount amounts ih =>
    have hfloor : share scale total amount * total ≤ amount * scale := Nat.div_mul_le_self _ _
    rw [List.map_cons, List.sum_cons, List.sum_cons, Nat.add_mul, Nat.add_mul]
    exact Nat.add_le_add hfloor ih

/-- Rounding takes less than one from each share. -/
theorem sum_mul_le_sum_share (scale : ℕ) (htotal : 0 < total) (amounts : List ℕ) :
    amounts.sum * scale + amounts.length ≤
      ((amounts.map (share scale total)).sum + amounts.length) * total := by
  induction amounts with
  | nil => simp
  | cons amount amounts ih =>
    have hfloor : amount * scale < (share scale total amount + 1) * total := by
      rw [Nat.mul_comm _ total]
      exact Nat.lt_mul_div_succ _ htotal
    rw [List.map_cons, List.sum_cons, List.sum_cons, List.length_cons, Nat.add_mul]
    calc amount * scale + amounts.sum * scale + (amounts.length + 1)
        = (amount * scale + 1) + (amounts.sum * scale + amounts.length) := by ring
      _ ≤ (share scale total amount + 1) * total +
          ((amounts.map (share scale total)).sum + amounts.length) * total :=
        Nat.add_le_add hfloor ih
      _ = _ := by ring

/-- Shares of amounts within the total come to at most the whole. -/
theorem sum_share_le (htotal : 0 < total) (h : amounts.sum ≤ total) :
    (amounts.map (share scale total)).sum ≤ scale := by
  refine Nat.le_of_mul_le_mul_right ?_ htotal
  rw [Nat.mul_comm scale]
  exact (sum_share_mul_le scale total amounts).trans (Nat.mul_le_mul_right scale h)

/-- The shares of all the amounts fall short of the whole by less than their number. -/
theorem lt_sum_share_add_length (scale : ℕ) (hne : amounts ≠ []) (htotal : 0 < total)
    (h : total ≤ amounts.sum) : scale < (amounts.map (share scale total)).sum + amounts.length := by
  have hpos : 0 < amounts.length := List.length_pos_of_ne_nil hne
  have hle := sum_mul_le_sum_share scale htotal amounts
  have hscale : total * scale ≤ amounts.sum * scale := Nat.mul_le_mul_right scale h
  refine Nat.lt_of_mul_lt_mul_right (a := total) ?_
  rw [Nat.mul_comm scale]
  omega

/-- **A product that wraps around is not divided to the right share.** -/
theorem mod_div_eq_div_iff {product modulus : ℕ} (htotal : 0 < total) (h : total ≤ modulus) :
    product % modulus / total = product / total ↔ product < modulus := by
  refine ⟨fun heq => ?_, fun hlt => by rw [Nat.mod_eq_of_lt hlt]⟩
  by_contra hwraps
  have hle : product % modulus + total ≤ product := by
    have hsub := Nat.mod_le (product - modulus) modulus
    rw [← Nat.mod_eq_sub_mod (not_lt.1 hwraps)] at hsub
    omega
  have hdiv : product % modulus / total + 1 ≤ product / total := by
    rw [← Nat.add_div_right _ htotal]
    exact Nat.div_le_div_right hle
  omega

end Shares
