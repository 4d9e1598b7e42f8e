import Mathlib.Data.List.Basic
import Mathlib.Tactic.Common

/-!
# Wake-ups on the way

Tasks wait on a list for units of something: items, places, tokens.  Somebody who adds a unit takes
one task off the list, and that task will come for the unit later.  Until then it is *pending*: it
is still in its call, and no longer on the list.

`Covered W Pending n` says that, as long as somebody waits, each of the `n` units that are there is
on its way to a task: there are at least `n` pending tasks that are off the list.  It is what makes
one wake-up a unit enough: if nobody is on the way any more, then either nobody waits or there are
no units (`Covered.eq_zero`).
-/

set_option autoImplicit false

namespace WakeUps

variable {τ : Type*}

/-- If somebody waits on `W`, at least `n` tasks are pending and off `W`. -/
def Covered (W : List τ) (Pending : τ → Prop) (n : ℕ) : Prop :=
  ∃ woken : List τ, woken.Nodup ∧ (∀ t ∈ woken, Pending t ∧ t ∉ W) ∧ (W ≠ [] → n ≤ woken.length)

namespace Covered

variable {W W' : List τ} {P Q : τ → Prop} {n m : ℕ} {t : τ}

theorem zero (W : List τ) (P : τ → Prop) : Covered W P 0 :=
  ⟨[], List.nodup_nil, by simp, fun _ => Nat.zero_le _⟩

theorem nil (P : τ → Prop) (n : ℕ) : Covered [] P n :=
  ⟨[], List.nodup_nil, by simp, fun h => absurd rfl h⟩

/-- Tasks may leave the list, and units may be taken away. -/
theorem mono (h : Covered W P n) (hW : W' ⊆ W) (hP : ∀ t, P t → Q t) (hn : m ≤ n) :
    Covered W' Q m := by
  obtain ⟨woken, hnodup, hwoken, hlen⟩ := h
  refine ⟨woken, hnodup, fun t ht => ⟨hP t (hwoken t ht).1, ?_⟩, fun hne => ?_⟩
  · exact fun hm => (hwoken t ht).2 (hW hm)
  · have hne' : W ≠ [] := by
      rintro rfl
      exact hne (List.subset_nil.1 hW)
    exact Nat.le_trans hn (hlen hne')

/-- The unit that is added and the task that is woken for it. -/
theorem wake (h : Covered (t :: W) P n) (ht : P t) (hW : t ∉ W) : Covered W P (n + 1) := by
  obtain ⟨woken, hnodup, hwoken, hlen⟩ := h
  have htw : t ∉ woken := fun hm => (hwoken t hm).2 List.mem_cons_self
  refine ⟨t :: woken, List.nodup_cons.2 ⟨htw, hnodup⟩, fun u hu => ?_, fun _ => ?_⟩
  · rcases List.mem_cons.1 hu with rfl | hu
    · exact ⟨ht, hW⟩
    · exact ⟨(hwoken u hu).1, fun hm => (hwoken u hu).2 (List.mem_cons_of_mem _ hm)⟩
  · rw [List.length_cons]
    exact Nat.succ_le_succ (hlen (List.cons_ne_nil _ _))

/-- A task that comes for its unit is no longer pending. -/
theorem leave (h : Covered W P n) (hP : ∀ u, u ≠ t → P u → Q u) : Covered W Q (n - 1) := by
  classical
  obtain ⟨woken, hnodup, hwoken, hlen⟩ := h
  refine ⟨woken.erase t, hnodup.erase t, fun u hu => ?_, fun hne => ?_⟩
  · obtain ⟨hne, hu⟩ := hnodup.mem_erase_iff.1 hu
    exact ⟨hP u hne (hwoken u hu).1, (hwoken u hu).2⟩
  · have := hlen hne
    have hle : woken.length - 1 ≤ (woken.erase t).length := List.le_length_erase
    omega

/-- **Nobody waits beside a unit,** if nobody is on the way. -/
theorem eq_zero (h : Covered W P n) (hquiet : ∀ t, P t → t ∈ W) (hW : W ≠ []) : n = 0 := by
  obtain ⟨woken, -, hwoken, hlen⟩ := h
  have hnil : woken = [] := by
    refine List.eq_nil_iff_forall_not_mem.2 fun t ht => ?_
    exact (hwoken t ht).2 (hquiet t (hwoken t ht).1)
  have := hlen hW
  rw [hnil] at this
  exact Nat.le_zero.1 this

end Covered

end WakeUps
