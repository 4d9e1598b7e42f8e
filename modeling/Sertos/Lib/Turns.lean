import Mathlib.Data.List.Rotate
import Mathlib.Tactic.Common

/-!
# Queues that are served in turn

A queue whose head is being served changes in three ways: newcomers line up at its end, the turn of
the head ends and the head lines up again, or the head leaves.  `Turns.Move l e l'` is one such
change, with `e` the element whose turn has ended, if any.

Two things follow whatever the newcomers are.  An element moves up by exactly one place when the
turn of another ends, and stays where it is otherwise (`Move.idxOf_add`); so its place says how many
turns it waits.  And as long as nobody comes or leaves, a queue of `n` elements is rotated once by
every turn (`Move.eq_rotate`), so in any `n` consecutive turns everybody is served exactly once
(`existsUnique_turn`).
-/

set_option autoImplicit false

namespace Turns

variable {α : Type*}

/-- One change of a queue that is served in turn. -/
inductive Move : List α → Option α → List α → Prop
  | arrive (l ys : List α) : Move l none (l ++ ys)
  | turn (c : α) (rest ys : List α) : Move (c :: rest) (some c) (rest ++ ys ++ [c])
  | leave (c : α) (rest : List α) : Move (c :: rest) (some c) rest

namespace Move

variable {l l' : List α} {e : Option α} {c t : α}

theorem refl (l : List α) : Move l none l := by simpa using arrive l []

/-- **Everybody else moves up by one place when a turn ends**, and by none otherwise. -/
theorem idxOf_add [DecidableEq α] (h : Move l e l') (ht : t ∈ l) (he : e ≠ some t) :
    t ∈ l' ∧ l'.idxOf t + (if e.isSome then 1 else 0) = l.idxOf t := by
  cases h with
  | arrive _ ys =>
    exact ⟨List.mem_append_left _ ht, by rw [List.idxOf_append_of_mem ht]; rfl⟩
  | turn c rest ys =>
    have hne : t ≠ c := fun h => he (by rw [h])
    have hm : t ∈ rest := (List.mem_cons.1 ht).resolve_left hne
    refine ⟨by simp [hm], ?_⟩
    rw [List.append_assoc, List.idxOf_append_of_mem hm, List.idxOf_cons_ne _ (Ne.symm hne)]
    rfl
  | leave c rest =>
    have hne : t ≠ c := fun h => he (by rw [h])
    exact ⟨(List.mem_cons.1 ht).resolve_left hne, by
      rw [List.idxOf_cons_ne _ (Ne.symm hne)]; rfl⟩

/-- **With nobody coming or leaving, a turn rotates the queue.** -/
theorem eq_rotate (h : Move l e l') (hl : l'.Perm l) :
    l' = l.rotate (if e.isSome then 1 else 0) := by
  cases h with
  | arrive _ ys =>
    have hlen := hl.length_eq
    rw [List.length_append] at hlen
    have hys : ys = [] := List.length_eq_zero_iff.1 (by omega)
    simp [hys]
  | turn c rest ys =>
    have hlen := hl.length_eq
    simp only [List.length_append, List.length_cons, List.length_nil] at hlen
    have hys : ys = [] := List.length_eq_zero_iff.1 (by omega)
    simp [hys]
  | leave =>
    have hlen := hl.length_eq
    simp at hlen

end Move

/-! ## Turns in cyclic order -/

/-- A run in which a kind of step is taken `n` times passes through every count up to `n`. -/
theorem exists_prefix_countP (q : α → Bool) {l : List α} {j : ℕ} (hj : j ≤ l.countP q) :
    ∃ bs cs, l = bs ++ cs ∧ bs.countP q = j := by
  induction l generalizing j with
  | nil => exact ⟨[], [], rfl, (Nat.le_zero.1 hj).symm⟩
  | cons a l ih =>
    by_cases h0 : j = 0
    · exact ⟨[], a :: l, rfl, by simp [h0]⟩
    · by_cases ha : q a = true
      · rw [List.countP_cons_of_pos ha] at hj
        obtain ⟨bs, cs, rfl, hbs⟩ := ih (j := j - 1) (by omega)
        exact ⟨a :: bs, cs, rfl, by rw [List.countP_cons_of_pos ha]; omega⟩
      · rw [List.countP_cons_of_neg ha] at hj
        obtain ⟨bs, cs, rfl, hbs⟩ := ih hj
        exact ⟨a :: bs, cs, rfl, by rw [List.countP_cons_of_neg ha]; exact hbs⟩

/-- In any `n` consecutive turns of a queue of `n` elements each of them comes once. -/
theorem existsUnique_turn {l : List α} (hl : l.Nodup) {u : α} (hu : u ∈ l) (i : ℕ) :
    ∃! j, (i ≤ j ∧ j < i + l.length) ∧ l[j % l.length]? = some u := by
  obtain ⟨m, hm, rfl⟩ := List.getElem_of_mem hu
  have hpos : 0 < l.length := List.length_pos_of_mem hu
  have hmod : i % l.length < l.length := Nat.mod_lt i hpos
  have hget : ∀ j, l[j % l.length]? = some l[m] ↔ j % l.length = m := fun j => by
    rw [List.getElem?_eq_getElem (Nat.mod_lt j hpos), Option.some_inj, hl.getElem_inj_iff]
  have hdiv := Nat.div_add_mod i l.length
  -- the turn of `u` is `m` places into the first cycle that is not over at `i`
  set q := l.length * (i / l.length) with hq
  have hcycle : ∀ j, (l.length * j + m) % l.length = m := fun j => by
    rw [Nat.mul_add_mod, Nat.mod_eq_of_lt hm]
  have huniq : ∀ j j', i ≤ j → j < i + l.length → i ≤ j' → j' < i + l.length →
      j % l.length = j' % l.length → j ≤ j' → j = j' := by
    intro j j' hj _ _ hj' he hle
    have h0 := Nat.sub_mod_eq_zero_of_mod_eq he.symm
    rw [Nat.mod_eq_of_lt (by omega)] at h0
    omega
  have hex : ∃ j, (i ≤ j ∧ j < i + l.length) ∧ j % l.length = m := by
    by_cases hle : i % l.length ≤ m
    · exact ⟨q + m, by omega, hcycle _⟩
    · refine ⟨q + l.length + m, by omega, ?_⟩
      have := hcycle (i / l.length + 1)
      rwa [Nat.mul_succ] at this
  obtain ⟨j, hj, hjm⟩ := hex
  refine ⟨j, ⟨hj, (hget j).2 hjm⟩, fun j' hj' => ?_⟩
  have he : j' % l.length = j % l.length := ((hget j').1 hj'.2).trans hjm.symm
  rcases Nat.le_total j' j with h | h
  · exact huniq j' j hj'.1.1 hj'.1.2 hj.1 hj.2 he h
  · exact (huniq j j' hj.1 hj.2 hj'.1.1 hj'.1.2 he.symm h).symm

end Turns
