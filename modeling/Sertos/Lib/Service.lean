import Mathlib.Data.List.Sort
import Mathlib.Data.List.Nodup
import Mathlib.Logic.Function.Basic

/-!
# Order of service

A queue that serves the highest key first, and among equal keys the one that came first.  Every
element has a key and a stamp, the time at which it came, and `Before` is the lexicographic order of
the two.  A list is `InOrder` if it is sorted by it.  Splicing a newcomer in front of the first
element of lower key keeps a list in order, and so does taking out any of its elements.

The last section is about keys that change under a list that stays as it is: sorted by the old keys,
it is sorted by the new ones exactly if the new key of the one element that changed fits between its
neighbours (`pairwise_update_iff`).
-/

set_option autoImplicit false

namespace Service

variable {α : Type*} {key key' stamp stamp' : α → ℕ} {l l' front back : List α} {a b w : α} {p : ℕ}

/-- `a` is served before `b`. -/
def Before (key stamp : α → ℕ) (a b : α) : Prop :=
  key b < key a ∨ key b = key a ∧ stamp a < stamp b

/-- The list is sorted in the order of service, without repetitions. -/
def InOrder (key stamp : α → ℕ) (l : List α) : Prop := l.Pairwise (Before key stamp)

theorem Before.key_le (h : Before key stamp a b) : key b ≤ key a := by
  rcases h with h | ⟨h, -⟩
  · exact h.le
  · exact h.le

namespace InOrder

theorem nil : InOrder key stamp ([] : List α) := List.Pairwise.nil

/-- Elements that leave, from any place, leave the rest in order. -/
theorem sublist (h : InOrder key stamp l) (hl : l'.Sublist l) : InOrder key stamp l' :=
  List.Pairwise.sublist hl h

theorem congr (h : InOrder key stamp l) (hkey : ∀ a ∈ l, key' a = key a)
    (hstamp : ∀ a ∈ l, stamp' a = stamp a) : InOrder key' stamp' l := by
  refine List.Pairwise.imp_of_mem (fun {a b} ha hb hab => ?_) h
  rw [Before, hkey a ha, hkey b hb, hstamp a ha, hstamp b hb]
  exact hab

/-- The head is served before all others. -/
theorem before_of_head (h : InOrder key stamp (a :: l)) (hb : b ∈ l) : Before key stamp a b :=
  List.rel_of_pairwise_cons h hb

/-- **A newcomer** is spliced in front of the first element of lower key. -/
theorem orderedInsert (h : InOrder key stamp l) (hnew : ∀ b ∈ l, stamp b < stamp a) :
    InOrder key stamp (l.orderedInsert (fun a b => key b < key a) a) := by
  induction l with
  | nil => simp [InOrder]
  | cons b l ih =>
    obtain ⟨hb, hl⟩ := List.pairwise_cons.1 h
    rw [List.orderedInsert_cons]
    by_cases hba : key b < key a
    · rw [if_pos hba]
      refine List.pairwise_cons.2 ⟨fun x hx => .inl ?_, h⟩
      rcases List.mem_cons.1 hx with rfl | hx
      · exact hba
      · exact (hb x hx).key_le.trans_lt hba
    · rw [if_neg hba]
      refine List.pairwise_cons.2 ⟨fun x hx => ?_, ih hl fun x hx => hnew x (by simp [hx])⟩
      rcases List.mem_cons.1 ((List.perm_orderedInsert _ a l).mem_iff.1 hx) with rfl | hx
      · -- the newcomer comes behind every element of the same key
        rcases (not_lt.1 hba).lt_or_eq with hlt | heq
        · exact .inl hlt
        · exact .inr ⟨heq, hnew b List.mem_cons_self⟩
      · exact hb x hx

end InOrder

/-! ## A key that changes -/

/-- A list sorted by descending keys stays so exactly if the new key of `w` fits between those of
the elements in front of it and those of the elements behind it. -/
theorem pairwise_update_iff [DecidableEq α] (hnodup : (front ++ w :: back).Nodup)
    (h : (front ++ w :: back).Pairwise fun a b => key b ≤ key a) :
    ((front ++ w :: back).Pairwise fun a b =>
        Function.update key w p b ≤ Function.update key w p a) ↔
      (∀ u ∈ front, p ≤ key u) ∧ ∀ u ∈ back, key u ≤ p := by
  obtain ⟨-, hback, hne⟩ := List.nodup_append.1 hnodup
  have hfront : ∀ u ∈ front, u ≠ w := fun u hu => hne u hu w List.mem_cons_self
  have hback : ∀ u ∈ back, u ≠ w := fun u hu e => (List.nodup_cons.1 hback).1 (e ▸ hu)
  have hkey : ∀ u, u ≠ w → Function.update key w p u = key u := fun u hu =>
    Function.update_of_ne hu p key
  obtain ⟨hf, hwb, hcross⟩ := List.pairwise_append.1 h
  rw [List.pairwise_append, List.pairwise_cons]
  constructor
  · rintro ⟨-, ⟨hw, -⟩, hfw⟩
    refine ⟨fun u hu => ?_, fun u hu => ?_⟩
    · simpa [hkey u (hfront u hu)] using hfw u hu w List.mem_cons_self
    · simpa [hkey u (hback u hu)] using hw u hu
  · rintro ⟨hpf, hpb⟩
    refine ⟨?_, ⟨fun u hu => ?_, ?_⟩, fun u hu v hv => ?_⟩
    · refine hf.imp_of_mem fun {u v} hu hv huv => ?_
      rwa [hkey u (hfront u hu), hkey v (hfront v hv)]
    · simpa [hkey u (hback u hu)] using hpb u hu
    · refine (List.pairwise_cons.1 hwb).2.imp_of_mem fun {u v} hu hv huv => ?_
      rwa [hkey u (hback u hu), hkey v (hback v hv)]
    · rw [hkey u (hfront u hu)]
      rcases List.mem_cons.1 hv with rfl | hv
      · simpa using hpf u hu
      · rw [hkey v (hback v hv)]
        exact hcross u hu v (by simp [hv])

end Service
