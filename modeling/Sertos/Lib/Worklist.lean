import Mathlib.Data.Multiset.DershowitzManna
import Mathlib.SetTheory.Ordinal.Rank
import Mathlib.Order.WellFoundedSet

/-!
# Work lists that grow

A process takes the first item off a list, works on it, and in doing so may drop items from the list
and add new ones.  It ends if every item has a rank and the items added while working on one rank
below it, however many there are: the multiset of the ranks still on the list goes down
(`Worklist.decreases`).

When the items that may be added are given by a relation, ranks exist on every finite set of items
on which the relation has no cycle (`Worklist.exists_rank`), and where it has one it can be walked
round for ever (`Worklist.exists_cycle`).
-/

set_option autoImplicit false

namespace Worklist

open Relation

section Decreases

variable {ι α : Type*} [Preorder α]

/-- The item `a` is taken off the list `a :: l`; what is on the list `l'` afterwards was on it
before and weighs the same, or weighs less than `a` did. -/
theorem decreases {f g : ι → α} {a : ι} {l l' : List ι} (hl : (a :: l).Nodup) (hl' : l'.Nodup)
    (h : ∀ x ∈ l', x ∈ l ∧ g x = f x ∨ g x < f a) :
    Multiset.IsDershowitzMannaLT ((l' : Multiset ι).map g)
      (((a :: l : List ι) : Multiset ι).map f) := by
  classical
  let kept : Multiset ι := (l' : Multiset ι).filter fun x => x ∈ l ∧ g x = f x
  let new : Multiset ι := (l' : Multiset ι).filter fun x => ¬ (x ∈ l ∧ g x = f x)
  have hkept : ∀ x ∈ kept, x ∈ l ∧ g x = f x := fun x hx => (Multiset.mem_filter.1 hx).2
  have hle : kept ≤ ((a :: l : List ι) : Multiset ι) := by
    refine (Multiset.le_iff_subset ((Multiset.coe_nodup.2 hl').filter _)).2 fun x hx => ?_
    exact List.mem_cons_of_mem a (hkept x hx).1
  obtain ⟨dropped, hdropped⟩ := Multiset.le_iff_exists_add.1 hle
  have ha : a ∈ dropped := by
    have hmem : a ∈ ((a :: l : List ι) : Multiset ι) := by simp
    rw [hdropped, Multiset.mem_add] at hmem
    refine hmem.resolve_left fun hk => ?_
    exact (List.nodup_cons.1 hl).1 (hkept a hk).1
  refine ⟨kept.map g, new.map g, dropped.map f, ?_, ?_, ?_, ?_⟩
  · intro hempty
    have := Multiset.mem_map_of_mem f ha
    simp [hempty] at this
  · rw [← Multiset.map_add, Multiset.filter_add_not]
  · rw [Multiset.map_congr rfl fun x hx => (hkept x hx).2, ← Multiset.map_add, ← hdropped]
  · intro y hy
    obtain ⟨x, hx, rfl⟩ := Multiset.mem_map.1 hy
    obtain ⟨hxl, hxn⟩ := Multiset.mem_filter.1 hx
    exact ⟨f a, Multiset.mem_map_of_mem f ha, (h x hxl).resolve_left hxn⟩

end Decreases

section Rank

variable {ι : Type} {R : ι → ι → Prop}

/-- A relation without cycles ranks every finite set. -/
theorem exists_rank (hR : ∀ a, ¬ TransGen R a a) {T : Set ι} (hT : T.Finite) :
    ∃ rank : ι → Ordinal.{0}, ∀ a ∈ T, ∀ b ∈ T, R a b → rank b < rank a := by
  have hstrict : IsStrictOrder ι fun b a => TransGen R a b :=
    { irrefl := hR, trans := fun _ _ _ hba hcb => hcb.trans hba }
  have hwf := Set.wellFoundedOn_iff.1 (hT.wellFoundedOn (r := fun b a => TransGen R a b))
  have : IsWellFounded ι fun b a => TransGen R a b ∧ b ∈ T ∧ a ∈ T := ⟨hwf⟩
  refine ⟨IsWellFounded.rank fun b a => TransGen R a b ∧ b ∈ T ∧ a ∈ T, fun a ha b hb hab => ?_⟩
  exact IsWellFounded.rank_lt_of_rel (r := fun b a => TransGen R a b ∧ b ∈ T ∧ a ∈ T)
    ⟨.single hab, hb, ha⟩

/-- A finite walk along the relation. -/
theorem exists_walk {a b : ι} (h : TransGen R a b) :
    ∃ (m : ℕ) (c : ℕ → ι), c 0 = a ∧ c (m + 1) = b ∧ ∀ i, i ≤ m → R (c i) (c (i + 1)) := by
  induction h with
  | @single b hab =>
    refine ⟨0, fun i => if i = 0 then a else b, rfl, rfl, fun i hi => ?_⟩
    obtain rfl : i = 0 := by omega
    exact hab
  | @tail b d _ hbd ih =>
    obtain ⟨m, c, h0, hm, hc⟩ := ih
    refine ⟨m + 1, fun i => if i ≤ m + 1 then c i else d, by simpa using h0, by simp,
      fun i hi => ?_⟩
    rcases Nat.lt_or_ge i (m + 1) with hlt | hge
    · simp only [if_pos (show i ≤ m + 1 by omega), if_pos (show i + 1 ≤ m + 1 by omega)]
      exact hc i (by omega)
    · obtain rfl : i = m + 1 := by omega
      simp only [le_refl, if_true, if_neg (show ¬ m + 1 + 1 ≤ m + 1 by omega), hm]
      exact hbd

/-- A cycle can be walked round for ever. -/
theorem exists_cycle {a : ι} (h : TransGen R a a) :
    ∃ c : ℕ → ι, (Set.range c).Finite ∧ ∀ i, R (c i) (c (i + 1)) := by
  obtain ⟨m, c, h0, hm, hc⟩ := exists_walk h
  refine ⟨fun i => c (i % (m + 1)), ?_, fun i => ?_⟩
  · refine ((Finset.range (m + 1)).finite_toSet.image c).subset ?_
    rintro _ ⟨i, rfl⟩
    exact ⟨i % (m + 1), by simpa using Nat.mod_lt i m.succ_pos, rfl⟩
  · have hlt : i % (m + 1) < m + 1 := Nat.mod_lt i m.succ_pos
    have hstep := hc (i % (m + 1)) (by omega)
    rcases Nat.lt_or_ge (i % (m + 1) + 1) (m + 1) with h1 | h1
    · have hmod : (i + 1) % (m + 1) = i % (m + 1) + 1 := by
        rw [← Nat.mod_add_mod, Nat.mod_eq_of_lt h1]
      simpa only [hmod] using hstep
    · -- the end of the walk is its beginning
      have hmod : (i + 1) % (m + 1) = 0 := by
        rw [← Nat.mod_add_mod, show i % (m + 1) + 1 = m + 1 by omega, Nat.mod_self]
      have hlast : i % (m + 1) = m := by omega
      simp only [hmod, h0]
      rw [hlast, hm] at hstep
      rwa [hlast]

end Rank

end Worklist
