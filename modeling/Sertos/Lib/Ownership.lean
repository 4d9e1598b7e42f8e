import Mathlib.Data.List.Nodup
import Mathlib.Data.List.Perm.Basic

/-!
# Blocks and their owners

An allocator hands out blocks, and each owner holds some of them.  `Balanced blocks out owners` says
that the blocks handed out are exactly the ones the owners hold, and that no block has two of them.
Owners and blocks are arbitrary, and an owner may hold nothing.
-/

set_option autoImplicit false

namespace Ownership

variable {α ω : Type*} {blocks : ω → List α} {out l : List α} {owners owners' rest : List ω}
  {o o' : ω} {a : α}

/-- The blocks handed out are those the owners hold, each held once. -/
structure Balanced (blocks : ω → List α) (out : List α) (owners : List ω) : Prop where
  perm : out.Perm (owners.flatMap blocks)
  nodup : out.Nodup

namespace Balanced

theorem nil : Balanced blocks [] [] := ⟨List.Perm.refl _, List.nodup_nil⟩

theorem mem_iff (h : Balanced blocks out owners) : a ∈ out ↔ ∃ o ∈ owners, a ∈ blocks o := by
  rw [h.perm.mem_iff, List.mem_flatMap]

theorem congr (h : Balanced blocks out owners) (ho : owners.Perm owners') :
    Balanced blocks out owners' :=
  ⟨h.perm.trans (ho.flatMap_right blocks), h.nodup⟩

/-- A new owner takes blocks that were not handed out. -/
theorem acquire (h : Balanced blocks out owners) (hl : l = blocks o) (hnd : l.Nodup)
    (hfresh : ∀ a ∈ l, a ∉ out) : Balanced blocks (l ++ out) (o :: owners) where
  perm := by
    rw [List.flatMap_cons, ← hl]
    exact h.perm.append_left l
  nodup := List.nodup_append'.2 ⟨hnd, h.nodup, fun a ha => hfresh a ha⟩

/-- Owners that hold nothing do not count. -/
theorem filter (h : Balanced blocks out owners) {p : ω → Bool}
    (hp : ∀ o ∈ owners, p o = false → blocks o = []) : Balanced blocks out (owners.filter p) := by
  refine ⟨h.perm.trans (List.Perm.of_eq ?_), h.nodup⟩
  have hnd := h.nodup
  clear h hnd
  induction owners with
  | nil => rfl
  | cons o owners ih =>
    have hrest := ih fun u hu => hp u (List.mem_cons_of_mem o hu)
    rw [List.flatMap_cons, hrest, List.filter_cons]
    split
    · rw [List.flatMap_cons]
    · next hpo =>
      rw [hp o List.mem_cons_self (by simpa using hpo), List.nil_append]

/-- The blocks of one owner are different ones, all handed out. -/
theorem held (h : Balanced blocks out (o :: rest)) :
    (blocks o).Nodup ∧ ∀ a ∈ blocks o, a ∈ out := by
  refine ⟨?_, fun a ha => h.mem_iff.2 ⟨o, List.mem_cons_self, ha⟩⟩
  have hnd := h.perm.nodup_iff.1 h.nodup
  rw [List.flatMap_cons] at hnd
  exact hnd.of_append_left

variable [DecidableEq α]

theorem diff_append_self (l l' : List α) : (l ++ l').diff l = l' := by
  induction l with
  | nil => rfl
  | cons a l ih => rw [List.cons_append, List.diff_cons, List.erase_cons_head, ih]

/-- An owner gives its blocks back. -/
theorem release (h : Balanced blocks out (o :: rest)) :
    Balanced blocks (out.diff (blocks o)) rest where
  perm := by
    have hperm := (h.perm.trans (List.Perm.of_eq List.flatMap_cons)).diff_right (blocks o)
    rwa [diff_append_self] at hperm
  nodup := h.nodup.diff

end Balanced

end Ownership
