import Mathlib.Data.List.Chain
import Mathlib.Data.List.Induction
import Mathlib.Data.List.Nodup
import Mathlib.Logic.Function.Basic
import Mathlib.Tactic.Common

/-!
# Circular doubly linked lists in memory

A node has two links, each the address of a node or `NULL`.  A list is a ring of nodes through one
that is not an element, its root, with a count beside the root; `IsList h r xs` says that the ring
at `r` consists of the nodes `xs`, in this order.  It is a chain of linked pairs from the root round
to the root, so that cutting the ring between two neighbours cuts the chain in two
(`IsList.chain_left`, `IsList.chain_right`), and either half survives every change of links that
does not touch it (`chain_congr`).  `IsList.insert` and `IsList.remove` join the halves again.

The functions of a list library are the parameters of a `ListModule`, and `ListModule.Lawful` is
what their callers rely on: what becomes of the list, and that nothing else changes
(`Confined`).  What removal leaves in the links of the node that it takes out is not part of that.
-/

set_option autoImplicit false

namespace Circular

/-- The links of all nodes, and the count that belongs to each root, unsigned as in `LinkedList`. -/
structure Heap (α : Type*) where
  next : α → Option α
  prev : α → Option α
  count : α → ℤ

variable {α : Type*} {h h' : Heap α} {r s u v x : α} {xs ys front back : List α}

/-- `v` follows `u`, and both links say so. -/
def Linked (h : Heap α) (u v : α) : Prop := h.next u = some v ∧ h.prev v = some u

instance [DecidableEq α] (h : Heap α) (u v : α) : Decidable (Linked h u v) :=
  inferInstanceAs (Decidable (_ ∧ _))

/-- The ring at the root `r` consists of the nodes `xs`. -/
structure IsList (h : Heap α) (r : α) (xs : List α) : Prop where
  nodup : (r :: xs).Nodup
  chain : (r :: xs ++ [r]).IsChain (Linked h)
  count_eq : h.count r = xs.length

/-- An empty list is a root linked to itself. -/
theorem IsList.nil (hnext : h.next r = some r) (hprev : h.prev r = some r)
    (hcount : h.count r = 0) :
    IsList h r [] :=
  ⟨List.nodup_singleton r, by simp [Linked, hnext, hprev], hcount⟩

/-! ## Cutting the ring -/

/-- A chain survives a change of links that its pairs do not use. -/
theorem chain_congr {l : List α} (hl : l.IsChain (Linked h))
    (hnext : ∀ u ∈ l.dropLast, h'.next u = h.next u) (hprev : ∀ v ∈ l.tail, h'.prev v = h.prev v) :
    l.IsChain (Linked h') := by
  rw [List.isChain_iff_getElem] at hl ⊢
  intro i hi
  have hdrop : l[i] ∈ l.dropLast := by
    rw [← List.getElem_dropLast (by rw [List.length_dropLast]; omega)]
    exact List.getElem_mem _
  have htail : l[i + 1] ∈ l.tail := by
    rw [← List.getElem_tail (by rw [List.length_tail]; omega)]
    exact List.getElem_mem _
  obtain ⟨h₁, h₂⟩ := hl i hi
  exact ⟨(hnext _ hdrop).trans h₁, (hprev _ htail).trans h₂⟩

namespace IsList

theorem chain_left (hl : IsList h r (front ++ back)) : (r :: front).IsChain (Linked h) := by
  have hchain := hl.chain
  rw [List.cons_append, List.append_assoc, ← List.cons_append] at hchain
  exact hchain.left_of_append

theorem chain_right (hl : IsList h r (front ++ back)) : (back ++ [r]).IsChain (Linked h) := by
  have hchain := hl.chain
  rw [List.cons_append, List.append_assoc, ← List.cons_append] at hchain
  exact hchain.right_of_append

/-- The node before the cut and the node after it, either of which may be the root. -/
theorem linked (hl : IsList h r (front ++ back)) :
    Linked h (front.getLastD r) (back.headD r) := by
  have hchain := hl.chain
  rw [List.cons_append, List.append_assoc, ← List.cons_append, List.isChain_append] at hchain
  refine hchain.2.2 _ ?_ _ ?_
  · rw [List.getLast?_cons, ← List.getLastD_eq_getLast?]
    rfl
  · cases back <;> rfl

theorem next_eq (hl : IsList h r (front ++ x :: back)) : h.next x = some (back.headD r) := by
  have hcut : IsList h r ((front ++ [x]) ++ back) := by simpa using hl
  have hlinked := hcut.linked
  rw [List.getLastD_concat] at hlinked
  exact hlinked.1

theorem prev_eq (hl : IsList h r (front ++ x :: back)) : h.prev x = some (front.getLastD r) :=
  hl.linked.2

/-- The successor, with `NULL` for the end of the list. -/
theorem next_or_null [DecidableEq α] (hl : IsList h r (front ++ x :: back)) :
    (if h.next x = some r then none else h.next x) = back.head? := by
  rw [hl.next_eq]
  cases back with
  | nil => exact if_pos rfl
  | cons a back =>
    have hne : a ≠ r := by
      rintro rfl
      exact (List.nodup_cons.1 hl.nodup).1 (by simp)
    exact if_neg fun e => hne (Option.some_inj.1 e)

theorem next_root (hl : IsList h r xs) : h.next r = some (xs.headD r) :=
  (show IsList h r ([] ++ xs) from hl).linked.1

theorem prev_root (hl : IsList h r xs) : h.prev r = some (xs.getLastD r) :=
  (show IsList h r (xs ++ []) by rwa [List.append_nil]).linked.2

theorem root_notMem (hl : IsList h r xs) : r ∉ xs := (List.nodup_cons.1 hl.nodup).1

/-- The node before a cut is not a first component elsewhere in the ring. -/
theorem last_notMem (hnodup : (r :: (front ++ back)).Nodup) :
    front.getLastD r ∉ (r :: front).dropLast ∧ front.getLastD r ∉ back := by
  have hlast : (r :: front).getLast (List.cons_ne_nil r front) = front.getLastD r :=
    List.getLast_eq_getLastD _
  have hsplit := List.dropLast_append_getLast (List.cons_ne_nil r front)
  rw [hlast] at hsplit
  rw [← List.cons_append, ← hsplit, List.append_assoc, List.singleton_append,
    List.nodup_middle] at hnodup
  have hnot := (List.nodup_cons.1 hnodup).1
  exact ⟨fun hm => hnot (List.mem_append_left _ hm), fun hm => hnot (List.mem_append_right _ hm)⟩

/-- The node after a cut is not a second component elsewhere in the ring. -/
theorem head_notMem (hnodup : (r :: (front ++ back)).Nodup) :
    back.headD r ∉ front ∧ back.headD r ∉ (back ++ [r]).tail := by
  have hsplit : back ++ [r] = back.headD r :: (back ++ [r]).tail := by
    cases back <;> rfl
  have hrotate : (front ++ (back ++ [r])).Nodup := by
    rw [← List.append_assoc]
    exact (List.perm_append_singleton r _).nodup_iff.2 hnodup
  rw [hsplit, List.nodup_middle] at hrotate
  have hnot := (List.nodup_cons.1 hrotate).1
  exact ⟨fun hm => hnot (List.mem_append_left _ hm), fun hm => hnot (List.mem_append_right _ hm)⟩

/-- The two halves of a ring without `mid` survive if no other link than that of the nodes next to
the gap changes. -/
theorem halves (mid : List α) (h' : Heap α) (hl : IsList h r (front ++ (mid ++ back)))
    (hnext : ∀ u ∈ r :: (front ++ back), u ≠ front.getLastD r → h'.next u = h.next u)
    (hprev : ∀ v ∈ r :: (front ++ back), v ≠ back.headD r → h'.prev v = h.prev v) :
    (r :: front).IsChain (Linked h') ∧ (back ++ [r]).IsChain (Linked h') := by
  have hnodup : (r :: (front ++ back)).Nodup :=
    hl.nodup.sublist (((List.sublist_append_right mid back).append_left front).cons_cons r)
  obtain ⟨hlast, hlast'⟩ := last_notMem hnodup
  obtain ⟨hhead, hhead'⟩ := head_notMem hnodup
  have hright : (back ++ [r]).IsChain (Linked h) := by
    have hright := hl.chain_right
    rw [List.append_assoc] at hright
    exact hright.right_of_append
  constructor
  · refine chain_congr hl.chain_left (fun u hu => ?_) fun v hv => ?_
    · have hmem : u ∈ r :: (front ++ back) :=
        List.mem_append_left back (List.dropLast_subset _ hu)
      exact hnext u hmem fun e => hlast (by rwa [← e])
    · have hmem : v ∈ front := hv
      exact hprev v (by simp [hmem]) fun e => hhead (by rwa [← e])
  · refine chain_congr hright (fun u hu => ?_) fun v hv => ?_
    · have hmem : u ∈ back := by simpa using hu
      exact hnext u (by simp [hmem]) fun e => hlast' (by rwa [← e])
    · have hmem : v ∈ back ∨ v = r := by simpa using List.mem_of_mem_tail hv
      refine hprev v ?_ fun e => hhead' (by rwa [← e])
      rcases hmem with hmem | rfl <;> simp [*]

/-- The ring out of its halves. -/
theorem chain_of_halves (hleft : (r :: front).IsChain (Linked h))
    (hright : (back ++ [r]).IsChain (Linked h))
    (hlinked : Linked h (front.getLastD r) (back.headD r)) :
    (r :: (front ++ back) ++ [r]).IsChain (Linked h) := by
  rw [List.cons_append, List.append_assoc, ← List.cons_append]
  refine hleft.append hright ?_
  rw [List.getLast?_cons, ← List.getLastD_eq_getLast?]
  rintro _ ⟨⟩ v hv
  obtain rfl : back.headD r = v := by cases back <;> simpa using hv
  exact hlinked

end IsList

/-! ## Joining it again -/

section Join

variable [DecidableEq α]

namespace Heap

/-- `u` and `v` become neighbours. -/
def join (h : Heap α) (u v : α) : Heap α :=
  { h with
    next := Function.update h.next u (some v)
    prev := Function.update h.prev v (some u) }

def setNext (h : Heap α) (u : α) (v : Option α) : Heap α :=
  { h with next := Function.update h.next u v }

def setPrev (h : Heap α) (v : α) (u : Option α) : Heap α :=
  { h with prev := Function.update h.prev v u }

def addCount (h : Heap α) (r : α) (d : ℤ) : Heap α :=
  { h with count := Function.update h.count r (h.count r + d) }

def setCount (h : Heap α) (r : α) (n : ℤ) : Heap α :=
  { h with count := Function.update h.count r n }

/-- Both links of a node are `NULL`. -/
def clear (h : Heap α) (u : α) : Heap α := (h.setNext u none).setPrev u none

@[simp] theorem setNext_next_same (h : Heap α) (u : α) (v : Option α) :
    (h.setNext u v).next u = v :=
  Function.update_self ..

theorem setNext_next_of_ne {v : Option α} (hu : x ≠ u) : (h.setNext u v).next x = h.next x :=
  Function.update_of_ne hu _ _

@[simp] theorem setNext_prev (h : Heap α) (u : α) (v : Option α) :
    (h.setNext u v).prev = h.prev := rfl

theorem setPrev_prev_of_ne {w : Option α} (hv : x ≠ v) : (h.setPrev v w).prev x = h.prev x :=
  Function.update_of_ne hv _ _

@[simp] theorem setPrev_next (h : Heap α) (v : α) (u : Option α) :
    (h.setPrev v u).next = h.next := rfl

end Heap

namespace IsList

/-- **Insertion** of `x` between two neighbours. -/
theorem insert (hl : IsList h r (front ++ back)) (hx : x ∉ r :: (front ++ back)) :
    IsList (((h.join x (back.headD r)).join (front.getLastD r) x).addCount r 1) r
      (front ++ x :: back) := by
  have hne : ∀ u ∈ r :: (front ++ back), u ≠ x := fun u hu e => hx (e ▸ hu)
  have hlast : front.getLastD r ≠ x :=
    hne _ (List.mem_append_left back List.getLastD_mem_cons)
  have hhead : back.headD r ≠ x := hne _ (by cases back <;> simp)
  generalize hp : front.getLastD r = p at hlast
  generalize hc : back.headD r = c at hhead
  obtain ⟨hleft, hright⟩ := hl.halves [] (((h.join x c).join p x).addCount r 1)
    (fun u hu hup => by
      show Function.update (Function.update h.next x _) p _ u = _
      rw [Function.update_of_ne (hp ▸ hup), Function.update_of_ne (hne u hu)])
    (fun v hv hvc => by
      show Function.update (Function.update h.prev c _) x _ v = _
      rw [Function.update_of_ne (hne v hv), Function.update_of_ne (hc ▸ hvc)])
  refine ⟨?_, chain_of_halves hleft ?_ ?_, ?_⟩
  · rw [← List.cons_append, List.nodup_middle]
    exact List.nodup_cons.2 ⟨hx, hl.nodup⟩
  · refine List.isChain_cons.2 ⟨fun v hv => ?_, hright⟩
    obtain rfl : c = v := by
      rw [← hc]
      cases back <;> simpa using hv
    exact ⟨(Function.update_of_ne hlast.symm _ _).trans (Function.update_self ..),
      (Function.update_of_ne hhead _ _).trans (Function.update_self ..)⟩
  · rw [hp]
    exact ⟨Function.update_self .., Function.update_self ..⟩
  · show Function.update h.count r (h.count r + 1) r = _
    rw [Function.update_self, hl.count_eq]
    simp only [List.length_append, List.length_cons]
    omega

/-- **Removal** of `x`: its neighbours are joined. -/
theorem remove (hl : IsList h r (front ++ x :: back)) :
    IsList ((h.join (front.getLastD r) (back.headD r)).addCount r (-1)) r (front ++ back) := by
  obtain ⟨hleft, hright⟩ := hl.halves [x]
    ((h.join (front.getLastD r) (back.headD r)).addCount r (-1))
    (fun u _ hu => Function.update_of_ne hu _ _) (fun v _ hv => Function.update_of_ne hv _ _)
  refine ⟨?_, chain_of_halves hleft hright ⟨Function.update_self .., Function.update_self ..⟩, ?_⟩
  · exact hl.nodup.sublist (((List.sublist_cons_self x back).append_left front).cons_cons r)
  · show Function.update h.count r (h.count r + -1) r = _
    rw [Function.update_self, hl.count_eq]
    simp only [List.length_append, List.length_cons]
    omega

end IsList

end Join

/-! ## Going round -/

namespace Heap

/-- The links the other way round. -/
def flip (h : Heap α) : Heap α := { h with next := h.prev, prev := h.next }

/-- `n` links from `a` on. -/
def nextN (h : Heap α) : ℕ → α → Option α
  | 0, a => some a
  | n + 1, a => (h.nextN n a).bind h.next

end Heap

/-- **A ring, link by link:** the two links are inverse to each other, and following either from the
root visits all nodes and comes back to it. -/
structure Ring (h : Heap α) (r : α) (xs : List α) : Prop where
  next_prev : ∀ a ∈ r :: xs, ∃ b ∈ r :: xs, h.next a = some b ∧ h.prev b = some a
  prev_next : ∀ a ∈ r :: xs, ∃ b ∈ r :: xs, h.prev a = some b ∧ h.next b = some a
  forward : ∀ i, i ≤ xs.length → h.nextN i r = (r :: xs)[i]?
  backward : ∀ i, i ≤ xs.length → h.flip.nextN i r = (r :: xs.reverse)[i]?
  closed : h.nextN (xs.length + 1) r = some r
  count_eq : h.count r = xs.length

namespace IsList

/-- Read backwards, a ring is a ring. -/
theorem flip (hl : IsList h r xs) : IsList h.flip r xs.reverse := by
  refine ⟨?_, ?_, by rw [List.length_reverse]; exact hl.count_eq⟩
  · rw [List.nodup_cons, List.mem_reverse, List.nodup_reverse, ← List.nodup_cons]
    exact hl.nodup
  · have hreverse : r :: xs.reverse ++ [r] = (r :: xs ++ [r]).reverse := by simp
    rw [hreverse, List.isChain_reverse]
    exact hl.chain.imp fun _ _ hlinked => ⟨hlinked.2, hlinked.1⟩

/-- Following the links from the root visits the nodes in order. -/
theorem nextN_root (hl : IsList h r xs) {i : ℕ} (hi : i ≤ xs.length) :
    h.nextN i r = (r :: xs)[i]? := by
  have hlength : (r :: xs ++ [r]).length = xs.length + 2 := by simp
  suffices h.nextN i r = (r :: xs ++ [r])[i]? by
    rwa [List.getElem?_append_left (Nat.lt_succ_of_le hi)] at this
  induction i with
  | zero => rfl
  | succ i ih =>
    have hlinked := hl.chain.getElem i (by omega)
    rw [Heap.nextN, ih (by omega), List.getElem?_eq_getElem (by omega), Option.bind_some,
      hlinked.1, List.getElem?_eq_getElem (by omega)]

/-- And then comes back to it. -/
theorem nextN_length (hl : IsList h r xs) : h.nextN (xs.length + 1) r = some r := by
  rw [Heap.nextN, hl.nextN_root le_rfl]
  cases xs using List.reverseRecOn with
  | nil => exact hl.next_root
  | append_singleton xs a =>
    have hnext := hl.next_eq
    rw [← List.cons_append, List.length_append, List.length_singleton]
    rw [show xs.length + 1 = (r :: xs).length from rfl, List.getElem?_concat_length]
    exact hnext

/-- **The two links are inverse to each other.** -/
theorem exists_next (hl : IsList h r xs) {a : α} (ha : a ∈ r :: xs) :
    ∃ b ∈ r :: xs, h.next a = some b ∧ h.prev b = some a := by
  rcases List.mem_cons.1 ha with rfl | ha
  · refine ⟨xs.headD a, by cases xs <;> simp, ?_⟩
    exact (show IsList h a ([] ++ xs) from hl).linked
  · obtain ⟨front, back, rfl⟩ := List.append_of_mem ha
    refine ⟨back.headD r, by cases back <;> simp, hl.next_eq, ?_⟩
    have hcut : IsList h r ((front ++ [a]) ++ back) := by simpa using hl
    have hlinked := hcut.linked
    rw [List.getLastD_concat] at hlinked
    exact hlinked.2

theorem exists_prev (hl : IsList h r xs) {a : α} (ha : a ∈ r :: xs) :
    ∃ b ∈ r :: xs, h.prev a = some b ∧ h.next b = some a := by
  obtain ⟨b, hb, hlinked⟩ := hl.flip.exists_next (a := a) (by simpa using ha)
  exact ⟨b, by simpa using hb, hlinked⟩

theorem ring (hl : IsList h r xs) : Ring h r xs where
  next_prev _ ha := hl.exists_next ha
  prev_next _ ha := hl.exists_prev ha
  forward _ hi := hl.nextN_root hi
  backward _ hi := hl.flip.nextN_root (by rwa [List.length_reverse])
  closed := hl.nextN_length
  count_eq := hl.count_eq

/-- Rings at different roots share no node. -/
theorem disjoint (hl : IsList h r xs) (hl' : IsList h s ys) (hrs : r ≠ s) (hr : r ∉ ys)
    (hs : s ∉ xs) : xs.Disjoint ys := by
  -- from a common node on both rings go the same way, so they end at the same root
  have hsame : ∀ back back' x front front', IsList h r (front ++ x :: back) →
      IsList h s (front' ++ x :: back') → s ∉ back → r ∉ back' → False := by
    intro back
    induction back with
    | nil =>
      intro back' x front front' h₁ h₂ _ hr'
      have hnext := h₁.next_eq.symm.trans h₂.next_eq
      cases back' with
      | nil => exact hrs (Option.some_inj.1 hnext)
      | cons y back' =>
        obtain rfl : r = y := Option.some_inj.1 hnext
        exact hr' List.mem_cons_self
    | cons b back ih =>
      intro back' x front front' h₁ h₂ hs' hr'
      have hnext := h₁.next_eq.symm.trans h₂.next_eq
      cases back' with
      | nil =>
        obtain rfl : b = s := Option.some_inj.1 hnext
        exact hs' List.mem_cons_self
      | cons y back' =>
        obtain rfl : b = y := Option.some_inj.1 hnext
        exact ih back' b (front ++ [x]) (front' ++ [x]) (by simpa using h₁) (by simpa using h₂)
          (fun hm => hs' (List.mem_cons_of_mem b hm)) fun hm => hr' (List.mem_cons_of_mem b hm)
  intro x hx hy
  obtain ⟨front, back, rfl⟩ := List.append_of_mem hx
  obtain ⟨front', back', rfl⟩ := List.append_of_mem hy
  exact hsame back back' x front front' hl hl' (fun hm => hs (by simp [hm])) fun hm =>
    hr (by simp [hm])

end IsList

/-! ## What an operation leaves alone -/

/-- From `h` to `h'` nothing changes but the links of the root `r` and of the nodes `xs`, and the
count at `r`. -/
structure Confined (h h' : Heap α) (r : α) (xs : List α) : Prop where
  next_eq : ∀ a, a ∉ r :: xs → h'.next a = h.next a
  prev_eq : ∀ a, a ∉ r :: xs → h'.prev a = h.prev a
  count_eq : ∀ s, s ≠ r → h'.count s = h.count s

theorem Confined.trans {h'' : Heap α} (hc : Confined h h' r xs) (hc' : Confined h' h'' r xs) :
    Confined h h'' r xs where
  next_eq a ha := (hc'.next_eq a ha).trans (hc.next_eq a ha)
  prev_eq a ha := (hc'.prev_eq a ha).trans (hc.prev_eq a ha)
  count_eq s hs := (hc'.count_eq s hs).trans (hc.count_eq s hs)

theorem confined_setNext [DecidableEq α] (h : Heap α) (u : α) (v : Option α) :
    Confined h (h.setNext u v) u [] where
  next_eq _ ha := Function.update_of_ne (fun e => ha (by rw [e]; exact List.mem_cons_self)) _ _
  prev_eq _ _ := rfl
  count_eq _ _ := rfl

theorem confined_setPrev [DecidableEq α] (h : Heap α) (v : α) (u : Option α) :
    Confined h (h.setPrev v u) v [] where
  next_eq _ _ := rfl
  prev_eq _ ha := Function.update_of_ne (fun e => ha (by rw [e]; exact List.mem_cons_self)) _ _
  count_eq _ _ := rfl

theorem confined_clear [DecidableEq α] (h : Heap α) (u : α) : Confined h (h.clear u) u [] :=
  (confined_setNext h u none).trans (confined_setPrev _ u none)

theorem confined_join [DecidableEq α] {d : ℤ} (hu : u ∈ r :: xs) (hv : v ∈ r :: xs) :
    Confined h ((h.join u v).addCount r d) r xs where
  next_eq a ha := by
    have hne : a ≠ u := fun e => ha (e ▸ hu)
    exact Function.update_of_ne hne _ _
  prev_eq a ha := by
    have hne : a ≠ v := fun e => ha (e ▸ hv)
    exact Function.update_of_ne hne _ _
  count_eq s hs := Function.update_of_ne hs _ _

/-- Insertion changes the links of the new node and of its neighbours. -/
theorem confined_insert [DecidableEq α] (h : Heap α) (r x : α) (front back : List α) :
    Confined h (((h.join x (back.headD r)).join (front.getLastD r) x).addCount r 1) r
      (x :: (front ++ back)) := by
  have hlast : front.getLastD r ∈ r :: x :: (front ++ back) := by
    have hmem : front.getLastD r ∈ r :: front := List.getLastD_mem_cons
    simp only [List.mem_cons, List.mem_append] at hmem ⊢
    tauto
  have hfirst : Confined h ((h.join x (back.headD r)).addCount r 0) r (x :: (front ++ back)) :=
    confined_join (by simp) (by cases back <;> simp)
  have hsecond : Confined (h.join x (back.headD r))
      (((h.join x (back.headD r)).join (front.getLastD r) x).addCount r 1) r
      (x :: (front ++ back)) :=
    confined_join hlast (by simp)
  exact
    { next_eq := fun a ha => (hsecond.next_eq a ha).trans (hfirst.next_eq a ha)
      prev_eq := fun a ha => (hsecond.prev_eq a ha).trans (hfirst.prev_eq a ha)
      count_eq := hsecond.count_eq }

/-- A ring that shares no node with the part that changes stays what it is. -/
theorem IsList.of_confined (hl : IsList h s ys) (hc : Confined h h' r xs)
    (hapart : ∀ a ∈ s :: ys, a ∉ r :: xs) : IsList h' s ys := by
  refine ⟨hl.nodup, chain_congr hl.chain (fun u hu => hc.next_eq u (hapart u ?_)) fun v hv =>
    hc.prev_eq v (hapart v ?_), ?_⟩
  · rwa [List.dropLast_concat] at hu
  · have hmem : v ∈ ys ∨ v = s := by simpa using hv
    rcases hmem with hmem | rfl <;> simp [*]
  · rw [hc.count_eq s fun e => hapart s List.mem_cons_self (by simp [e]), hl.count_eq]

/-! ## A list library -/

/-- The functions of a list library, each with the address of the list's root first. -/
structure ListModule (α : Type*) where
  peekHead : Heap α → α → Option α
  insertTailDirect : Heap α → α → α → Heap α
  removeDirect : Heap α → α → α → Heap α

namespace ListModule

/-- What its callers rely on. -/
structure Lawful [DecidableEq α] (M : ListModule α) : Prop where
  /-- The first node, or `NULL` if there is none. -/
  peekHead : ∀ {h r xs}, IsList h r xs → M.peekHead h r = xs.head?
  /-- A node that is not in the list becomes the last one. -/
  insertTail : ∀ {h r xs x}, IsList h r xs → x ∉ r :: xs →
    IsList (M.insertTailDirect h r x) r (xs ++ [x])
  insertTail_confined : ∀ {h r xs x}, IsList h r xs → x ∉ r :: xs →
    Confined h (M.insertTailDirect h r x) r (x :: xs)
  /-- A node of the list is taken out. -/
  remove : ∀ {h r xs x}, IsList h r xs → x ∈ xs → IsList (M.removeDirect h r x) r (xs.erase x)
  remove_confined : ∀ {h r xs x}, IsList h r xs → x ∈ xs →
    Confined h (M.removeDirect h r x) r xs

/-- The library with the least writes. -/
def reference [DecidableEq α] : ListModule α where
  peekHead h r := if h.next r = some r then none else h.next r
  insertTailDirect h r x :=
    match h.prev r with
    | some p => ((h.join x r).join p x).addCount r 1
    | none => h
  removeDirect h r x :=
    match h.prev x, h.next x with
    | some p, some n => (h.join p n).addCount r (-1)
    | _, _ => h

theorem reference_lawful [DecidableEq α] : (reference : ListModule α).Lawful where
  peekHead {h r xs} hl := by
    have hnext := hl.next_root
    cases xs with
    | nil => exact if_pos hnext
    | cons a xs =>
      have hne : h.next r ≠ some r := by
        rw [hnext]
        exact fun e => hl.root_notMem (by rw [← Option.some_inj.1 e]; exact List.mem_cons_self)
      exact (if_neg hne).trans hnext
  insertTail {h r xs x} hl hx := by
    have hcut : IsList h r (xs ++ []) := by rwa [List.append_nil]
    simp only [reference, hl.prev_root]
    exact hcut.insert (by rwa [List.append_nil])
  insertTail_confined {h r xs x} hl hx := by
    simp only [reference, hl.prev_root]
    have hconfined := confined_insert h r x xs []
    rwa [List.append_nil] at hconfined
  remove {h r xs x} hl hx := by
    obtain ⟨front, back, -, rfl, herase⟩ := List.exists_erase_eq hx
    rw [herase]
    simpa only [reference, hl.prev_eq, hl.next_eq] using hl.remove
  remove_confined {h r xs x} hl hx := by
    obtain ⟨front, back, rfl⟩ := List.append_of_mem hx
    simp only [reference, hl.prev_eq, hl.next_eq]
    refine confined_join (List.mem_append_left (x :: back) List.getLastD_mem_cons) ?_
    cases back <;> simp

end ListModule

/-- A list library with the two functions more that a scheduler uses. -/
structure ListLibrary (α : Type*) extends ListModule α where
  init : Heap α → α → Heap α
  isEmpty : Heap α → α → Bool

namespace ListLibrary

/-- What its callers rely on. -/
structure Lawful [DecidableEq α] (L : ListLibrary α) : Prop extends L.toListModule.Lawful where
  /-- Whatever the memory held, the list is empty. -/
  init : ∀ {h r}, IsList (L.init h r) r []
  init_confined : ∀ {h r}, Confined h (L.init h r) r []
  isEmpty : ∀ {h r xs}, IsList h r xs → (L.isEmpty h r = true ↔ xs = [])

/-- The library with the least writes. -/
def reference [DecidableEq α] : ListLibrary α where
  toListModule := ListModule.reference
  init h r := (h.join r r).setCount r 0
  isEmpty h r := h.next r = some r

theorem reference_lawful [DecidableEq α] : (reference : ListLibrary α).Lawful where
  toLawful := ListModule.reference_lawful
  init := .nil (Function.update_self ..) (Function.update_self ..) (Function.update_self ..)
  init_confined :=
    { next_eq := fun a ha => Function.update_of_ne (fun e => ha (by simp [e])) _ _
      prev_eq := fun a ha => Function.update_of_ne (fun e => ha (by simp [e])) _ _
      count_eq := fun s hs => Function.update_of_ne hs _ _ }
  isEmpty {h r xs} hl := by
    rw [reference, decide_eq_true_eq, hl.next_root, Option.some_inj]
    cases xs with
    | nil => simp
    | cons a xs =>
      have hne : a ≠ r := fun e => hl.root_notMem (by simp [e])
      simpa using hne

end ListLibrary

end Circular
