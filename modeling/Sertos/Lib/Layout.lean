import Sertos.Lib.Bundle
import Sertos.Lib.Circular

/-!
# Bundles of lists in memory

A `Layout` says where the lists of a bundle are: which address is the root of a list, and which is
the node of an element.  A heap spells a bundle (`Layout.Spells`) if the ring at each root consists
of the nodes of the list's elements.  What a bundle has to satisfy to be well formed is then true of
itself (`Layout.Spells.wf`), and the operations of a lawful list library are those of
`Intrusive.Bundle`.

Two layouts that have no address in common can share a heap; an operation on one leaves the other
alone (`Layout.Spells.of_confined`).
-/

set_option autoImplicit false

namespace Circular

open Intrusive

/-- The addresses of the roots and of the nodes. -/
structure Layout (ι α A : Type*) where
  root : ι → A
  node : α → A
  root_injective : Function.Injective root
  node_injective : Function.Injective node
  root_ne_node : ∀ i a, root i ≠ node a

namespace Layout

variable {ι α κ β A : Type*} {S : Layout ι α A} {T : Layout κ β A} {h h' : Heap A}
  {B : Bundle ι α} {C : Bundle κ β} {i j : ι} {a : α} {M : ListModule A}

/-- The addresses of a list. -/
def ring (S : Layout ι α A) (i : ι) (l : List α) : List A := S.root i :: l.map S.node

theorem mem_map_node {l : List α} : S.node a ∈ l.map S.node ↔ a ∈ l :=
  List.mem_map_of_injective S.node_injective

theorem root_notMem (i : ι) (l : List α) : S.root i ∉ l.map S.node := by
  rw [List.mem_map]
  rintro ⟨a, -, e⟩
  exact S.root_ne_node i a e.symm

theorem node_mem_ring {l : List α} : S.node a ∈ S.ring i l ↔ a ∈ l := by
  rw [ring, List.mem_cons, mem_map_node]
  exact or_iff_right fun e => S.root_ne_node i a e.symm

/-- The heap spells out the lists of the bundle. -/
structure Spells (S : Layout ι α A) (h : Heap A) (B : Bundle ι α) : Prop where
  list : ∀ i, IsList h (S.root i) ((B i).nodes.map S.node)
  count_eq : ∀ i, (B i).count = h.count (S.root i)

/-- The two layouts have no address in common. -/
structure Apart (S : Layout ι α A) (T : Layout κ β A) : Prop where
  root_root : ∀ i j, S.root i ≠ T.root j
  root_node : ∀ i b, S.root i ≠ T.node b
  node_root : ∀ a j, S.node a ≠ T.root j
  node_node : ∀ a b, S.node a ≠ T.node b

theorem Apart.node_notMem_ring (hST : S.Apart T) {k : κ} {l : List β} : S.node a ∉ T.ring k l := by
  simp only [ring, List.mem_cons, List.mem_map, not_or, not_exists, not_and]
  exact ⟨hST.node_root a k, fun b _ e => hST.node_node a b e.symm⟩

theorem Apart.symm (hST : S.Apart T) : T.Apart S where
  root_root i j := (hST.root_root j i).symm
  root_node i b := (hST.node_root b i).symm
  node_root a j := (hST.root_node j a).symm
  node_node a b := (hST.node_node b a).symm

/-- What lies in rings of one layout is in none of the other. -/
theorem Apart.notMem_ring (hST : S.Apart T) {k : κ} {l : List α} {l' : List β} {x : A}
    (hx : x ∈ S.ring i l) : x ∉ T.ring k l' := by
  simp only [ring, List.mem_cons, List.mem_map] at hx ⊢
  rintro (rfl | ⟨b, -, rfl⟩)
  · rcases hx with e | ⟨a, -, e⟩
    · exact hST.root_root i k e.symm
    · exact hST.node_root a k e
  · rcases hx with e | ⟨a, -, e⟩
    · exact hST.root_node i b e.symm
    · exact hST.node_node a b e

namespace Spells

theorem disjoint (hS : S.Spells h B) (hij : i ≠ j) : (B i).nodes.Disjoint (B j).nodes := by
  intro a hi hj
  have hroots : S.root i ≠ S.root j := fun e => hij (S.root_injective e)
  exact (hS.list i).disjoint (hS.list j) hroots (S.root_notMem i _) (S.root_notMem j _)
    (List.mem_map_of_mem hi) (List.mem_map_of_mem hj)

/-- **A bundle in memory is well formed.** -/
theorem wf (hS : S.Spells h B) : B.WF where
  list i :=
    { nodup := (List.nodup_cons.1 (hS.list i).nodup).2.of_map S.node
      count_eq := by rw [hS.count_eq, (hS.list i).count_eq, List.length_map] }
  unique i j a hi hj := by
    by_contra hij
    exact hS.disjoint hij hi hj

theorem linked_of_mem (hS : S.Spells h B) (ha : a ∈ (B i).nodes) : (h.next (S.node a)).isSome := by
  obtain ⟨b, -, hnext, -⟩ := (hS.list i).exists_next
    (List.mem_cons_of_mem _ (List.mem_map_of_mem (f := S.node) ha))
  rw [hnext]
  rfl

/-- Another list of the bundle keeps its ring. -/
theorem list_of_confined (hS : S.Spells h B) {l : List α}
    (hc : Confined h h' (S.root i) (l.map S.node)) (hij : j ≠ i)
    (hl : ∀ a ∈ l, a ∉ (B j).nodes) : IsList h' (S.root j) ((B j).nodes.map S.node) := by
  refine (hS.list j).of_confined hc fun x hx => ?_
  have hx : x ∈ S.ring j (B j).nodes := hx
  show x ∉ S.ring i l
  simp only [ring, List.mem_cons, List.mem_map] at hx ⊢
  rintro (rfl | ⟨a, ha, rfl⟩)
  · rcases hx with e | ⟨a, -, e⟩
    · exact hij (S.root_injective e).symm
    · exact S.root_ne_node i a e.symm
  · rcases hx with e | ⟨b, hb, e⟩
    · exact S.root_ne_node j a e.symm
    · exact hl a ha (S.node_injective e ▸ hb)

/-- A change in one layout leaves the other alone. -/
theorem of_confined (hT : T.Spells h C) (hST : S.Apart T) {l : List α}
    (hc : Confined h h' (S.root i) (l.map S.node)) : T.Spells h' C where
  list k := (hT.list k).of_confined hc fun x hx => hST.symm.notMem_ring (S := T) (T := S) hx
  count_eq k := by rw [hc.count_eq _ (hST.root_root i k).symm, hT.count_eq]

/-- What happens to a node that is in no ring does not matter. -/
theorem of_confined_node (hS : S.Spells h B) {x : A} (hc : Confined h h' x [])
    (hx : ∀ i, x ∉ S.ring i (B i).nodes) : S.Spells h' B where
  list i := (hS.list i).of_confined hc fun y hy => by
    rw [List.mem_singleton]
    exact fun e => hx i (e ▸ hy)
  count_eq i := by
    have hroot : S.root i ≠ x := fun e => hx i (by rw [← e]; exact List.mem_cons_self)
    rw [hc.count_eq _ hroot, hS.count_eq]

/-- One list changes. -/
theorem update [DecidableEq ι] (hS : S.Spells h B) {l : List α} {L : LinkedList α}
    (hc : Confined h h' (S.root i) (l.map S.node))
    (hl : ∀ a ∈ l, ∀ j, j ≠ i → a ∉ (B j).nodes)
    (hL : IsList h' (S.root i) (L.nodes.map S.node)) (hcount : L.count = L.nodes.length) :
    S.Spells h' (Function.update B i L) where
  list j := by
    by_cases hij : j = i
    · subst hij
      rwa [Function.update_self]
    · rw [Function.update_of_ne hij]
      exact hS.list_of_confined hc hij fun a ha => hl a ha j hij
  count_eq j := by
    by_cases hij : j = i
    · subst hij
      rw [Function.update_self, hL.count_eq, List.length_map, hcount]
    · have hroot : S.root j ≠ S.root i := fun e => hij (S.root_injective e)
      rw [Function.update_of_ne hij, hc.count_eq _ hroot, hS.count_eq]

variable [DecidableEq ι] [DecidableEq A]

/-- **Insertion at the tail is that of the bundle.** -/
theorem insertTail (hM : M.Lawful) (hS : S.Spells h B) (ha : B.Free a) :
    S.Spells (M.insertTailDirect h (S.root i) (S.node a)) (B.insertTail i a) := by
  have hnew : S.node a ∉ S.root i :: (B i).nodes.map S.node := by
    show S.node a ∉ S.ring i _
    rw [node_mem_ring]
    exact ha i
  refine hS.update (l := a :: (B i).nodes) (hM.insertTail_confined (hS.list i) hnew)
    (fun b hb j hij => ?_) ?_ ?_
  · rcases List.mem_cons.1 hb with rfl | hb
    · exact ha j
    · exact hS.disjoint hij.symm hb
  · have hlist := hM.insertTail (hS.list i) hnew
    rwa [← List.map_singleton, ← List.map_append] at hlist
  · simp [LinkedList.insertTail, (hS.wf.list i).count_eq]

/-- **Removal is that of the bundle.** -/
theorem remove [DecidableEq α] (hM : M.Lawful) (hS : S.Spells h B) (ha : a ∈ (B i).nodes) :
    S.Spells (M.removeDirect h (S.root i) (S.node a)) (B.remove i a) := by
  have hmem : S.node a ∈ (B i).nodes.map S.node := List.mem_map_of_mem ha
  have hremove : B.remove i a = Function.update B i (B.remove i a i) := by
    funext j
    by_cases hij : j = i
    · subst hij
      rw [Function.update_self]
    · rw [Function.update_of_ne hij, hS.wf.remove_of_ne ha hij]
  rw [hremove]
  refine hS.update (l := (B i).nodes) (hM.remove_confined (hS.list i) hmem)
    (fun b hb j hij => hS.disjoint hij.symm hb) ?_ ((hS.wf.remove ha).list i).count_eq
  have hlist := hM.remove (hS.list i) hmem
  rwa [← List.map_erase S.node_injective] at hlist

end Spells

end Layout

end Circular
