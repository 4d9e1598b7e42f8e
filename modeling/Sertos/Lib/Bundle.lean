import Mathlib.Data.List.Sort
import Mathlib.Data.List.Nodup
import Mathlib.Logic.Function.Basic

/-!
# Bundles of intrusive lists

An intrusive list links its elements through a node stored inside each element, so one node can
be in one list at a time, and unlinking a node needs no list at all: its neighbours are joined
wherever they are.  A list header holds the links and a count, and the count is adjusted through
the header that the *caller* names.

A `Bundle` is the family of all lists that share one node per element.  `Bundle.remove B i a`
therefore takes `a` out of whichever list it is in and lowers the count of list `i`; when `a` is
in list `i` this is the ordinary removal, and otherwise the two counts go wrong, which is exactly
what happens to the header of a circular doubly linked list.

`Bundle.WF` is the contract under which a bundle is a family of sequences: no node twice, no node
in two lists, every count exact.  Inserting a free node and removing a node from the list it is
in keep it.
-/

set_option autoImplicit false

namespace Intrusive

/-- A list header: the sequence its links spell out, and the stored count.  The count is unsigned; a
negative integer stands for one that a removal through the wrong header has taken below zero. -/
structure LinkedList (α : Type*) where
  /-- The nodes, head first. -/
  nodes : List α
  /-- The stored number of nodes. -/
  count : ℤ
deriving DecidableEq, Repr

/-- `count > n` on an unsigned count, which has wrapped round if it is below zero. -/
def Exceeds (count : ℤ) (n : ℕ) : Prop := n < count ∨ count < 0

instance (count : ℤ) (n : ℕ) : Decidable (Exceeds count n) :=
  inferInstanceAs (Decidable ((n : ℤ) < count ∨ count < 0))

@[simp] theorem exceeds_natCast {m n : ℕ} : Exceeds m n ↔ n < m := by
  rw [Exceeds]
  omega

namespace LinkedList

variable {α : Type*}

/-- The list `linked_list_init` sets up. -/
def init : LinkedList α := ⟨[], 0⟩

@[simp] theorem init_nodes : (init : LinkedList α).nodes = [] := rfl

@[simp] theorem init_count : (init : LinkedList α).count = 0 := rfl

/-- No node twice, and the count is the length. -/
structure WF (l : LinkedList α) : Prop where
  nodup : l.nodes.Nodup
  count_eq : l.count = l.nodes.length

theorem init_wf : (init : LinkedList α).WF := ⟨List.nodup_nil, rfl⟩

/-- The list of the nodes `l`. -/
def ofNodes (l : List α) : LinkedList α := ⟨l, l.length⟩

@[simp] theorem ofNodes_nodes (l : List α) : (ofNodes l).nodes = l := rfl

theorem WF.eq_ofNodes {l : LinkedList α} (h : l.WF) : l = ofNodes l.nodes := by
  rw [ofNodes, ← h.count_eq]

/-- Appends a node. -/
def insertTail (l : LinkedList α) (a : α) : LinkedList α := ⟨l.nodes ++ [a], l.count + 1⟩

@[simp] theorem mem_insertTail {l : LinkedList α} {a b : α} :
    b ∈ (l.insertTail a).nodes ↔ b ∈ l.nodes ∨ b = a := by
  simp [insertTail]

theorem WF.insertTail {l : LinkedList α} (h : l.WF) {a : α} (ha : a ∉ l.nodes) :
    (l.insertTail a).WF := by
  refine ⟨?_, by simp [LinkedList.insertTail, h.count_eq]⟩
  rw [LinkedList.insertTail, List.nodup_append]
  refine ⟨h.nodup, List.nodup_singleton a, ?_⟩
  rintro b hb c hc rfl
  exact ha (List.mem_singleton.1 hc ▸ hb)

/-- Unlinks a node. -/
def remove [DecidableEq α] (l : LinkedList α) (a : α) : LinkedList α :=
  ⟨l.nodes.erase a, l.count - 1⟩

theorem WF.mem_remove [DecidableEq α] {l : LinkedList α} (h : l.WF) {a b : α} :
    b ∈ (l.remove a).nodes ↔ b ≠ a ∧ b ∈ l.nodes :=
  h.nodup.mem_erase_iff

theorem WF.remove [DecidableEq α] {l : LinkedList α} (h : l.WF) {a : α} (ha : a ∈ l.nodes) :
    (l.remove a).WF := by
  refine ⟨h.nodup.erase a, ?_⟩
  have hpos : 0 < l.nodes.length := List.length_pos_of_mem ha
  simp only [LinkedList.remove, List.length_erase_of_mem ha, h.count_eq]
  omega

/-- Splices a node in front of the first one whose key is lower. -/
def insertByKey (key : α → ℕ) (l : LinkedList α) (a : α) : LinkedList α :=
  ⟨l.nodes.orderedInsert (fun a b => key b < key a) a, l.count + 1⟩

@[simp] theorem mem_insertByKey {key : α → ℕ} {l : LinkedList α} {a b : α} :
    b ∈ (l.insertByKey key a).nodes ↔ b ∈ l.nodes ∨ b = a := by
  simp [insertByKey, or_comm]

theorem perm_insertByKey (key : α → ℕ) (l : LinkedList α) (a : α) :
    (l.insertByKey key a).nodes.Perm (a :: l.nodes) :=
  List.perm_orderedInsert _ a l.nodes

theorem nodup_insertByKey {key : α → ℕ} {l : LinkedList α} {a : α} (h : l.nodes.Nodup)
    (ha : a ∉ l.nodes) : (l.insertByKey key a).nodes.Nodup :=
  (perm_insertByKey key l a).nodup_iff.2 (List.nodup_cons.2 ⟨ha, h⟩)

theorem WF.insertByKey {key : α → ℕ} {l : LinkedList α} (h : l.WF) {a : α} (ha : a ∉ l.nodes) :
    (l.insertByKey key a).WF := by
  refine ⟨nodup_insertByKey h.nodup ha, ?_⟩
  simp [LinkedList.insertByKey, h.count_eq, List.orderedInsert_length]

/-- The keys do not rise from the head to the tail. -/
def Descending (key : α → ℕ) (l : LinkedList α) : Prop :=
  l.nodes.Pairwise fun a b => key b ≤ key a

/-- Splicing in front of the first lower key keeps the order. -/
theorem Descending.insertByKey {key : α → ℕ} {l : LinkedList α} (h : l.Descending key) (a : α) :
    (l.insertByKey key a).Descending key := by
  obtain ⟨nodes, count⟩ := l
  simp only [Descending, LinkedList.insertByKey] at h ⊢
  induction nodes with
  | nil => simp
  | cons b l ih =>
    obtain ⟨hb, hl⟩ := List.pairwise_cons.1 h
    rw [List.orderedInsert_cons]
    by_cases hba : key b < key a
    · rw [if_pos hba, List.pairwise_cons]
      refine ⟨fun x hx => ?_, h⟩
      rcases List.mem_cons.1 hx with rfl | hx
      · exact hba.le
      · exact (hb x hx).trans hba.le
    · rw [if_neg hba, List.pairwise_cons]
      refine ⟨fun x hx => ?_, ih hl⟩
      rcases List.mem_cons.1 ((List.perm_orderedInsert _ a l).mem_iff.1 hx) with rfl | hx
      · exact not_lt.1 hba
      · exact hb x hx

/-- The new node comes after all keys that are at least as high, and before all lower ones. -/
theorem Descending.exists_split {key : α → ℕ} {l : LinkedList α} (h : l.Descending key) (a : α) :
    ∃ front back, l.nodes = front ++ back ∧ (l.insertByKey key a).nodes = front ++ a :: back ∧
      (∀ b ∈ front, key a ≤ key b) ∧ ∀ b ∈ back, key b < key a := by
  obtain ⟨nodes, count⟩ := l
  simp only [Descending, LinkedList.insertByKey] at h ⊢
  induction nodes with
  | nil => exact ⟨[], [], rfl, rfl, by simp, by simp⟩
  | cons b l ih =>
    obtain ⟨hb, hl⟩ := List.pairwise_cons.1 h
    rw [List.orderedInsert_cons]
    by_cases hba : key b < key a
    · refine ⟨[], b :: l, rfl, if_pos hba, by simp, fun x hx => ?_⟩
      rcases List.mem_cons.1 hx with rfl | hx
      · exact hba
      · exact (hb x hx).trans_lt hba
    · obtain ⟨front, back, hsplit, hinsert, hfront, hback⟩ := ih hl
      refine ⟨b :: front, back, by rw [hsplit]; rfl, ?_, fun x hx => ?_, hback⟩
      · rw [if_neg hba, hinsert]
        rfl
      · rcases List.mem_cons.1 hx with rfl | hx
        · exact not_lt.1 hba
        · exact hfront x hx

end LinkedList

/-- The lists that share one intrusive node per element. -/
abbrev Bundle (ι α : Type*) := ι → LinkedList α

namespace Bundle

variable {ι α : Type*}

/-- The node of `a` is in no list. -/
def Free (B : Bundle ι α) (a : α) : Prop := ∀ i, a ∉ (B i).nodes

/-- The contract of the list operations: every list is a sequence with an exact count, and no
node is in two lists. -/
structure WF (B : Bundle ι α) : Prop where
  list : ∀ i, (B i).WF
  unique : ∀ i j a, a ∈ (B i).nodes → a ∈ (B j).nodes → i = j

/-- A bundle of empty lists is well formed. -/
theorem init_wf : WF (fun _ : ι => (LinkedList.init : LinkedList α)) :=
  ⟨fun _ => LinkedList.init_wf, fun _ _ _ h => absurd h List.not_mem_nil⟩

theorem WF.notMem_of_ne {B : Bundle ι α} {i j : ι} {a : α} (h : B.WF) (ha : a ∈ (B i).nodes)
    (hij : j ≠ i) : a ∉ (B j).nodes :=
  fun hj => hij (h.unique j i a hj ha)

section Insert

variable [DecidableEq ι] {B : Bundle ι α} {i j : ι} {a b : α}

/-- Appends the node of `a` to list `i`. -/
def insertTail (B : Bundle ι α) (i : ι) (a : α) : Bundle ι α :=
  Function.update B i ((B i).insertTail a)

/-- Splices the node of `a` into list `i`, in front of the first element whose key is lower. -/
def insertByKey (key : α → ℕ) (B : Bundle ι α) (i : ι) (a : α) : Bundle ι α :=
  Function.update B i ((B i).insertByKey key a)

@[simp] theorem insertTail_same (B : Bundle ι α) (i : ι) (a : α) :
    B.insertTail i a i = (B i).insertTail a := by
  simp [insertTail]

theorem insertTail_of_ne (h : j ≠ i) : B.insertTail i a j = B j := by
  simp [insertTail, h]

@[simp] theorem mem_insertTail :
    b ∈ (B.insertTail i a j).nodes ↔ b ∈ (B j).nodes ∨ (j = i ∧ b = a) := by
  by_cases h : j = i
  · subst h; simp
  · simp [insertTail_of_ne h, h]

@[simp] theorem insertByKey_same (key : α → ℕ) (B : Bundle ι α) (i : ι) (a : α) :
    B.insertByKey key i a i = (B i).insertByKey key a := by
  simp [insertByKey]

theorem insertByKey_of_ne {key : α → ℕ} (h : j ≠ i) : B.insertByKey key i a j = B j := by
  simp [insertByKey, h]

@[simp] theorem mem_insertByKey {key : α → ℕ} :
    b ∈ (B.insertByKey key i a j).nodes ↔ b ∈ (B j).nodes ∨ (j = i ∧ b = a) := by
  by_cases h : j = i
  · subst h; simp
  · simp [insertByKey_of_ne h, h]

/-- Appending leaves the head of a list where it is. -/
theorem head?_insertTail (hb : (B j).nodes.head? = some b) :
    (B.insertTail i a j).nodes.head? = some b := by
  by_cases h : j = i
  · subst h
    rw [insertTail_same, LinkedList.insertTail, List.head?_append, hb, Option.some_or]
  · rw [insertTail_of_ne h]
    exact hb

theorem WF.insertTail (h : B.WF) (ha : B.Free a) : (Bundle.insertTail B i a).WF := by
  constructor
  · intro j
    by_cases hj : j = i
    · subst hj; simpa using (h.list j).insertTail (ha j)
    · rw [insertTail_of_ne hj]; exact h.list j
  · intro j l b hj hl
    rw [mem_insertTail] at hj hl
    rcases hj with hj | ⟨rfl, rfl⟩ <;> rcases hl with hl | ⟨rfl, hb⟩
    · exact h.unique j l b hj hl
    · exact absurd hj (hb ▸ ha j)
    · exact absurd hl (ha l)
    · rfl

theorem WF.insertByKey {key : α → ℕ} (h : B.WF) (ha : B.Free a) :
    (Bundle.insertByKey key B i a).WF := by
  constructor
  · intro j
    by_cases hj : j = i
    · subst hj; simpa using (h.list j).insertByKey (ha j)
    · rw [insertByKey_of_ne hj]; exact h.list j
  · intro j l b hj hl
    rw [mem_insertByKey] at hj hl
    rcases hj with hj | ⟨rfl, rfl⟩ <;> rcases hl with hl | ⟨rfl, hb⟩
    · exact h.unique j l b hj hl
    · exact absurd hj (hb ▸ ha j)
    · exact absurd hl (ha l)
    · rfl

end Insert

section Remove

variable [DecidableEq ι] [DecidableEq α] {B : Bundle ι α} {i j : ι} {a b : α}

/-- Unlinks the node of `a` from its neighbours and lowers the count of list `i`. -/
def remove (B : Bundle ι α) (i : ι) (a : α) : Bundle ι α := fun j =>
  ⟨(B j).nodes.erase a, if j = i then (B j).count - 1 else (B j).count⟩

theorem mem_remove_of_ne (h : b ≠ a) : b ∈ (B.remove i a j).nodes ↔ b ∈ (B j).nodes :=
  List.mem_erase_of_ne h

theorem mem_of_mem_remove (h : b ∈ (B.remove i a j).nodes) : b ∈ (B j).nodes :=
  List.mem_of_mem_erase h

/-- Unlinking another node leaves the head of a list where it is. -/
theorem head?_remove (hba : b ≠ a) (hb : (B j).nodes.head? = some b) :
    (B.remove i a j).nodes.head? = some b := by
  obtain ⟨l, hl⟩ := List.head?_eq_some_iff.1 hb
  rw [remove, hl, List.erase_cons_tail (by simpa using hba), List.head?_cons]

namespace WF

theorem mem_remove (h : B.WF) : b ∈ (B.remove i a j).nodes ↔ b ≠ a ∧ b ∈ (B j).nodes :=
  (h.list j).nodup.mem_erase_iff

theorem free_remove (h : B.WF) : (B.remove i a).Free a :=
  fun _ hm => (h.mem_remove.1 hm).1 rfl

theorem remove_of_ne (h : B.WF) (ha : a ∈ (B i).nodes) (hij : j ≠ i) : B.remove i a j = B j := by
  rw [remove, if_neg hij, List.erase_of_not_mem (h.notMem_of_ne ha hij)]

theorem remove (h : B.WF) (ha : a ∈ (B i).nodes) : (B.remove i a).WF := by
  constructor
  · intro j
    by_cases hj : j = i
    · subst hj
      refine ⟨(h.list j).nodup.erase a, ?_⟩
      have hpos : 0 < (B j).nodes.length := List.length_pos_of_mem ha
      simp only [Bundle.remove, if_true, List.length_erase_of_mem ha, (h.list j).count_eq]
      omega
    · rw [h.remove_of_ne ha hj]; exact h.list j
  · intro j l b hj hl
    exact h.unique j l b (mem_of_mem_remove hj) (mem_of_mem_remove hl)

end WF

end Remove

end Bundle

end Intrusive
