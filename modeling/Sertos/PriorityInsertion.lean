import Mathlib.Data.List.TakeWhile
import Sertos.Links

/-!
# Insertion into a wait list, link by link

`insert_wait_list_priority` is the one place where the scheduler splices a node into a list itself:
it stops in front of the first task of lower priority and writes four links.  `linkBefore` has the
four assignments in the order of the source, the second of which reads a link that the fourth
overwrites.

`insertFrom_spec` is the invariant of the scan, over the part of the list that is still ahead;
`insertWaitListPriority_splices` is what comes of it, and `Represents.insertWaitListPriority` says
that it is the insertion of the kernel.
-/

set_option autoImplicit false

namespace Sertos

open Intrusive Circular

namespace ListMemory

/-- The assignments in front of the `return` of the loop.  There is no result if a `NULL` is
dereferenced. -/
def linkBefore (heap : Heap NodeAddr) (W : WaitList) (t : TaskId) (curr : NodeAddr) :
    Option (Heap NodeAddr) := do
  let heap := heap.setNext (.eventNode t) (some curr)
  let heap := heap.setPrev (.eventNode t) (heap.prev curr)
  let prev ← heap.prev curr
  let heap := heap.setNext prev (some (.eventNode t))
  let heap := heap.setPrev curr (some (.eventNode t))
  return heap.addCount (.waitRoot W) 1

variable (M : ListModule NodeAddr) (m : ListMemory) (W : WaitList) (t : TaskId)

/-- At most `n` rounds of the loop of `insert_wait_list_priority`, and what follows it. -/
def insertFrom : ℕ → Option NodeAddr → Option (Heap NodeAddr)
  | 0, _ => none
  | _ + 1, none => some (M.insertTailDirect m.heap (.waitRoot W) (.eventNode t))
  | n + 1, some curr => do
    let iterTask ← curr.eventOwner
    if (m.tcb iterTask).priority < (m.tcb t).priority then linkBefore m.heap W t curr
    else
      let curr := m.heap.next curr
      insertFrom n (if curr = some (.waitRoot W) then none else curr)

/-- `insert_wait_list_priority`, with at most `n` rounds of its loop. -/
def insertWaitListPriority (n : ℕ) : Option (Heap NodeAddr) :=
  insertFrom M m W t n (M.peekHead m.heap (.waitRoot W))

end ListMemory

open ListMemory

variable {M : ListModule NodeAddr} {m : ListMemory} {W : WaitList} {t : TaskId}
  {front back ts : List TaskId}

/-- The four assignments are a splice. -/
theorem linkBefore_eq {heap : Heap NodeAddr} {curr prev : NodeAddr} (hne : curr ≠ .eventNode t)
    (hprev : heap.prev curr = some prev) :
    linkBefore heap W t curr =
      some (((heap.join (.eventNode t) curr).join prev (.eventNode t)).addCount
        (.waitRoot W) 1) := by
  have hread : ((heap.setNext (.eventNode t) (some curr)).setPrev (.eventNode t)
      (some prev)).prev curr = some prev :=
    (Heap.setPrev_prev_of_ne hne).trans hprev
  simp only [linkBefore, Heap.setNext_prev, hprev, hread, Option.bind_eq_bind, Option.bind_some,
    Option.pure_def]
  simp only [Heap.addCount, Heap.setPrev, Heap.setNext, Heap.join]
  rw [Function.update_comm hne]

/-- **The scan**, with `front` behind it and `back` ahead. -/
theorem insertFrom_spec (hM : M.Lawful)
    (hl : IsList m.heap (.waitRoot W) ((front ++ back).map .eventNode)) (ht : t ∉ front ++ back) :
    ∃ heap, (∀ n, back.length < n →
        insertFrom M m W t n (back.head?.map .eventNode) = some heap) ∧
      IsList heap (.waitRoot W) ((front ++
        back.orderedInsert (fun a b => (m.tcb b).priority < (m.tcb a).priority) t).map .eventNode) ∧
      Confined m.heap heap (.waitRoot W) (.eventNode t :: (front ++ back).map .eventNode) := by
  have hnew : NodeAddr.eventNode t ∉ .waitRoot W :: (front ++ back).map .eventNode := fun hm =>
    ht (waitLayout.node_mem_ring.1 hm)
  induction back generalizing front with
  | nil =>
    refine ⟨M.insertTailDirect m.heap (.waitRoot W) (.eventNode t), fun n hn => ?_, ?_,
      hM.insertTail_confined hl hnew⟩
    · obtain ⟨n, rfl⟩ := Nat.exists_eq_succ_of_ne_zero (Nat.pos_iff_ne_zero.1 hn)
      rfl
    · have hlist := hM.insertTail hl hnew
      simpa using hlist
  | cons u back ih =>
    have hcut : IsList m.heap (.waitRoot W)
        (front.map .eventNode ++ .eventNode u :: back.map .eventNode) := by
      simpa using hl
    by_cases hlower : (m.tcb u).priority < (m.tcb t).priority
    · -- the task is spliced in front of `u`
      have hne : NodeAddr.eventNode u ≠ .eventNode t := by
        rintro ⟨⟩
        exact ht (by simp)
      have hinsert := hcut.insert (x := .eventNode t) (by simpa using hnew)
      have hconfined := confined_insert m.heap (.waitRoot W) (.eventNode t)
        (front.map .eventNode) (.eventNode u :: back.map .eventNode)
      have hprev := hcut.prev_eq
      generalize (front.map NodeAddr.eventNode).getLastD (.waitRoot W) = prev
        at hinsert hconfined hprev
      refine ⟨_, fun n hn => ?_, ?_, by simpa using hconfined⟩
      · obtain ⟨n, rfl⟩ := Nat.exists_eq_succ_of_ne_zero (Nat.ne_zero_of_lt hn)
        simp only [insertFrom, List.head?_cons, Option.map_some, NodeAddr.eventOwner,
          Option.bind_eq_bind, Option.bind_some, if_pos hlower]
        exact linkBefore_eq hne hprev
      · rw [List.orderedInsert_cons, if_pos hlower]
        simpa using hinsert
    · obtain ⟨heap, hrun, hlist, hconfined⟩ := @ih (front ++ [u]) (by simpa using hl)
        (by simpa using ht) (by simpa using hnew)
      refine ⟨heap, fun n hn => ?_, ?_, by simpa using hconfined⟩
      · obtain ⟨n, rfl⟩ := Nat.exists_eq_succ_of_ne_zero (Nat.ne_zero_of_lt hn)
        simp only [insertFrom, List.head?_cons, Option.map_some, NodeAddr.eventOwner,
          Option.bind_eq_bind, Option.bind_some, if_neg hlower]
        rw [hcut.next_or_null, List.head?_map]
        exact hrun n (Nat.lt_of_succ_lt_succ hn)
      · rw [List.orderedInsert_cons, if_neg hlower]
        simpa using hlist

/-- **The kernel's insertion into a wait list is what the code does to the links.** -/
theorem Represents.insertWaitListPriority {k : Kernel} (hM : M.Lawful) (h : Represents m k)
    (ht : k.waitLists.Free t) : ∃ heap,
      (∀ n, (k.waitLists W).nodes.length < n → m.insertWaitListPriority M W t n = some heap) ∧
      Represents { m with heap := heap } (Scheduler.insertWaitListPriority k W t) := by
  obtain ⟨heap, hrun, hnew, hconfined⟩ :=
    @insertFrom_spec M m W t [] (k.waitLists W).nodes hM (h.waits.list W) (ht W)
  simp only [h.tcb_eq, Tcb.fields, List.nil_append] at hnew hconfined
  have hcount : ((k.waitLists W).insertByKey (fun u => (k.tcb u).priority) t).count =
      ((k.waitLists W).insertByKey (fun u => (k.tcb u).priority) t).nodes.length :=
    ((h.waits.wf.list W).insertByKey (ht W)).count_eq
  have hwaits : waitLayout.Spells heap
      (k.waitLists.insertByKey (fun u => (k.tcb u).priority) W t) := by
    refine h.waits.update (l := t :: (k.waitLists W).nodes) hconfined (fun u hu V hV => ?_) hnew
      hcount
    rcases List.mem_cons.1 hu with rfl | hu
    · exact ht V
    · exact h.waits.disjoint hV.symm hu
  have hhead : M.peekHead m.heap (.waitRoot W) = (k.waitLists W).nodes.head?.map .eventNode :=
    (hM.peekHead (h.waits.list W)).trans List.head?_map
  refine ⟨heap, fun n hn => ?_, ?_⟩
  · rw [ListMemory.insertWaitListPriority, hhead]
    exact hrun n hn
  · have hstates : stateLayout.Spells heap k.stateLists :=
      h.states.of_confined stateLayout_apart.symm (S := waitLayout) (l := t :: (k.waitLists W).nodes)
        hconfined
    refine h.setWaits hstates hwaits rfl ?_ fun u hu => ?_
    · exact (hwaits.linked_of_mem (a := t) (i := W) (by simp)).symm
    · refine h.isSome_next (l := t :: (k.waitLists W).nodes) hwaits hconfined (fun v hv hvt => ?_) hu
      have hmem := (List.mem_cons.1 hv).resolve_left hvt
      exact ⟨hmem, by simp [hmem]⟩

/-- **Insertion by priority is correct, link by link.**  The scan ends, and leaves a ring in which
the new node comes after all tasks of at least its priority and before all others; no other link
changes. -/
theorem insertWaitListPriority_splices (hM : M.Lawful)
    (hlist : IsList m.heap (.waitRoot W) (ts.map .eventNode))
    (hsorted : ts.Pairwise fun a b => (m.tcb b).priority ≤ (m.tcb a).priority) (ht : t ∉ ts) :
    ∃ heap front back, (∀ n, ts.length < n → m.insertWaitListPriority M W t n = some heap) ∧
      ts = front ++ back ∧ (∀ u ∈ front, (m.tcb t).priority ≤ (m.tcb u).priority) ∧
      (∀ u ∈ back, (m.tcb u).priority < (m.tcb t).priority) ∧
      IsList heap (.waitRoot W) ((front ++ t :: back).map .eventNode) ∧
      Ring heap (.waitRoot W) ((front ++ t :: back).map .eventNode) ∧
      Confined m.heap heap (.waitRoot W) (.eventNode t :: ts.map .eventNode) := by
  obtain ⟨heap, hrun, hnew, hconfined⟩ := @insertFrom_spec M m W t [] ts hM hlist ht
  have hdescending : LinkedList.Descending (fun u => (m.tcb u).priority) ⟨ts, 0⟩ := hsorted
  obtain ⟨front, back, hsplit, hinsert, hfront, hback⟩ := hdescending.exists_split t
  simp only [LinkedList.insertByKey] at hinsert
  rw [List.nil_append, hinsert] at hnew
  refine ⟨heap, front, back, fun n hn => ?_, hsplit, hfront, hback, hnew, hnew.ring, hconfined⟩
  rw [ListMemory.insertWaitListPriority, hM.peekHead hlist, List.head?_map]
  exact hrun n hn

/-- Two tasks wait for a semaphore, task 1 with priority 5 and task 2 with priority 2. -/
def twoWaiters : ListMemory where
  heap :=
    { next := fun
        | .waitRoot (.sem 0) => some (.eventNode 1)
        | .eventNode 1 => some (.eventNode 2)
        | .eventNode 2 => some (.waitRoot (.sem 0))
        | _ => none
      prev := fun
        | .waitRoot (.sem 0) => some (.eventNode 2)
        | .eventNode 1 => some (.waitRoot (.sem 0))
        | .eventNode 2 => some (.eventNode 1)
        | _ => none
      count := fun a => if a = .waitRoot (.sem 0) then 2 else 0 }
  tcb t := ⟨.blocked, if t = 1 then 5 else if t = 2 then 2 else 3, 0, some (.sem 0)⟩
  readyBitmap := fun _ => false

theorem twoWaiters_isList : IsList twoWaiters.heap (.waitRoot (.sem 0)) ([1, 2].map .eventNode) :=
  ⟨by decide, by decide, by decide⟩

/-- Task 3, of priority 3, is spliced in between them. -/
theorem insertWaitListPriority_splices_between :
    ∃ heap front back, (∀ n, 2 < n →
        twoWaiters.insertWaitListPriority ListModule.reference (.sem 0) 3 n = some heap) ∧
      [1, 2] = front ++ back ∧
      (∀ u ∈ front, (twoWaiters.tcb 3).priority ≤ (twoWaiters.tcb u).priority) ∧
      (∀ u ∈ back, (twoWaiters.tcb u).priority < (twoWaiters.tcb 3).priority) ∧
      IsList heap (.waitRoot (.sem 0)) ((front ++ 3 :: back).map .eventNode) ∧
      Ring heap (.waitRoot (.sem 0)) ((front ++ 3 :: back).map .eventNode) ∧
      Confined twoWaiters.heap heap (.waitRoot (.sem 0)) (.eventNode 3 :: [1, 2].map .eventNode) :=
  insertWaitListPriority_splices ListModule.reference_lawful twoWaiters_isList (by decide)
    (by decide)

end Sertos
