import Sertos.WaitOrder
import Sertos.SetPriority

/-!
# Priorities that change while a task waits

`insert_wait_list_priority` sorts a task into a wait list by the priority it has when it blocks.
Two functions write the priority of a task that waits, `sertos_task_set_priority` and
`apply_priority_inheritance`, and neither moves it in the list.  The list is therefore still sorted
exactly if the new priority fits in at the place the task has (`priority_change_sorted_iff`).
Otherwise the next unblock may wake a task while one of higher priority keeps waiting.
-/

set_option autoImplicit false

namespace Sertos

open Intrusive Scheduler

namespace Kernel

variable {k k' : Kernel} {W : WaitList} {w c : TaskId} {p : ℕ} {front back : List TaskId}

/-- No task is on the wait list twice, and the priorities do not rise from its head to its tail. -/
structure SortedList (k : Kernel) (W : WaitList) : Prop where
  nodup : (k.waitLists W).nodes.Nodup
  descending : (k.waitLists W).Descending fun t => (k.tcb t).priority

instance (k : Kernel) (W : WaitList) : Decidable (k.SortedList W) :=
  decidable_of_iff ((k.waitLists W).nodes.Nodup ∧
    (k.waitLists W).nodes.Pairwise fun t u => (k.tcb u).priority ≤ (k.tcb t).priority)
    ⟨fun h => ⟨h.1, h.2⟩, fun h => ⟨h.nodup, h.descending⟩⟩

/-- The next unblock returns a waiter of maximal priority. -/
def ServesHighest (k : Kernel) (W : WaitList) : Prop :=
  ∀ t, (waitListUnblockHighest k W).2 = some t →
    ∀ u ∈ (k.waitLists W).nodes, (k.tcb u).priority ≤ (k.tcb t).priority

theorem SortedList.servesHighest (h : k.SortedList W) : k.ServesHighest W := by
  intro t ht u hu
  rw [unblockHighest_snd] at ht
  obtain ⟨rest, hW⟩ := List.head?_eq_some_iff.1 ht
  have hdesc := h.descending
  rw [LinkedList.Descending, hW] at hdesc
  rw [hW] at hu
  rcases List.mem_cons.1 hu with rfl | hu
  · exact le_rfl
  · exact List.rel_of_pairwise_cons hdesc hu

/-- The step gives `w` the priority `p`, and changes no other priority and no wait list. -/
structure GivesPriority (k : Kernel) (w : TaskId) (p : ℕ) (k' : Kernel) : Prop where
  waitLists : k'.waitLists = k.waitLists
  priority : ∀ u, (k'.tcb u).priority = Function.update (fun t => (k.tcb t).priority) w p u

/-- **Where the place of `w` still fits.** -/
theorem GivesPriority.sortedList_iff (h : GivesPriority k w p k') (hk : k.SortedList W)
    (hsplit : (k.waitLists W).nodes = front ++ w :: back) :
    (k'.SortedList W ∧ k'.ServesHighest W) ↔
      (∀ u ∈ front, p ≤ (k.tcb u).priority) ∧ ∀ u ∈ back, (k.tcb u).priority ≤ p := by
  have hkey : (fun t => (k'.tcb t).priority) =
      Function.update (fun t => (k.tcb t).priority) w p := funext h.priority
  have hnodup := hk.nodup
  have hdesc := hk.descending
  have hiff : (k'.waitLists W).Descending (fun t => (k'.tcb t).priority) ↔
      (∀ u ∈ front, p ≤ (k.tcb u).priority) ∧ ∀ u ∈ back, (k.tcb u).priority ≤ p := by
    rw [hsplit] at hnodup
    rw [LinkedList.Descending, hsplit] at hdesc
    rw [hkey, LinkedList.Descending, h.waitLists, hsplit]
    exact Service.pairwise_update_iff hnodup hdesc
  rw [← hiff]
  refine ⟨fun hk' => hk'.1.descending, fun hdesc' => ?_⟩
  have hk' : k'.SortedList W := ⟨by rw [h.waitLists]; exact hnodup, hdesc'⟩
  exact ⟨hk', hk'.servesHighest⟩

/-- `sertos_task_set_priority` on a task that waits. -/
theorem givesPriority_setPriority {magic : TaskId → ℕ} (hb : (k.tcb w).state = .blocked)
    (hm : magic w = Task.magicWord) (hp : p < maxPriorities) :
    GivesPriority k w p (Task.setPriority k magic (some w) p).1 := by
  have hne : (k.tcb w).state ≠ .ready := by simp [hb]
  rw [Task.setPriority_of_valid (t := w) rfl hm hp, Task.setPrioritySection_of_ne_ready hne]
  refine ⟨by rw [reschedule_frame]; rfl, fun u => ?_⟩
  rw [reschedule_priority]
  by_cases hu : u = w
  · subst hu; simp
  · simp [modify_tcb_of_ne _ _ _ hu, hu]

/-- `apply_priority_inheritance`, where it raises the owner. -/
theorem givesPriority_inherit (hlt : (k.tcb w).priority < (k.tcb c).priority) :
    GivesPriority k w (k.tcb c).priority (Mutex.applyPriorityInheritance k w c) := by
  refine ⟨Mutex.applyPriorityInheritance_waitLists k w c, fun u => ?_⟩
  rw [Mutex.applyPriorityInheritance_priority]
  by_cases hu : u = w
  · subst hu; simp [hlt.le]
  · simp [hu]

/-- **When a priority change leaves a wait list sorted.**  The task `w` is `BLOCKED` on a sorted
list, behind the tasks `front` and in front of `back`.  After `sertos_task_set_priority` the list is
sorted by the current priorities, and an unblock returns a waiter of maximal priority, exactly if
the new priority fits in between those of `front` and `back`; after a boost by a task `c`, exactly
if no task in front of `w` has a lower priority than `c`. -/
theorem priority_change_sorted_iff (hk : k.SortedList W)
    (hsplit : (k.waitLists W).nodes = front ++ w :: back) (hb : (k.tcb w).state = .blocked) :
    (∀ magic p, magic w = Task.magicWord → p < maxPriorities →
      (((Task.setPriority k magic (some w) p).1.SortedList W ∧
          (Task.setPriority k magic (some w) p).1.ServesHighest W) ↔
        (∀ u ∈ front, p ≤ (k.tcb u).priority) ∧ ∀ u ∈ back, (k.tcb u).priority ≤ p)) ∧
    ∀ c, (k.tcb w).priority < (k.tcb c).priority →
      (((Mutex.applyPriorityInheritance k w c).SortedList W ∧
          (Mutex.applyPriorityInheritance k w c).ServesHighest W) ↔
        ∀ u ∈ front, (k.tcb c).priority ≤ (k.tcb u).priority) := by
  refine ⟨fun magic p hm hp => (givesPriority_setPriority hb hm hp).sortedList_iff hk hsplit,
    fun c hlt => ?_⟩
  rw [(givesPriority_inherit hlt).sortedList_iff hk hsplit, and_iff_left]
  -- the tasks behind `w` had no higher priority than `w` before the boost
  intro u hu
  have hdesc := hk.descending
  rw [LinkedList.Descending, hsplit] at hdesc
  exact (List.rel_of_pairwise_cons (List.pairwise_append.1 hdesc).2.1 hu).trans hlt.le

/-- Two tasks wait on a semaphore, in the order of their priorities 3 and 2. -/
def twoWaiting : Kernel :=
  ([.kernel (.critical (.create (.ofPriority 3) 1)), .kernel (.critical (.create (.ofPriority 2) 2)),
    .kernel (.critical (.create (.ofPriority 5) 3)), .kernel (.start .ok),
    .dispatch 1, .kernel (.critical (.block (.sem 0) waitForever)),
    .dispatch 2, .kernel (.critical (.block (.sem 0) waitForever))] : List WaitOp).foldl WaitOp.run
    (initWithConfig bss none 0).1

theorem twoWaiting_sorted : twoWaiting.SortedList (.sem 0) := by decide +kernel

/-- The priority of the second task may rise to that of the first, and both may be boosted that
far. -/
theorem priority_change_sorted_iff_two :
    (twoWaiting.waitLists (.sem 0)).nodes = [1] ++ 2 :: [] ∧
    (Task.setPriority twoWaiting (fun _ => Task.magicWord) (some 2) 3).1.SortedList (.sem 0) ∧
    ¬ (Task.setPriority twoWaiting (fun _ => Task.magicWord) (some 2) 4).1.SortedList (.sem 0) := by
  have hsplit : (twoWaiting.waitLists (.sem 0)).nodes = [1] ++ 2 :: [] := by decide +kernel
  have h := (priority_change_sorted_iff twoWaiting_sorted hsplit (by decide +kernel)).1
    (fun _ => Task.magicWord)
  refine ⟨hsplit, ((h 3 rfl (by decide)).2 (by decide +kernel)).1, fun hs => ?_⟩
  exact absurd ((h 4 rfl (by decide)).1 ⟨hs, hs.servesHighest⟩) (by decide +kernel)

/-- **The list keeps the order of blocking.**  With priority 5, set or inherited from task 3, task 2
still waits behind task 1 of priority 3, which the next unblock returns. -/
theorem priority_change_unsorted :
    twoWaiting.SortedList (.sem 0) ∧ (twoWaiting.tcb 2).state = .blocked ∧
    (∀ k ∈ [(Task.setPriority twoWaiting (fun _ => Task.magicWord) (some 2) 5).1,
        Mutex.applyPriorityInheritance twoWaiting 2 3],
      (k.tcb 2).priority = 5 ∧ ¬ k.SortedList (.sem 0) ∧
        (waitListUnblockHighest k (.sem 0)).2 = some 1 ∧ (k.tcb 1).priority = 3) := by
  refine ⟨twoWaiting_sorted, by decide +kernel, fun k hk => ?_⟩
  rcases List.mem_pair.1 hk with rfl | rfl
  · exact ⟨by decide +kernel, by decide +kernel, by decide +kernel, by decide +kernel⟩
  · exact ⟨by decide +kernel, by decide +kernel, by decide +kernel, by decide +kernel⟩

end Kernel

end Sertos
