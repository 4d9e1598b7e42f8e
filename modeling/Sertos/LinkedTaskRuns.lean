import Sertos.LinkedTasks
import Sertos.HeldPriority
import Sertos.Snapshots

/-!
# Runs of task and mutex calls on links

Each function of `Sertos.LinkedTasks` does to the memory what the function on lists does to them, as
long as the tasks are in order (`LinkedTasks.Refines.call`); a whole run does so by induction, with
a bound on the rounds of a loop that depends on the number of calls only (`linkedTasks_refine`).

A loop ends within as many rounds as there are tasks in the cycle, and these are in the registry,
which grows by one task a call at most.
-/

set_option autoImplicit false

namespace Sertos

open Intrusive Circular Lts

/-! ## Lists -/

namespace Represents

variable {L : ListLibrary NodeAddr} {m : ListMemory} {k : Kernel} {t o c : TaskId}
  {r : LinkedList TaskId}

/-- A `READY` task is taken out of its queue. -/
theorem removeReady_of_ready (hL : L.Lawful) (hk : (k.among r).ListInv) (h : Represents m k)
    (ht : t ∈ r.nodes) (hs : (k.tcb t).state = .ready) :
    Represents (m.removeReady L t).1 (Scheduler.removeReady k t).1 ∧
      (Scheduler.removeReady k t).1.stateLists.Free t := by
  have hready : ((k.among r).tcb t).state.isReady = true := by rw [Kernel.among_tcb, hs]; rfl
  have hlive : (k.among r).Live t := ht
  have hqueue : t ∈ (k.readyQueue (k.tcb t).priority).nodes :=
    (hk.mem_readyQueue _).2 ⟨hlive, hready, rfl⟩
  have hlinked : (k.tcb t).stateLinked = true := (Scheduler.links_of_isReady hk hlive hready).1
  have hp : (k.tcb t).priority < maxPriorities := hk.priority_lt hlive
  refine ⟨h.removeReady hL hqueue hlinked, ?_⟩
  rw [Scheduler.removeReady_eq hp hlinked]
  exact h.states.wf.free_remove

/-- Both functions that change a priority do it in this way. -/
theorem changePriority (hL : L.Lawful) (hk : (k.among r).ListInv) (h : Represents m k)
    (ht : t ∈ r.nodes ∨ (k.tcb t).state ≠ .ready) (p : ℕ) :
    Represents (m.changePriority L t p) (Mutex.changePriority k t p) := by
  rw [ListMemory.changePriority, Mutex.changePriority, h.state_eq]
  by_cases hs : (k.tcb t).state = .ready
  · obtain ⟨hremoved, hfree⟩ := h.removeReady_of_ready hL hk (ht.resolve_right (not_not.2 hs)) hs
    rw [if_pos hs, if_pos hs]
    exact (hremoved.modify rfl rfl).addReady hL.toLawful hfree
  · rw [if_neg hs, if_neg hs]
    exact h.modify rfl rfl

/-- `apply_priority_inheritance`. -/
theorem applyPriorityInheritance (hL : L.Lawful) (hk : (k.among r).ListInv) (h : Represents m k)
    (ho : o ∈ r.nodes ∨ (k.tcb o).state ≠ .ready) :
    Represents (m.applyPriorityInheritance L o c) (Mutex.applyPriorityInheritance k o c) := by
  rw [ListMemory.applyPriorityInheritance, Mutex.applyPriorityInheritance, h.priority_eq,
    h.priority_eq]
  split
  · exact h.changePriority hL hk ho _
  · exact h

/-- The owner of a mutex that is deleted gets its priority back. -/
theorem restoreOwner (hL : L.Lawful) (hk : (k.among r).ListInv) (h : Represents m k) {x : Mutex}
    (ho : ∀ o, x.owner = some o → o ∈ r.nodes ∨ (k.tcb o).state ≠ .ready) :
    Represents (m.restoreOwner L x) (Mutex.restoreOwner k x) := by
  rw [ListMemory.restoreOwner, Mutex.restoreOwner]
  cases hx : x.owner with
  | none => exact h
  | some o =>
    simp only [ListMemory.restoreOwnerPriority, Mutex.restoreOwnerPriority, h.priority_eq]
    split
    · exact h.changePriority hL hk (ho o hx) _
    · exact h

theorem withdraw (hL : L.Lawful) (hk : (k.among r).ListInv) (h : Represents m k)
    (ht : t ∈ r.nodes ∨ (k.tcb t).state ≠ .ready) :
    Represents (m.withdraw L t) (Task.withdraw k t) := by
  rw [ListMemory.withdraw, Task.withdraw, h.state_eq]
  by_cases hs : (k.tcb t).state = .ready
  · rw [if_pos hs, if_pos hs]
    exact (h.removeReady_of_ready hL hk (ht.resolve_right (not_not.2 hs)) hs).1
  · rw [if_neg hs, if_neg hs]
    exact h

end Represents

namespace Kernel.SameRest

variable {k : Kernel} {t o c : TaskId}

theorem refl (k : Kernel) : SameRest k k := ⟨rfl, rfl, fun _ => rfl⟩

theorem changePriority (p : ℕ) : SameRest k (Mutex.changePriority k t p) where
  statics := by rw [Mutex.changePriority_frame]; rfl
  taskRegistry := by rw [Mutex.changePriority_frame]
  basePriority u := by rw [Mutex.changePriority_tcb]

theorem applyPriorityInheritance : SameRest k (Mutex.applyPriorityInheritance k o c) := by
  rw [Mutex.applyPriorityInheritance]
  split
  · exact changePriority _
  · exact refl k

theorem restoreOwner (x : Mutex) : SameRest k (Mutex.restoreOwner k x) := by
  rcases Mutex.restoreOwner_cases (k := k) x with e | ⟨o, -, -, e⟩ <;> rw [e]
  · exact refl k
  · exact changePriority _

theorem withdraw : SameRest k (Task.withdraw k t) where
  statics := by
    rw [Task.withdraw]
    split
    · rw [Scheduler.removeReady_frame]; rfl
    · rfl
  taskRegistry := Task.withdraw_taskRegistry
  basePriority u := by rw [Task.withdraw_tcb]

theorem addReady (hp : (k.tcb t).priority < maxPriorities) :
    SameRest k (Scheduler.addReady k t).1 := by
  rw [Scheduler.addReady_eq hp]
  exact .of_update rfl rfl rfl rfl

end Kernel.SameRest

/-! ## Tasks -/

namespace LinkedKernel.Refines

variable {L : ListLibrary NodeAddr} {R : ListLibrary RegistryAddr} {c : LinkedKernel}
  {k : Kernel} {t : TaskId} {r : LinkedList TaskId}

/-- `sertos_scheduler_unregister_task`, for a task in the registry. -/
theorem unregisterTask (hR : R.Lawful) (h : c.Refines k) (ht : k.Live t) :
    (c.unregisterTask R t).Refines (Scheduler.unregisterTask k t) := by
  have hlinked := h.registry.linked_of_mem (i := ()) ht
  have hne : c.registry.next (.registryNode t) ≠ none := Option.isSome_iff_ne_none.1 hlinked
  have hremoved := h.registry.remove hR.toLawful (i := ()) ht
  rw [LinkedKernel.unregisterTask, Scheduler.unregisterTask, if_pos hne, if_pos ht]
  refine ⟨h.lists.congr rfl rfl rfl rfl, ?_, h.basePriority_eq, h.statics_eq⟩
  refine hremoved.of_confined_node (confined_clear _ (RegistryAddr.registryNode t)) fun _ hm => ?_
  exact h.registry.wf.free_remove _ (registryLayout.node_mem_ring.1 hm)

/-- The critical section of `sertos_task_suspend`. -/
theorem suspendSection (hL : L.Lawful) (hk : (k.among r).ListInv) (h : c.Refines k)
    (ht : t ∈ r.nodes ∨ (k.tcb t).state ≠ .ready) :
    (c.suspendSection L t).Refines (Task.suspendSection k t) :=
  (h.setLists (h.lists.withdraw hL hk ht) .withdraw).setState t .suspended

/-- The critical section of `sertos_task_delete`. -/
theorem deleteSection (hL : L.Lawful) (hR : R.Lawful) (hk : (k.among r).ListInv) (h : c.Refines k)
    (ht : t ∈ r.nodes ∨ (k.tcb t).state ≠ .ready) (hlive : k.Live t) :
    (c.deleteSection L R t).Refines (Task.deleteSection k t) := by
  have hwithdrawn := h.setLists (h.lists.withdraw hL hk ht) .withdraw
  have hlive' : (Task.withdraw k t).Live t := by
    rw [Kernel.Live, Task.withdraw_taskRegistry]
    exact hlive
  exact (hwithdrawn.unregisterTask hR hlive').setState t .terminated

theorem accepts (h : c.Refines k) (magic : TaskId → ℕ) (t : TaskId) (after : TaskState) :
    c.accepts magic t after = Task.accepts k magic t after := by
  rw [LinkedKernel.accepts, Task.accepts, h.lists.state_eq]

/-- The critical section of `sertos_task_set_priority`. -/
theorem setPrioritySection (hL : L.Lawful) (hk : (k.among r).ListInv) (h : c.Refines k)
    (ht : t ∈ r.nodes ∨ (k.tcb t).state ≠ .ready) (p : ℕ) :
    (c.setPrioritySection L t p).Refines (Task.setPrioritySection k t p) := by
  have hframe := Task.setPrioritySection_frame (k := k) (t := t) (p := p)
  refine
    { lists := ?_
      registry := by rw [hframe]; exact h.registry
      basePriority_eq := fun u => ?_
      statics_eq := by rw [hframe]; exact h.statics_eq }
  · rw [LinkedKernel.setPrioritySection, Task.setPrioritySection]
    by_cases hs : (k.tcb t).state = .ready
    · obtain ⟨hremoved, hfree⟩ :=
        h.lists.removeReady_of_ready hL hk (ht.resolve_right (not_not.2 hs)) hs
      simp only [h.lists.state_eq, if_pos hs]
      exact (hremoved.modify rfl rfl).addReady hL.toLawful hfree
    · simp only [h.lists.state_eq, if_neg hs]
      exact h.lists.modify rfl rfl
  · show Function.update c.basePriority t p u = _
    by_cases hu : u = t
    · rw [hu, Function.update_self, Task.setPrioritySection_tcb_same]
    · rw [Function.update_of_ne hu, Task.setPrioritySection_tcb_of_ne hu]
      exact h.basePriority_eq u

end LinkedKernel.Refines

/-! ## The whole of it -/

/-- A created task outside the cycle is in no ready queue. -/
theorem Tasks.Ordered.mem_or_ne_ready {P : Kernel → Prop} [Kernel.Kept P] {s : Tasks}
    {r : LinkedList TaskId} {t : TaskId} (hs : s.Ordered P r) (hm : s.magic t = Task.magicWord) :
    t ∈ r.nodes ∨ (s.kernel.tcb t).state ≠ .ready := by
  by_cases htr : t ∈ r.nodes
  · exact .inl htr
  · rcases (hs.retired hm htr).inactive with e | e
    · exact .inr (by simp [e])
    · exact .inr (by simp [e])

namespace LinkedTasks

/-- The memory holds the kernel and the mutexes. -/
structure Refines (c : LinkedTasks) (s : Tasks) : Prop where
  kernel : c.kernel.Refines s.kernel
  mutexes : c.mutexes = s.system.mutexes
  pc : c.pc = s.system.pc
  magic : c.magic = s.magic

namespace Refines

variable {L : ListLibrary NodeAddr} {R : ListLibrary RegistryAddr} {c : LinkedTasks} {s : Tasks}
  {k : LinkedKernel} {k' : Kernel} {r : LinkedList TaskId} {handle : Option TaskId}
  {P : Kernel → Prop} [Kernel.Lasting P]

theorem setKernel (h : c.Refines s) (hk : k.Refines k') :
    (c.setKernel k).Refines (s.setKernel k') :=
  ⟨hk, h.mutexes, h.pc, h.magic⟩

theorem setMutex (h : c.Refines s) (m : ℕ) (x : Mutex) :
    (c.setMutex m x).Refines { s with system := s.system.setMutex m x } where
  kernel := h.kernel
  mutexes := by rw [LinkedTasks.setMutex, System.setMutex, h.mutexes]
  pc := h.pc
  magic := h.magic

theorem setPc (h : c.Refines s) (t : TaskId) (p : Pc) :
    (c.setPc t p).Refines { s with system := s.system.setPc t p } where
  kernel := h.kernel
  mutexes := h.mutexes
  pc := by rw [LinkedTasks.setPc, System.setPc, h.pc]
  magic := h.magic

/-! ### Tasks -/

/-- `sertos_task_suspend`. -/
theorem suspend (hL : L.Lawful) (hs : s.Ordered P r) (hcond : (TaskOp.suspend handle).KeepsLists s)
    (h : c.Refines s) : ∃ k, c.kernel.suspend L c.magic handle =
        some (k, (Task.suspend s.kernel s.magic handle).2) ∧
      k.Refines (Task.suspend s.kernel s.magic handle).1 := by
  rw [LinkedKernel.suspend, Task.suspend, h.kernel.currentTcb, h.magic]
  cases ht : handle.or s.kernel.currentTcb with
  | none => exact ⟨c.kernel, rfl, h.kernel⟩
  | some t =>
    simp only [h.kernel.accepts]
    by_cases haccepts : Task.accepts s.kernel s.magic t .suspended = true
    · obtain ⟨hm, hvalid⟩ := Task.accepts_iff.1 haccepts
      obtain ⟨hrunning, hblocked⟩ := hcond t ht hm
      have hready : (s.kernel.tcb t).state = .ready := by
        rcases Task.isValidTransition_suspended.1 hvalid with hr | hb
        · exact (TaskState.isReady_iff.1 hr).resolve_right hrunning
        · exact absurd hb hblocked
      have htr := hs.mem_of_active hm (by simp [hready]) (by simp [hready])
      have hcur := hs.not_current hrunning
      simp only [haccepts, if_true, hcur, false_and, if_false, Option.map_some]
      exact ⟨_, rfl, h.kernel.suspendSection hL hs.inv.lists (.inl htr)⟩
    · rw [if_neg haccepts, if_neg haccepts]
      exact ⟨c.kernel, rfl, h.kernel⟩

/-- `sertos_task_delete`. -/
theorem delete (hL : L.Lawful) (hR : R.Lawful) (hs : s.Ordered P r)
    (hcond : (TaskOp.delete handle).KeepsLists s) (h : c.Refines s) :
    ∃ k, c.kernel.delete L R c.magic handle =
        some (k, (Task.delete s.kernel s.magic handle).2) ∧
      k.Refines (Task.delete s.kernel s.magic handle).1 := by
  rw [LinkedKernel.delete, Task.delete, h.kernel.currentTcb, h.magic]
  cases ht : handle.or s.kernel.currentTcb with
  | none => exact ⟨c.kernel, rfl, h.kernel⟩
  | some t =>
    simp only [h.kernel.accepts]
    by_cases haccepts : Task.accepts s.kernel s.magic t .terminated = true
    · obtain ⟨hm, hvalid⟩ := Task.accepts_iff.1 haccepts
      obtain ⟨hrunning, hblocked⟩ := hcond t ht hm
      -- the task is in the registry, and not the current one
      have hlive : s.kernel.Live t := by
        by_cases hsuspended : (s.kernel.tcb t).state = .suspended
        · exact (hs.of_suspended hm hsuspended).2.1
        · exact hs.registered
            (hs.mem_of_active hm hsuspended (Task.isValidTransition_terminated.1 hvalid))
      have hcur := hs.not_current hrunning
      simp only [haccepts, if_true, hcur, false_and, if_false, Option.map_some]
      exact ⟨_, rfl, h.kernel.deleteSection hL hR hs.inv.lists (hs.mem_or_ne_ready hm) hlive⟩
    · rw [if_neg haccepts, if_neg haccepts]
      exact ⟨c.kernel, rfl, h.kernel⟩

/-- `sertos_task_resume`. -/
theorem resume (hL : L.Lawful) (hs : s.Ordered P r) (hcond : (TaskOp.resume handle).KeepsLists s)
    (h : c.Refines s) : ∃ k, c.kernel.resume L c.magic handle =
        some (k, (Task.resume s.kernel s.magic handle).2) ∧
      k.Refines (Task.resume s.kernel s.magic handle).1 := by
  cases handle with
  | none => exact ⟨c.kernel, rfl, h.kernel⟩
  | some t =>
    rw [LinkedKernel.resume]
    simp only [h.magic, h.kernel.accepts]
    by_cases haccepts : Task.accepts s.kernel s.magic t .ready = true
    · obtain ⟨hm, hvalid⟩ := Task.accepts_iff.1 haccepts
      obtain ⟨hrunning, hblocked⟩ := hcond t rfl hm
      have hsuspended : (s.kernel.tcb t).state = .suspended :=
        ((Task.isValidTransition_ready.1 hvalid).resolve_left hrunning).resolve_left hblocked
      obtain ⟨htr, -, hresumable⟩ := hs.of_suspended hm hsuspended
      obtain ⟨hfree, -⟩ := hs.inv.lists.free_of_not_live htr
      have hp := hresumable.priority_lt
      have hadded := h.kernel.setLists (h.kernel.lists.addReady hL.toLawful hfree) (.addReady hp)
      have hstatus : (c.kernel.lists.addReady L.toListModule t).2 = .ok := by
        rw [ListMemory.addReady, h.kernel.lists.priority_eq, if_neg (Nat.not_le.2 hp)]
      have hrunning' : c.kernel.isRunning = (Scheduler.addReady s.kernel t).1.isRunning :=
        hadded.isRunning
      rw [Task.resume_of_accepts haccepts hp]
      simp only [haccepts, if_true, hstatus, true_and, hrunning']
      split
      · obtain ⟨k, hrun, hk⟩ := hadded.reschedule hL
        exact ⟨k, by rw [hrun]; rfl, hk⟩
      · exact ⟨_, rfl, hadded⟩
    · rw [if_neg haccepts, Task.resume, if_neg haccepts]
      exact ⟨c.kernel, rfl, h.kernel⟩

/-- `sertos_task_set_priority`. -/
theorem setPriority (hL : L.Lawful) (hs : s.Ordered P r) (h : c.Refines s)
    (handle : Option TaskId) (p : ℕ) :
    ∃ k, c.kernel.setPriority L c.magic handle p =
        some (k, (Task.setPriority s.kernel s.magic handle p).2) ∧
      k.Refines (Task.setPriority s.kernel s.magic handle p).1 := by
  rw [LinkedKernel.setPriority, Task.setPriority, h.kernel.currentTcb, h.magic]
  by_cases hp : maxPriorities ≤ p
  · rw [if_pos hp, if_pos hp]
    exact ⟨c.kernel, rfl, h.kernel⟩
  rw [if_neg hp, if_neg hp]
  cases handle.or s.kernel.currentTcb with
  | none => exact ⟨c.kernel, rfl, h.kernel⟩
  | some t =>
    simp only
    by_cases hm : s.magic t = Task.magicWord
    · have hsection := h.kernel.setPrioritySection hL hs.inv.lists (hs.mem_or_ne_ready hm) p
      rw [if_neg (not_not.2 hm), if_neg (not_not.2 hm), hsection.isRunning]
      split
      · obtain ⟨k, hrun, hk⟩ := hsection.reschedule hL
        exact ⟨k, by rw [hrun]; rfl, hk⟩
      · exact ⟨_, rfl, hsection⟩
    · rw [if_pos hm, if_pos hm]
      exact ⟨c.kernel, rfl, h.kernel⟩

/-- `sertos_task_create_static`, in memory that holds no task of the registry. -/
theorem create (hL : L.Lawful) (hR : R.Lawful) (hs : s.Ordered P r) (h : c.Refines s) {t : TaskId}
    (ht : ¬ s.kernel.Live t) (config : TaskConfig) :
    ∃ k, c.kernel.createStatic L R config t =
        some (k, (Task.createStatic s.kernel config t).2) ∧
      k.Refines (Task.createStatic s.kernel config t).1 := by
  obtain ⟨hstates, hwaits⟩ :=
    hs.inv.lists.free_of_not_live (t := t) fun hm => ht (hs.registered hm)
  exact h.kernel.createStatic hL hR hstates hwaits ht config

/-! ### Mutexes -/

/-- The owner of a mutex inherits a priority. -/
theorem boost (hL : L.Lawful) (hs : s.Ordered P r) {o : TaskId} (ho : s.magic o = Task.magicWord)
    (t : TaskId) (h : c.Refines s) :
    LinkedKernel.Refines
      { c.kernel with lists := c.kernel.lists.applyPriorityInheritance L o t }
      (Mutex.applyPriorityInheritance s.kernel o t) :=
  h.kernel.setLists
    (h.kernel.lists.applyPriorityInheritance hL hs.inv.lists (hs.mem_or_ne_ready ho))
    .applyPriorityInheritance

/-- `sertos_mutex_lock` up to its blocking point. -/
theorem lock (hL : L.Lawful) (hR : R.Lawful) (hs : s.Ordered P r) (h : c.Refines s)
    (m timeout : ℕ) : ∃ c', (∀ n, r.nodes.length < n →
        c.lock L n m timeout = some (c', (Mutex.lock s.system m timeout).2)) ∧
      c'.Refines { s with system := (Mutex.lock s.system m timeout).1 } := by
  by_cases hmagic : (s.system.mutexes m).magic = mutexMagicWord
  swap
  · refine ⟨c, fun n _ => ?_, ?_⟩
    · rw [LinkedTasks.lock, Mutex.lock, h.mutexes, if_pos hmagic, if_pos hmagic]
    · rw [Mutex.lock, if_pos hmagic]
      exact h
  have hcurrent : c.kernel.currentTcb = s.system.kernel.currentTcb := h.kernel.currentTcb
  cases hc : s.system.kernel.currentTcb with
  | none =>
    rw [hc] at hcurrent
    simp only [LinkedTasks.lock, Mutex.lock, h.mutexes, hmagic, hcurrent, hc, ne_eq,
      not_true_eq_false, if_false]
    exact ⟨c, fun _ _ => rfl, h⟩
  | some t =>
    rw [hc] at hcurrent
    simp only [LinkedTasks.lock, Mutex.lock, h.mutexes, hmagic, hcurrent, hc, ne_eq,
      not_true_eq_false, if_false, lockSection, Mutex.lockSection]
    cases ho : (s.system.mutexes m).owner with
    | none =>
      simp only [h.kernel.lists.priority_eq]
      exact ⟨_, fun _ _ => rfl, h.setMutex m _⟩
    | some o =>
      simp only
      by_cases hot : o = t
      · simp only [if_pos hot]
        exact ⟨_, fun _ _ => rfl, h.setMutex m _⟩
      · have hboost := h.boost hL hs (hs.owner m o ho).1 t
        simp only [if_neg hot]
        by_cases ht : timeout = noWait
        · simp only [if_pos ht]
          exact ⟨_, fun _ _ => rfl, h.setKernel hboost⟩
        · have hk := Kernel.Lasting.settled (hs.boost hc (hs.owner m o ho).1 hot)
          obtain ⟨k, hrun, hk'⟩ := hboost.waitListBlock_among hL hR hk (.mutex m) ht
          -- a wait list is no longer than the registry
          have hle := LinkedKernel.length_le_taskRegistry (hk.lists.waitWF.list (.mutex m)).nodup
            fun u hu => ((hk.lists.mem_waitLists _ u).1 hu).1
          have hrun' := fun n (hn : r.nodes.length < n) => hrun n (hle.trans_lt hn)
          have hsystem : s.system.kernel = s.kernel := rfl
          simp only [if_neg ht, LinkedTasks.setKernel, hsystem, Option.bind_eq_bind]
          rcases hb : Scheduler.waitListBlock (Mutex.applyPriorityInheritance s.kernel o t)
            (.mutex m) timeout with ⟨k', _ | status⟩
          · rw [hb] at hk' hrun'
            exact ⟨(c.setKernel k).setPc t (.mutexWait m timeout),
              fun n hn => by rw [hrun' n hn]; rfl, (h.setKernel hk').setPc t _⟩
          · rw [hb] at hk' hrun'
            exact ⟨c.setKernel k, fun n hn => by rw [hrun' n hn]; rfl, h.setKernel hk'⟩

/-- The end of `sertos_mutex_lock`. -/
theorem lockResume (h : c.Refines s) :
    c.lockResume.Refines { s with system := Api.resume.run s.system } := by
  have hcurrent : c.kernel.currentTcb = s.system.kernel.currentTcb := h.kernel.currentTcb
  rw [LinkedTasks.lockResume, hcurrent]
  simp only [Api.run, Api.returned]
  cases s.system.kernel.currentTcb with
  | none => exact h
  | some t =>
    simp only [h.pc]
    cases s.system.pc t with
    | mutexWait m timeout =>
      have hstatus : c.waitListBlockStatus t timeout =
          Scheduler.waitListBlockStatus s.system.kernel t timeout := by
        rw [LinkedTasks.waitListBlockStatus, h.kernel.lists.tcb_eq]
        rfl
      have hbase : c.kernel.basePriority t = (s.system.kernel.tcb t).basePriority :=
        h.kernel.basePriority_eq t
      simp only [Mutex.lockResume, LinkedTasks.lockReturn, Mutex.lockReturn, hstatus, hbase,
        h.mutexes]
      split
      · exact (h.setMutex m _).setPc t .idle
      · exact h.setPc t .idle
    | _ => exact h

/-- The end of `sertos_mutex_unlock`, when the mutex was released. -/
theorem rescheduleIfRunning (hL : L.Lawful) {x : System} {magic : TaskId → ℕ}
    (h : c.Refines ⟨x, magic⟩) : ∃ c',
    (if c.kernel.isRunning then (c.kernel.reschedule L).map fun k => (c.setKernel k, Status.ok)
      else some (c, .ok)) =
      some (c', (if x.kernel.isRunning then
        (({ x with kernel := Scheduler.reschedule x.kernel } : System), Status.ok)
          else (x, .ok)).2) ∧
    c'.Refines ⟨(if x.kernel.isRunning then
      (({ x with kernel := Scheduler.reschedule x.kernel } : System), Status.ok)
        else (x, .ok)).1, magic⟩ := by
  have hrunning : c.kernel.isRunning = x.kernel.isRunning := h.kernel.isRunning
  rw [hrunning]
  split
  · obtain ⟨k, hrun, hk⟩ := h.kernel.reschedule hL
    exact ⟨c.setKernel k, by rw [hrun]; rfl, h.setKernel hk⟩
  · exact ⟨c, rfl, h⟩

/-- `sertos_mutex_unlock`, when no priority is given back. -/
theorem unlock (hL : L.Lawful) (hR : R.Lawful) (hs : s.Ordered P r) {m : ℕ}
    (hcond : (TaskOp.api (.unlock m)).NothingInherited s) (h : c.Refines s) :
    ∃ c', c.unlock L m = some (c', (Mutex.unlock s.system m).2) ∧
      c'.Refines { s with system := (Mutex.unlock s.system m).1 } := by
  by_cases hmagic : (s.system.mutexes m).magic = mutexMagicWord
  swap
  · refine ⟨c, ?_, ?_⟩
    · rw [LinkedTasks.unlock, Mutex.unlock, h.mutexes, if_pos hmagic, if_pos hmagic]
    · rw [Mutex.unlock, if_pos hmagic]
      exact h
  have hcurrent : c.kernel.currentTcb = s.system.kernel.currentTcb := h.kernel.currentTcb
  cases hc : s.system.kernel.currentTcb with
  | none =>
    rw [hc] at hcurrent
    simp only [LinkedTasks.unlock, Mutex.unlock, h.mutexes, hmagic, hcurrent, hc, ne_eq,
      not_true_eq_false, if_false]
    exact ⟨c, rfl, h⟩
  | some t =>
    rw [hc] at hcurrent
    simp only [LinkedTasks.unlock, Mutex.unlock, h.mutexes, hmagic, hcurrent, hc, ne_eq,
      not_true_eq_false, if_false]
    by_cases ho : (s.system.mutexes m).owner = some t
    · simp only [ho, not_true_eq_false, if_false, LinkedTasks.unlockSection, Mutex.unlockSection,
        h.mutexes]
      by_cases hcount : 0 < Mutex.decrement (s.system.mutexes m).lockCount
      · simp only [if_pos hcount]
        exact ⟨_, rfl, h.setMutex m _⟩
      · have hone : (s.system.mutexes m).lockCount = 1 := by
          rw [Mutex.decrement] at hcount
          split at hcount <;> omega
        have hp : (s.kernel.tcb t).priority = (s.system.mutexes m).originalOwnerPriority :=
          hcond t ⟨hmagic, hc, ho, hone⟩
        have hkept : Mutex.restoreOwnerPriority s.system.kernel (s.system.mutexes m) t =
            s.kernel := if_neg (not_not.2 hp)
        have hkept' : c.kernel.lists.restoreOwnerPriority L (s.system.mutexes m) t =
            c.kernel.lists := by
          rw [ListMemory.restoreOwnerPriority, h.kernel.lists.priority_eq, if_neg (not_not.2 hp)]
        obtain ⟨k, hrun, hk⟩ :=
          h.kernel.waitListUnblockHighest_among hL hR hs.inv.lists (.mutex m)
        simp only [if_neg hcount, hkept, hkept', Option.bind_eq_bind]
        rcases hunblock : Scheduler.waitListUnblockHighest s.kernel (.mutex m) with ⟨k', _ | w⟩
        · rw [hunblock] at hk hrun
          simp only [hrun, Option.bind_some]
          exact ((h.setKernel hk).setMutex m _).rescheduleIfRunning hL
        · rw [hunblock] at hk hrun
          have hbase : k.basePriority w = (k'.tcb w).basePriority := hk.basePriority_eq w
          simp only [hrun, Option.bind_some, hbase]
          exact ((h.setKernel hk).setMutex m _).rescheduleIfRunning hL
    · simp only [ho, not_false_eq_true, if_true]
      exact ⟨c, rfl, h⟩

/-- The loop that empties a wait list, round by round. -/
theorem unblockRounds (hL : L.Lawful) (hR : R.Lawful) {W : WaitList} {l : List TaskId}
    (hs : s.Ordered P r) (h : k.Refines s.kernel) (hW : (s.kernel.waitLists W).nodes = l) :
    ∃ k', (∀ n, l.length < n → k.unblockRounds L W n = some k') ∧
      k'.Refines (Scheduler.unblockRounds W (l.length + 1) s.kernel) := by
  induction l generalizing k s with
  | nil =>
    obtain ⟨k', hrun, hk'⟩ := h.waitListUnblockHighest_among hL hR hs.inv.lists W
    rw [Scheduler.waitListUnblockHighest_nil hW] at hrun hk'
    refine ⟨k', fun n hn => ?_, ?_⟩
    · obtain ⟨n, rfl⟩ := Nat.exists_eq_succ_of_ne_zero (Nat.ne_zero_of_lt hn)
      simp only [LinkedKernel.unblockRounds, hrun, Option.bind_eq_bind, Option.bind_some]
    · simp only [Scheduler.unblockRounds, Scheduler.waitListUnblockHighest_nil hW]
      exact hk'
  | cons t rest ih =>
    obtain ⟨k₁, hrun, hk₁⟩ := h.waitListUnblockHighest_among hL hR hs.inv.lists W
    have hs₁ := hs.unblock W
    have hamong := hs.inv.lists.usable W
    have husable : s.kernel.Usable W := ⟨hamong.nodup, hamong.linked⟩
    have hrest := husable.unblock hW
    have hsnd := Scheduler.unblockHighest_snd s.kernel W
    rw [hW, List.head?_cons] at hsnd
    obtain ⟨k', hrounds, hk'⟩ := ih hs₁ hk₁ hrest
    rw [hsnd] at hrun
    refine ⟨k', fun n hn => ?_, ?_⟩
    · obtain ⟨n, rfl⟩ := Nat.exists_eq_succ_of_ne_zero (Nat.ne_zero_of_lt hn)
      rw [List.length_cons] at hn
      simp only [LinkedKernel.unblockRounds, hrun, Option.bind_eq_bind, Option.bind_some]
      exact hrounds n (by omega)
    · rw [List.length_cons, Scheduler.unblockRounds]
      rcases hr : Scheduler.waitListUnblockHighest s.kernel W with ⟨k₂, u⟩
      rw [hr] at hsnd
      obtain rfl : u = some t := hsnd
      rw [Tasks.setKernel_kernel, hr] at hk'
      exact hk'

/-- `sertos_mutex_delete`. -/
theorem deleteMutex (hL : L.Lawful) (hR : R.Lawful) (hs : s.Ordered P r) {m : ℕ}
    (hcond : (TaskOp.deleteMutex m).KeepsLists s) (h : c.Refines s) :
    ∃ c', (∀ n, r.nodes.length < n →
        c.deleteMutex L n m = some (c', (Mutex.delete s.system m).2)) ∧
      c'.Refines { s with system := (Mutex.delete s.system m).1 } := by
  rcases Mutex.delete_cases s.system m with ⟨hmagic, e⟩ | ⟨hmagic, e⟩
  · refine ⟨c, fun n _ => ?_, ?_⟩
    · simp only [LinkedTasks.deleteMutex, h.mutexes, if_pos hmagic, e]
    · rw [e]
      exact h
  · have hrestored := hs.restoreOwner (hcond hmagic)
    have hk := h.kernel.setLists (h.kernel.lists.restoreOwner hL hs.inv.lists
      fun o ho => hs.mem_or_ne_ready (hs.owner m o ho).1) (.restoreOwner _)
    obtain ⟨k', hrounds, hk'⟩ := unblockRounds hL hR (W := .mutex m) hrestored hk rfl
    have hdeleted : ((c.setMutex m { s.system.mutexes m with magic := 0 }).setKernel k').Refines
        ⟨Mutex.deleteSection s.system m, s.magic⟩ := (h.setMutex m _).setKernel hk'
    obtain ⟨c', hrun, hc'⟩ := hdeleted.rescheduleIfRunning hL
    have hlocal : ∀ x : System, (if x.kernel.isRunning then
        (({ x with kernel := Scheduler.reschedule x.kernel } : System), Status.ok) else (x, .ok)) =
          ({ x with kernel := Scheduler.reschedule x.kernel }, .ok) := fun x => by
      split
      · rfl
      · next hrunning => rw [Mutex.reschedule_of_not_running hrunning]
    rw [hlocal] at hrun hc'
    rw [e]
    refine ⟨c', fun n hn => ?_, hc'⟩
    -- a wait list is no longer than the cycle
    have hle := LinkedKernel.length_le_taskRegistry
      (hrestored.inv.lists.waitWF.list (.mutex m)).nodup
      fun u hu => ((hrestored.inv.lists.mem_waitLists _ u).1 hu).1
    simp only [LinkedTasks.deleteMutex, h.mutexes, if_neg (not_not.2 hmagic), Option.bind_eq_bind]
    exact (congrArg (Option.bind · _) (hrounds n (hle.trans_lt hn))).trans hrun

/-! ### One call -/

/-- The calls of the scheduler's and the mutexes' interface. -/
theorem api (hL : L.Lawful) (hR : R.Lawful) (hs : s.Ordered P r) {a : Api}
    (ha : a.Scheduled s.system) (hcond : (TaskOp.api a).NothingInherited s) (h : c.Refines s) :
    ∃ c', (∀ n, r.nodes.length < n → c.call L R n (.api a) = some c') ∧
      c'.Refines { s with system := a.run s.system } := by
  cases a with
  | sched a =>
    obtain ⟨k, hrun, hk⟩ : ∃ k, (∀ n, r.nodes.length < n → c.kernel.call L R n a = some k) ∧
        k.Refines (a.run s.kernel) := by
      cases a with
      | create config t => exact absurd trivial ha.2.1
      | lock => exact ⟨c.kernel.lock, fun _ _ => rfl, h.kernel.lock⟩
      | unlock =>
        obtain ⟨k, hrun, hk⟩ := h.kernel.unlock hL
        exact ⟨k, fun _ _ => hrun, hk⟩
      | _ => exact h.kernel.call_among hL hR hs.settled trivial ha.1.1
    exact ⟨c.setKernel k, fun n hn => by rw [LinkedTasks.call, hrun n hn]; rfl, h.setKernel hk⟩
  | dispatch u => exact ha.2.2.elim
  | lock m timeout =>
    obtain ⟨c', hrun, hc'⟩ := h.lock hL hR hs m timeout
    exact ⟨c', fun n hn => by rw [LinkedTasks.call, hrun n hn]; rfl, hc'⟩
  | resume => exact ⟨c.lockResume, fun _ _ => rfl, h.lockResume⟩
  | unlock m =>
    obtain ⟨c', hrun, hc'⟩ := h.unlock hL hR hs hcond
    exact ⟨c', fun n _ => by rw [LinkedTasks.call, hrun]; rfl, hc'⟩

/-- **A call, link by link,** with as many rounds as there are tasks in the cycle. -/
theorem call (hL : L.Lawful) (hR : R.Lawful) (hs : s.Ordered P r) {a : TaskOp}
    (ha : a.Allowed s) (hcond : a.InOrder s) (h : c.Refines s) :
    ∃ c', (∀ n, r.nodes.length < n → c.call L R n a = some c') ∧ c'.Refines (a.run s) := by
  obtain ⟨hlists, hinherited, -⟩ := hcond
  cases a with
  | api a => exact h.api hL hR hs ha hinherited
  | create config t =>
    obtain ⟨k, hrun, hk⟩ := h.create hL hR hs ha config
    simp only [LinkedTasks.call, hrun, Option.map_some, TaskOp.run]
    split
    · refine ⟨_, fun _ _ => rfl, hk, h.mutexes, ?_, ?_⟩
      · exact ((h.setKernel hk).setPc t .idle).pc
      · show Function.update c.magic t Task.magicWord = Function.update s.magic t Task.magicWord
        rw [h.magic]
    · exact ⟨_, fun _ _ => rfl, h.setKernel hk⟩
  | switch =>
    obtain ⟨k, hrun, hk⟩ := h.kernel.performSwitch hL
    exact ⟨c.setKernel k, fun n _ => by rw [LinkedTasks.call, hrun]; rfl, h.setKernel hk⟩
  | suspend handle =>
    obtain ⟨k, hrun, hk⟩ := h.suspend hL hs hlists
    exact ⟨c.setKernel k, fun n _ => by rw [LinkedTasks.call, hrun]; rfl, h.setKernel hk⟩
  | resume handle =>
    obtain ⟨k, hrun, hk⟩ := h.resume hL hs hlists
    exact ⟨c.setKernel k, fun n _ => by rw [LinkedTasks.call, hrun]; rfl, h.setKernel hk⟩
  | delete handle =>
    obtain ⟨k, hrun, hk⟩ := h.delete hL hR hs hlists
    exact ⟨c.setKernel k, fun n _ => by rw [LinkedTasks.call, hrun]; rfl, h.setKernel hk⟩
  | setPriority handle p =>
    obtain ⟨k, hrun, hk⟩ := h.setPriority hL hs handle p
    exact ⟨c.setKernel k, fun n _ => by rw [LinkedTasks.call, hrun]; rfl, h.setKernel hk⟩
  | deleteMutex m =>
    obtain ⟨c', hrun, hc'⟩ := h.deleteMutex hL hR hs hlists
    exact ⟨c', fun n hn => by rw [LinkedTasks.call, hrun n hn]; rfl, hc'⟩

end Refines

end LinkedTasks

/-! ## The registry -/

open Scheduler in
/-- No call of the scheduler's or the mutexes' interface touches the registry, if it does not create
a task. -/
theorem Api.run_taskRegistry {s : System} {a : Api} (ha : a.Allowed s) (hcreates : ¬ a.Creates) :
    (a.run s).kernel.taskRegistry = s.kernel.taskRegistry := by
  cases a with
  | sched a => exact Roster.run_taskRegistry_of_call s.kernel hcreates
  | dispatch u => rfl
  | lock m timeout =>
    have he := Mutex.lock_effect s m timeout
    rw [run]
    generalize Mutex.lock s m timeout = x at he ⊢
    cases he with
    | invalid | noTask | acquire | again => rfl
    | @fail t o =>
      show (Mutex.applyPriorityInheritance s.kernel o t).taskRegistry = _
      rw [Mutex.applyPriorityInheritance_frame]
    | @wait t o =>
      show (switchContext _).taskRegistry = _
      rw [Roster.switchContext_taskRegistry, waitListBlockSection_frame,
        Mutex.applyPriorityInheritance_frame]
  | resume =>
    obtain ⟨c, m, timeout, -, -, e⟩ := returned_cases ha
    rw [e, Mutex.lockResume_kernel]
  | unlock m =>
    have he := Mutex.unlock_effect s m
    rw [run]
    generalize Mutex.unlock s m = x at he ⊢
    cases he with
    | invalid | nested => rfl
    | release =>
      rw [System.setMutex_kernel, Roster.reschedule_taskRegistry, Mutex.restoreOwnerPriority_frame]
    | handOver =>
      rw [System.setMutex_kernel, Roster.reschedule_taskRegistry, Mutex.handedKernel,
        unblockHighest_frame, Mutex.restoreOwnerPriority_frame]

open Scheduler in
/-- A call adds one task to the registry at most. -/
theorem TaskOp.length_taskRegistry_le {s : Tasks} {a : TaskOp} (ha : a.Allowed s) :
    (a.run s).kernel.taskRegistry.nodes.length ≤ s.kernel.taskRegistry.nodes.length + 1 := by
  have hsame : ∀ {k : Kernel}, k.taskRegistry = s.kernel.taskRegistry →
      k.taskRegistry.nodes.length ≤ s.kernel.taskRegistry.nodes.length + 1 := fun e => by
    rw [e]
    exact Nat.le_succ _
  cases a with
  | api a => exact hsame (Api.run_taskRegistry ha.1 ha.2.1)
  | create config t =>
    have hcreate : (Task.createStatic s.kernel config t).1.taskRegistry.nodes.length ≤
        s.kernel.taskRegistry.nodes.length + 1 := by
      rcases Task.createStatic_cases s.kernel config t with ⟨-, e⟩ | ⟨-, -, e⟩
      · exact hsame (by rw [e])
      · rw [e, Roster.enroll_taskRegistry, List.length_append]
        rfl
    simp only [run]
    split
    · exact hcreate
    · exact hcreate
  | switch => exact hsame (Roster.performSwitch_taskRegistry s.kernel)
  | suspend handle =>
    show (Task.suspend s.kernel s.magic handle).1.taskRegistry.nodes.length ≤ _
    rcases Task.suspend_cases s.kernel s.magic handle with ⟨-, e⟩ | ⟨t, -, -, e⟩
    · exact hsame (by rw [e])
    · have hsection : (Task.suspendSection s.kernel t).taskRegistry = s.kernel.taskRegistry :=
        Task.withdraw_taskRegistry
      rw [e]
      simp only
      split
      · exact hsame ((Call.run_taskRegistry _ (a := .yield) trivial).trans hsection)
      · exact hsame hsection
  | resume handle =>
    show (Task.resume s.kernel s.magic handle).1.taskRegistry.nodes.length ≤ _
    rcases Task.resume_cases s.kernel s.magic handle with ⟨-, e⟩ | ⟨t, -, -, -, e⟩
    · exact hsame (by rw [e])
    · rw [e]
      simp only
      split
      · exact hsame (by rw [Roster.reschedule_taskRegistry, addReady_frame])
      · exact hsame (by rw [addReady_frame])
  | delete handle =>
    show (Task.delete s.kernel s.magic handle).1.taskRegistry.nodes.length ≤ _
    rcases Task.delete_cases s.kernel s.magic handle with ⟨-, e⟩ | ⟨t, -, -, e⟩
    · exact hsame (by rw [e])
    · rw [e, Roster.delete_nodes]
      exact (List.length_erase_le).trans (Nat.le_succ _)
  | setPriority handle p =>
    show (Task.setPriority s.kernel s.magic handle p).1.taskRegistry.nodes.length ≤ _
    rcases Task.setPriority_cases s.kernel s.magic handle p with ⟨-, e⟩ | ⟨t, -, -, -, e⟩
    · exact hsame (by rw [e])
    · exact hsame (by rw [e, Roster.reschedule_taskRegistry, Task.setPrioritySection_frame])
  | deleteMutex m =>
    show (Mutex.delete s.system m).1.kernel.taskRegistry.nodes.length ≤ _
    rcases Mutex.delete_cases s.system m with ⟨-, e⟩ | ⟨-, e⟩ <;> rw [e]
    · exact hsame rfl
    · refine hsame ((Roster.reschedule_taskRegistry _).trans ?_)
      exact unblockAll_induction
        (motive := fun k => k.taskRegistry = s.kernel.taskRegistry) (.mutex m)
        (Kernel.SameRest.restoreOwner _).taskRegistry fun k e => by rw [unblockHighest_frame]; exact e

/-! ## Runs -/

namespace LinkedTasks

variable {L : ListLibrary NodeAddr} {R : ListLibrary RegistryAddr} {c : LinkedTasks}
  {k : LinkedKernel} {s s' : Tasks} {r : LinkedList TaskId} {as : List TaskOp}
  {config : Option Config} {idleStack : ℕ} {sems : ℕ → Semaphore}

/-- **A run, link by link.** -/
theorem Refines.calls {P : Kernel → Prop} [Kernel.Lockable P] (hL : L.Lawful) (hR : R.Lawful)
    (hs : s.Ordered P r) (h : c.Refines s)
    (htrace : Trace TaskOp.OrderStep s as s') : ∃ c',
    (∀ n, s.kernel.taskRegistry.nodes.length + as.length < n → c.calls L R n as = some c') ∧
      c'.Refines s' ∧ s'.kernel.taskRegistry.nodes.length ≤
        s.kernel.taskRegistry.nodes.length + as.length := by
  induction htrace generalizing c r with
  | nil s => exact ⟨c, fun _ _ => rfl, h, le_rfl⟩
  | @cons s s₁ s₂ a as hstep _ ih =>
    obtain ⟨r₁, hs₁⟩ := hs.step hstep
    obtain ⟨⟨ha, hcond⟩, rfl⟩ := hstep
    obtain ⟨c₁, hcall, hc₁⟩ := h.call hL hR hs ha hcond
    obtain ⟨c₂, hcalls, hc₂, hle₂⟩ := ih hs₁ hc₁
    -- the tasks of the cycle are in the registry, which grows by one task a call
    have hle := LinkedKernel.length_le_taskRegistry hs.wf.nodup fun t ht => hs.registered ht
    have hgrow := TaskOp.length_taskRegistry_le ha
    rw [List.length_cons]
    refine ⟨c₂, fun n hn => ?_, hc₂, by omega⟩
    rw [LinkedTasks.calls, List.foldlM_cons, hcall n (by omega)]
    exact hcalls n (by omega)

theorem init_refines {k' : Kernel} (hk : k.Refines k') (sems : ℕ → Semaphore) :
    (init k).Refines (Tasks.init k' sems) :=
  ⟨hk, rfl, rfl, rfl⟩

/-- **Tasks and mutexes on links refine those on lists.**  In a run in order no call takes a `NULL`
for a node or loops for ever, the links it leaves are rings that spell out the kernel's lists, and
`sertos_scheduler_visit_all_tasks` visits the tasks that have been created and not deleted. -/
theorem linkedTasks_refine (hL : L.Lawful) (hR : R.Lawful) (hk : k.Fresh)
    (hinit : (Scheduler.initWithConfig k.memory config idleStack).2 = .ok)
    (htrace : Trace TaskOp.OrderStep
      (Tasks.init (Scheduler.initWithConfig k.memory config idleStack).1 sems) as s) :
    ∃ c, (∀ n, as.length + 1 < n → boot L R k n config idleStack as = some c ∧
        c.kernel.visitAllTasks n = some s.kernel.taskRegistry.nodes) ∧
      c.Refines s ∧
      (∀ S, Ring c.kernel.lists.heap (.stateRoot S)
        ((s.kernel.stateLists S).nodes.map .stateNode)) ∧
      (∀ W, Ring c.kernel.lists.heap (.waitRoot W)
        ((s.kernel.waitLists W).nodes.map .eventNode)) ∧
      Ring c.kernel.registry .root (s.kernel.taskRegistry.nodes.map .registryNode) := by
  obtain ⟨k₁, hboot, hk₁⟩ := LinkedKernel.initWithConfig_refines hL hR hk config idleStack
  obtain ⟨c, hcalls, hc, hle⟩ := (init_refines hk₁ sems).calls hL hR
    (Tasks.init_ordered hinit (Kernel.initWithConfig_steady hinit)) htrace
  have hstart : (Scheduler.initWithConfig k.memory config idleStack).1.taskRegistry.nodes =
      [idleTcb] := by
    rw [(Scheduler.initWithConfig_eq hinit).1.taskRegistry]
    rfl
  have hone : (Tasks.init (Scheduler.initWithConfig k.memory config idleStack).1
      sems).kernel.taskRegistry.nodes.length = 1 := congrArg List.length hstart
  rw [hone] at hcalls hle
  refine ⟨c, fun n hn => ⟨?_, hc.kernel.visitAllTasks (by omega)⟩, hc,
    fun S => (hc.kernel.lists.states.list S).ring, fun W => (hc.kernel.lists.waits.list W).ring,
    (hc.kernel.registry.list ()).ring⟩
  rw [boot, hboot n (by rw [hstart]; exact (Nat.le_add_left 1 _).trans_lt hn)]
  exact hcalls n (by omega)

/-- Task 1 locks a mutex and delays itself, task 2 waits for the mutex, and gets it when task 1
unlocks it, with the scheduler locked; task 3 is suspended, resumed and given the highest priority.
While it is delayed, task 1 waits for the mutex and task 2 inherits its priority; then task 3 deletes
the mutex, and task 2. -/
def linkedTaskCalls : List TaskOp :=
  [.create (.ofPriority 5) 1, .create (.ofPriority 3) 2, .create (.ofPriority 1) 3,
    .api (.sched (.start .ok)), .api (.lock 0 waitForever), .api (.sched (.delay 1)),
    .api (.lock 0 waitForever), .api (.sched .tick), .api (.sched .lock), .api (.unlock 0),
    .api (.sched .unlock), .suspend (some 3), .resume (some 3), .setPriority (some 3) 6,
    .api (.sched (.delay 1)), .api (.lock 0 waitForever), .api .resume, .api (.sched .tick),
    .deleteMutex 0, .delete (some 2)]

/-- The tasks before these calls. -/
def bootTasks : Tasks :=
  Tasks.init (Scheduler.initWithConfig bootMemory.memory none 0).1 fun _ => ⟨0, 1, semMagicWord⟩

theorem linkedTaskCalls_trace :
    Trace TaskOp.OrderStep bootTasks linkedTaskCalls (linkedTaskCalls.foldl TaskOp.run bootTasks) :=
  Trace.of_guards (by decide +kernel)

theorem linkedTasks_refine_linkedTaskCalls :
    (linkedTaskCalls.foldl TaskOp.run bootTasks).kernel.taskRegistry.nodes = [0, 1, 3] ∧
    ((linkedTaskCalls.foldl TaskOp.run bootTasks).system.mutexes 0).magic = 0 ∧
    ∃ c, (∀ n, 21 < n →
        boot .reference .reference bootMemory n none 0 linkedTaskCalls = some c ∧
        c.kernel.visitAllTasks n =
          some (linkedTaskCalls.foldl TaskOp.run bootTasks).kernel.taskRegistry.nodes) ∧
      c.Refines (linkedTaskCalls.foldl TaskOp.run bootTasks) ∧
      (∀ S, Ring c.kernel.lists.heap (.stateRoot S)
        (((linkedTaskCalls.foldl TaskOp.run bootTasks).kernel.stateLists S).nodes.map
          .stateNode)) ∧
      (∀ W, Ring c.kernel.lists.heap (.waitRoot W)
        (((linkedTaskCalls.foldl TaskOp.run bootTasks).kernel.waitLists W).nodes.map
          .eventNode)) ∧
      Ring c.kernel.registry .root
        ((linkedTaskCalls.foldl TaskOp.run bootTasks).kernel.taskRegistry.nodes.map
          .registryNode) :=
  ⟨by decide +kernel, by decide +kernel,
    linkedTasks_refine ListLibrary.reference_lawful ListLibrary.reference_lawful bootMemory_fresh
      (by decide) linkedTaskCalls_trace⟩

end LinkedTasks

end Sertos
