import Sertos.CycleMoves
import Sertos.HeldPriority

/-!
# Runs in which the lists stay right

`Tasks.Ordered` is the invariant of the runs whose calls are in order.  It splits the tasks in two:
those of the scheduling cycle, of which an invariant `P` of the kernel holds, and the others, which
are in no list at all.  Suspending or deleting a `READY` task moves it from the first part to the
second, resuming a `SUSPENDED` one moves it back.

The critical sections of the calls keep it for every `P` that is `Kept`, the whole calls for every
`P` that is `Lasting` or `Lockable` (`Ordered.step`).  With `Kernel.Steady` it is the invariant of
runs in which the scheduler may be locked, with `Kernel.Unlocked` of those in which it never is.
-/

set_option autoImplicit false

namespace Sertos

open Intrusive Lts Scheduler

/-- The control block of a task that was suspended while it was `READY`. -/
structure Tcb.Resumable (b : Tcb) : Prop where
  state : b.state = .suspended
  priority_lt : b.priority < maxPriorities
  delayTicks : b.delayTicks = 0
  waitList : b.waitList = none
  eventLinked : b.eventLinked = false

theorem Tcb.Resumable.consistent {b : Tcb} (h : b.Resumable) :
    ({ b with state := .ready, stateLinked := true } : Tcb).Consistent :=
  ⟨h.priority_lt, Or.inl rfl, fun _ => ⟨h.delayTicks, h.waitList⟩, fun e => by simp at e, rfl,
    h.eventLinked⟩

theorem Tcb.Consistent.resumable {b : Tcb} (h : b.Consistent) (hr : b.state = .ready) :
    ({ b with state := .suspended } : Tcb).Resumable := by
  obtain ⟨hd, hw⟩ := h.awake (by simp [hr])
  exact ⟨rfl, h.priority_lt, hd, hw, (Kernel.links_of_consistent h (by rw [hr]; rfl)).2⟩

/-! ## The wait for a mutex -/

/-- The wait for a mutex is a call of `sertos_scheduler_wait_list_block`, made after the owner has
inherited the priority of the caller. -/
theorem Mutex.wait_eq_block {k : Kernel} {o c : TaskId} {m timeout : ℕ} (hc : k.currentTcb = some c)
    (hrun : k.isRunning = true) :
    switchContext (waitListBlockSection (applyPriorityInheritance k o c) c (.mutex m) timeout) =
      (Call.block (.mutex m) timeout).run (applyPriorityInheritance k o c) := by
  have hcur : (applyPriorityInheritance k o c).currentTcb = some c := by
    rw [applyPriorityInheritance_frame]
    exact hc
  have hrun' : (applyPriorityInheritance k o c).isRunning = true := by
    rw [applyPriorityInheritance_frame]
    exact hrun
  simp only [Call.run, waitListBlock, hrun', hcur]

theorem Api.Scheduled.block_allowed {s : System} {o c : TaskId} {m timeout : ℕ}
    (ha : (Api.lock m timeout).Scheduled s) (ht : timeout ≠ noWait) :
    (Call.block (.mutex m) timeout).Allowed (Mutex.applyPriorityInheritance s.kernel o c) := by
  refine ⟨ht, ?_⟩
  rw [Mutex.applyPriorityInheritance_frame]
  exact ha.2.2.resolve_left ht

namespace Task

variable {k : Kernel} {t : TaskId}

/-- No task function but `sertos_task_set_priority` writes a base priority. -/
theorem modify_withdraw_basePriority {f : Tcb → Tcb}
    (hf : ∀ b, (f b).basePriority = b.basePriority) (u : TaskId) :
    (((withdraw k t).modify t f).tcb u).basePriority = (k.tcb u).basePriority := by
  by_cases hu : u = t
  · rw [hu, Kernel.modify_tcb_same, hf, withdraw_tcb]
  · rw [Kernel.modify_tcb_of_ne _ _ _ hu, withdraw_tcb]

theorem suspendSection_basePriority (u : TaskId) :
    ((suspendSection k t).tcb u).basePriority = (k.tcb u).basePriority :=
  modify_withdraw_basePriority (f := fun b => { b with state := .suspended }) (fun _ => rfl) u

theorem deleteSection_basePriority (u : TaskId) :
    ((deleteSection k t).tcb u).basePriority = (k.tcb u).basePriority := by
  rw [deleteSection, unregisterTask_eq]
  exact modify_withdraw_basePriority (f := fun b => { b with state := .terminated }) (fun _ => rfl) u

end Task

namespace Tasks

/-- The tasks of `r` are in the scheduling cycle, where `P` holds, and the others in no list. -/
structure Ordered (s : Tasks) (P : Kernel → Prop) (r : LinkedList TaskId) : Prop where
  kernel : P (s.kernel.among r)
  registered : r.nodes ⊆ s.kernel.taskRegistry.nodes
  registryWF : s.kernel.taskRegistry.WF
  created : ∀ t, s.kernel.Live t → s.magic t = Task.magicWord
  out : ∀ t, s.magic t = Task.magicWord → t ∉ r.nodes →
    (s.kernel.tcb t).state = .terminated ∨ (s.kernel.Live t ∧ (s.kernel.tcb t).Resumable)
  base : ∀ t, s.kernel.Live t → (s.kernel.tcb t).basePriority < maxPriorities
  owner : ∀ m o, (s.system.mutexes m).owner = some o →
    s.magic o = Task.magicWord ∧ (s.system.mutexes m).originalOwnerPriority < maxPriorities

/-- The invariant of runs with the scheduler unlocked. -/
abbrev Orderly (s : Tasks) (r : LinkedList TaskId) : Prop := s.Ordered Kernel.Unlocked r

namespace Ordered

variable {P : Kernel → Prop} {s s' : Tasks} {r : LinkedList TaskId} {t c o : TaskId} {k : Kernel}
  {op : TaskOp} {p m timeout : ℕ}

theorem created_of_mem (h : s.Ordered P r) (ht : t ∈ r.nodes) : s.magic t = Task.magicWord :=
  h.created t (h.registered ht)

theorem setMutex (h : s.Ordered P r) {m : ℕ} {x : Mutex}
    (hx : ∀ o, x.owner = some o →
      s.magic o = Task.magicWord ∧ x.originalOwnerPriority < maxPriorities) :
    ({ s with system := s.system.setMutex m x } : Tasks).Ordered P r := by
  refine { h with owner := fun n o hn => ?_ }
  by_cases hnm : n = m
  · subst hnm
    rw [System.setMutex_mutexes_same] at hn ⊢
    exact hx o hn
  · rw [System.setMutex_mutexes_of_ne _ _ _ hnm] at hn ⊢
    exact h.owner n o hn

theorem setPc (h : s.Ordered P r) (t : TaskId) (q : Pc) :
    ({ s with system := s.system.setPc t q } : Tasks).Ordered P r :=
  { h with }

section Kept

variable [hP : Kernel.Kept P]

theorem inv (h : s.Ordered P r) : (s.kernel.among r).Inv := hP.inv h.kernel

theorem wf (h : s.Ordered P r) : r.WF := h.inv.lists.registryWF

theorem mem_current (h : s.Ordered P r) (hc : s.kernel.currentTcb = some c) : c ∈ r.nodes :=
  h.inv.current_live c hc

theorem active (h : s.Ordered P r) (ht : t ∈ r.nodes) :
    (s.kernel.tcb t).state = .ready ∨ (s.kernel.tcb t).state = .running ∨
      (s.kernel.tcb t).state = .blocked := by
  rcases (h.inv.lists.consistent t ht).active with hr | hb
  · rcases TaskState.isReady_iff.1 hr with hr | hr
    · exact Or.inl hr
    · exact Or.inr (Or.inl hr)
  · exact Or.inr (Or.inr hb)

/-- A task outside the cycle is retired. -/
theorem retired (h : s.Ordered P r) (hm : s.magic t = Task.magicWord) (ht : t ∉ r.nodes) :
    s.kernel.Retired t where
  inactive := by
    rcases h.out t hm ht with e | ⟨-, e⟩
    · exact Or.inr e
    · exact Or.inl e.state
  state_free L hL := ht (h.inv.lists.live_of_mem_stateLists hL)
  wait_free W hW := ht ((h.inv.lists.mem_waitLists W t).1 hW).1
  not_current hc := ht (h.mem_current hc)

/-- A task that is neither suspended nor terminated is in the cycle. -/
theorem mem_of_active (h : s.Ordered P r) (hm : s.magic t = Task.magicWord)
    (hs : (s.kernel.tcb t).state ≠ .suspended) (hs' : (s.kernel.tcb t).state ≠ .terminated) :
    t ∈ r.nodes := by
  by_contra ht
  rcases (h.retired hm ht).inactive with e | e
  · exact hs e
  · exact hs' e

/-- A ready task is in the cycle. -/
theorem ready_among (h : s.Ordered P r) : (s.kernel.among r).Ready t ↔ s.kernel.Ready t := by
  refine ⟨fun ht => ⟨h.registered ht.1, ht.2⟩, fun ht => ⟨?_, ht.2⟩⟩
  have hr : (s.kernel.tcb t).state.isReady = true := ht.2
  refine h.mem_of_active (h.created t ht.1) (fun e => ?_) fun e => ?_ <;> rw [e] at hr <;>
    exact absurd hr (by simp [TaskState.isReady])

/-- A `SUSPENDED` task is not in the cycle, and can be resumed. -/
theorem of_suspended (h : s.Ordered P r) (hm : s.magic t = Task.magicWord)
    (hs : (s.kernel.tcb t).state = .suspended) :
    t ∉ r.nodes ∧ s.kernel.Live t ∧ (s.kernel.tcb t).Resumable := by
  have ht : t ∉ r.nodes := by
    intro ht
    rcases h.active ht with e | e | e <;> rw [hs] at e <;> exact absurd e (by simp)
  refine ⟨ht, (h.out t hm ht).resolve_left fun e => ?_⟩
  rw [hs] at e
  exact absurd e (by simp)

/-- A task that runs or waits is in some list. -/
theorem linked (h : s.Ordered P r) (hm : s.magic t = Task.magicWord)
    (hs : (s.kernel.tcb t).state = .running ∨ (s.kernel.tcb t).state = .blocked) :
    s.kernel.Linked t := by
  have hmem : t ∈ r.nodes := by
    refine h.mem_of_active hm ?_ ?_ <;> rcases hs with e | e <;> rw [e] <;> simp
  rcases hs with hr | hb
  · have hready : (s.kernel.among r).Ready t := ⟨hmem, by rw [Kernel.among_tcb, hr]; rfl⟩
    exact Or.inl ⟨_, h.inv.lists.mem_readyQueue_iff_ready.2 hready⟩
  · rcases (h.inv.lists.consistent t hmem).wakeable hb with hd | hw
    · exact Or.inl ⟨_, h.inv.lists.mem_delayList.2 ⟨hmem, hb, hd⟩⟩
    · obtain ⟨W, hW⟩ := Option.ne_none_iff_exists'.1 hw
      exact Or.inr ⟨W, (h.inv.lists.mem_waitList W).2 ⟨hmem, hb, hW⟩⟩

/-- A change of the kernel that moves no task into the cycle or out of it. -/
theorem setKernel (h : s.Ordered P r) (hk : P (k.among r))
    (hreg : k.taskRegistry = s.kernel.taskRegistry)
    (hbase : ∀ t, s.kernel.Live t → (k.tcb t).basePriority = (s.kernel.tcb t).basePriority)
    (hlends : ∀ t, Kernel.Lends t s.kernel k) : (s.setKernel k).Ordered P r where
  kernel := hk
  registered := by rw [setKernel_kernel, hreg]; exact h.registered
  registryWF := by rw [setKernel_kernel, hreg]; exact h.registryWF
  created t ht := h.created t (by rwa [setKernel_kernel, Kernel.Live, hreg] at ht)
  out t hm ht := by
    obtain ⟨-, p, hp, e⟩ := hlends t (h.retired hm ht)
    rw [setKernel_kernel, e, Kernel.Live, hreg]
    rcases h.out t hm ht with hs | ⟨hlive, hr⟩
    · exact Or.inl hs
    · refine Or.inr ⟨hlive, hr.state, ?_, hr.delayTicks, hr.waitList, hr.eventLinked⟩
      rcases hp with rfl | ⟨c, hc, rfl⟩
      · exact hr.priority_lt
      · exact h.inv.lists.priority_lt (h.mem_current hc)
  base t ht := by
    rw [setKernel_kernel, Kernel.Live, hreg] at ht
    exact (hbase t ht).trans_lt (h.base t ht)
  owner := h.owner

/-- A call that moves the task `t` into the cycle or out of it, or writes its control block. -/
theorem move {r' : LinkedList TaskId} (h : s.Ordered P r) (hk : P (s'.kernel.among r'))
    (hr : ∀ u, u ≠ t → (u ∈ r'.nodes ↔ u ∈ r.nodes))
    (hreg : ∀ u, u ≠ t → (s'.kernel.Live u ↔ s.kernel.Live u)) (hwf : s'.kernel.taskRegistry.WF)
    (hmagic : s'.magic = Function.update s.magic t Task.magicWord)
    (hmutexes : s'.system.mutexes = s.system.mutexes)
    (hspares : ∀ u, u ≠ t → Kernel.Spares u s.kernel s'.kernel)
    (hbase : ∀ u, s'.kernel.Live u → (s'.kernel.tcb u).basePriority < maxPriorities)
    (hin : t ∈ r'.nodes → s'.kernel.Live t)
    (hout : t ∉ r'.nodes → (s'.kernel.tcb t).state = .terminated ∨
      (s'.kernel.Live t ∧ (s'.kernel.tcb t).Resumable)) : s'.Ordered P r' := by
  have hword : ∀ u, s.magic u = Task.magicWord → s'.magic u = Task.magicWord := by
    intro u hu
    rw [hmagic, Function.update_apply]
    split
    · rfl
    · exact hu
  refine ⟨hk, fun u hu => ?_, hwf, fun u hu => ?_, fun u hm hu => ?_, hbase, fun m o ho => ?_⟩
  · by_cases hut : u = t
    · subst hut
      exact hin hu
    · exact (hreg u hut).2 (h.registered ((hr u hut).1 hu))
  · by_cases hut : u = t
    · rw [hmagic, hut, Function.update_self]
    · exact hword u (h.created u ((hreg u hut).1 hu))
  · by_cases hut : u = t
    · subst hut
      exact hout hu
    · have hur : u ∉ r.nodes := fun e => hu ((hr u hut).2 e)
      rw [hmagic, Function.update_of_ne hut] at hm
      obtain ⟨-, htcb⟩ := hspares u hut (h.retired hm hur)
      rw [htcb, hreg u hut]
      exact h.out u hm hur
  · rw [hmutexes] at ho ⊢
    exact (h.owner m o ho).imp_left (hword o)

/-! ## Critical sections -/

/-- Another priority, for a task in the cycle or not. -/
theorem changePriority (h : s.Ordered P r) (hm : s.magic t = Task.magicWord)
    (hp : p < maxPriorities)
    (hcond : (s.kernel.tcb t).state ≠ .running ∨ p = (s.kernel.tcb t).priority) :
    P ((Mutex.changePriority s.kernel t p).among r) := by
  by_cases htr : t ∈ r.nodes
  · rw [← Kernel.changePriority_among]
    exact hP.moved h.kernel (.priority htr hp hcond rfl)
  · have hne : (s.kernel.tcb t).state ≠ .ready := by
      rcases (h.retired hm htr).inactive with e | e <;> rw [e] <;> simp
    rw [Mutex.changePriority, if_neg hne, ← Kernel.modify_among]
    exact hP.moved h.kernel (.modify htr)

/-- The owner of a mutex inherits a priority, whether it is in the cycle or not. -/
theorem boost (h : s.Ordered P r) (hc : s.kernel.currentTcb = some c)
    (ho : s.magic o = Task.magicWord) (hoc : o ≠ c) :
    P ((Mutex.applyPriorityInheritance s.kernel o c).among r) := by
  rw [Mutex.applyPriorityInheritance]
  split
  · refine h.changePriority ho (h.inv.lists.priority_lt (h.mem_current hc)) (Or.inl fun hs => ?_)
    -- a running task is the current one
    have hor := h.mem_of_active ho (by simp [hs]) (by simp [hs])
    exact hoc (Option.some_inj.1 ((h.inv.running o hor hs).symm.trans hc))
  · exact h.kernel

/-- A change of the kernel that gives a task another priority. -/
theorem reprioritize (h : s.Ordered P r) (hm : s.magic t = Task.magicWord) (hp : p < maxPriorities)
    (hk : P (k.among r)) (hreg : k.taskRegistry = s.kernel.taskRegistry)
    (hspares : ∀ u, u ≠ t → Kernel.Spares u s.kernel k)
    (hbase : ∀ u, s.kernel.Live u → (k.tcb u).basePriority < maxPriorities)
    (htcb : (s.kernel.tcb t).state ≠ .ready →
      ∃ q, k.tcb t = { s.kernel.tcb t with priority := p, basePriority := q }) :
    (s.setKernel k).Ordered P r := by
  have hlive : ∀ u, k.Live u ↔ s.kernel.Live u := fun u => by rw [Kernel.Live, Kernel.Live, hreg]
  refine h.move (t := t) hk (fun _ _ => Iff.rfl) (fun u _ => hlive u) ?_ ?_ rfl hspares
    (fun u hu => hbase u ((hlive u).1 hu)) (fun hmem => (hlive t).2 (h.registered hmem))
    fun htr => ?_
  · rw [setKernel_kernel, hreg]
    exact h.registryWF
  · rw [setKernel_magic, ← hm, Function.update_eq_self]
  · -- of a task outside the cycle only the two fields are written
    have hne : (s.kernel.tcb t).state ≠ .ready := by
      rcases (h.retired hm htr).inactive with e | e <;> rw [e] <;> simp
    obtain ⟨q, e⟩ := htcb hne
    rw [setKernel_kernel, hlive, e]
    rcases h.out t hm htr with hs | ⟨hlive, hr⟩
    · exact Or.inl hs
    · exact Or.inr ⟨hlive, hr.state, hp, hr.delayTicks, hr.waitList, hr.eventLinked⟩

/-- The critical section of `sertos_task_set_priority`. -/
theorem setPrioritySection (h : s.Ordered P r) (hm : s.magic t = Task.magicWord)
    (hp : p < maxPriorities)
    (hcond : (s.kernel.tcb t).state ≠ .running ∨ p = (s.kernel.tcb t).priority) :
    (s.setKernel (Task.setPrioritySection s.kernel t p)).Ordered P r := by
  have hk := hP.moved (h.changePriority hm hp hcond) (Kernel.Moved.modify_basePriority _ t p)
  rw [Kernel.modify_among, ← Task.setPrioritySection_eq] at hk
  refine h.reprioritize hm hp hk (by rw [Task.setPrioritySection_frame])
    (fun u hu => Task.setPrioritySection_spares hu) (fun u hu => ?_) fun hne => ⟨p, ?_⟩
  · by_cases hut : u = t
    · rw [hut, Task.setPrioritySection_tcb_same]
      exact hp
    · rw [Task.setPrioritySection_tcb_of_ne hut]
      exact h.base u hu
  · rw [Task.setPrioritySection_of_ne_ready hne, Kernel.modify_tcb_same]

/-- The owner of a mutex gets its priority back, when the mutex is deleted. -/
theorem restoreOwner (h : s.Ordered P r)
    (hcond : ∀ o, (s.system.mutexes m).owner = some o → ((s.kernel.tcb o).state ≠ .running ∨
      (s.system.mutexes m).originalOwnerPriority = (s.kernel.tcb o).priority)) :
    (s.setKernel (Mutex.restoreOwner s.kernel (s.system.mutexes m))).Ordered P r := by
  rcases Mutex.restoreOwner_cases (k := s.kernel) (s.system.mutexes m) with e | ⟨o, ho, -, e⟩ <;>
    rw [e]
  · exact { h with }
  · obtain ⟨hm, hp⟩ := h.owner m o ho
    refine h.reprioritize hm hp (h.changePriority hm hp (hcond o ho))
      (by rw [Mutex.changePriority_frame]) (fun u hu => .changePriority _ hu.symm) (fun u hu => ?_)
      fun hne => ⟨(s.kernel.tcb o).basePriority, ?_⟩
    · rw [Mutex.changePriority_tcb]
      exact h.base u hu
    · rw [Mutex.changePriority, if_neg hne, Kernel.modify_tcb_same]

/-- A new task. -/
theorem enroll (h : s.Ordered P r) {config : TaskConfig} (ht : ¬ s.kernel.Live t)
    (hp : config.priority < maxPriorities) :
    ({ system := ({ s.system with kernel := s.kernel.enroll t config } : System).setPc t .idle
       magic := Function.update s.magic t Task.magicWord } : Tasks).Ordered P (r.insertTail t) := by
  have htr : t ∉ r.nodes := fun hm => ht (h.registered hm)
  have hk : P ((s.kernel.enroll t config).among (r.insertTail t)) :=
    hP.moved h.kernel (.joined (Kernel.joined_enroll (k := s.kernel.among r) hp) htr)
  refine h.move (t := t) hk (fun u hu => by simp [hu]) (fun u hu => ?_) (h.registryWF.insertTail ht)
    rfl rfl (fun u hu => ?_) (fun u hu => ?_) (fun _ => Kernel.live_enroll.2 (Or.inr rfl)) fun e => ?_
  · exact Kernel.live_enroll.trans (by simp [hu])
  · exact Kernel.Spares.enroll config hu.symm
  · by_cases hut : u = t
    · rw [hut]
      exact (congrArg Tcb.basePriority Kernel.enroll_tcb_same).trans_lt hp
    · exact (congrArg Tcb.basePriority (Kernel.enroll_tcb_of_ne hut)).trans_lt
        (h.base u ((Kernel.live_enroll.1 hu).resolve_right hut))
  · exact absurd (LinkedList.mem_insertTail.2 (Or.inr rfl)) e

/-- A `READY` task is taken out of its queue. -/
theorem withdraw (h : s.Ordered P r) (hm : s.magic t = Task.magicWord)
    (hs : (s.kernel.tcb t).state = .ready) (hcur : s.kernel.currentTcb ≠ some t)
    (hidle : t ≠ idleTcb) (f : Tcb → Tcb) :
    P (((Task.withdraw s.kernel t).modify t f).among (r.remove t)) := by
  have htr := h.mem_of_active hm (by simp [hs]) (by simp [hs])
  have hready : (s.kernel.among r).Ready t := ⟨htr, by rw [Kernel.among_tcb, hs]; rfl⟩
  exact hP.moved h.kernel (.left (Kernel.left_withdraw h.inv.lists htr hs) hready hcur hidle)

/-- The critical section of `sertos_task_suspend`, for a `READY` task. -/
theorem suspendSection (h : s.Ordered P r) (hm : s.magic t = Task.magicWord)
    (hs : (s.kernel.tcb t).state = .ready) (hcur : s.kernel.currentTcb ≠ some t)
    (hidle : t ≠ idleTcb) :
    (s.setKernel (Task.suspendSection s.kernel t)).Ordered P (r.remove t) := by
  have htr := h.mem_of_active hm (by simp [hs]) (by simp [hs])
  have hlive : (Task.suspendSection s.kernel t).taskRegistry = s.kernel.taskRegistry :=
    Task.withdraw_taskRegistry
  refine h.move (t := t) (h.withdraw hm hs hcur hidle fun b => { b with state := .suspended })
    (fun u hu => ?_) (fun u _ => ?_) ?_ ?_ rfl
    (fun u hu => Task.suspendSection_spares hu.symm) (fun u hu => ?_) (fun hmem => ?_)
    fun _ => Or.inr ⟨?_, ?_⟩
  · rw [h.wf.mem_remove]
    simp [hu]
  · rw [setKernel_kernel, Kernel.Live, Kernel.Live, hlive]
  · rw [setKernel_kernel, hlive]
    exact h.registryWF
  · rw [setKernel_magic, ← hm, Function.update_eq_self]
  · rw [setKernel_kernel, Kernel.Live, hlive] at hu
    rw [setKernel_kernel, Task.suspendSection_basePriority]
    exact h.base u hu
  · exact absurd rfl (h.wf.mem_remove.1 hmem).1
  · rw [setKernel_kernel, Kernel.Live, hlive]
    exact h.registered htr
  · rw [setKernel_kernel, Task.suspendSection, Kernel.modify_tcb_same, Task.withdraw_tcb]
    exact (h.inv.lists.consistent t htr).resumable hs

/-- What a deletion leaves of a task that was `READY` or `SUSPENDED`. -/
theorem deleteSection_of_live {r' : LinkedList TaskId} (h : s.Ordered P r)
    (hm : s.magic t = Task.magicWord) (hlive : s.kernel.Live t)
    (hk : P ((Task.deleteSection s.kernel t).among r'))
    (hr : ∀ u, u ∈ r'.nodes ↔ u ≠ t ∧ u ∈ r.nodes) :
    (s.setKernel (Task.deleteSection s.kernel t)).Ordered P r' := by
  have hreg := Task.deleteSection_taskRegistry hlive
  refine h.move (t := t) hk (fun u hu => ?_) (fun u hu => ?_) ?_ ?_ rfl (fun u hu => ?_)
    (fun u hu => ?_) (fun hmem => absurd rfl ((hr t).1 hmem).1) fun _ => Or.inl ?_
  · rw [hr]
    simp [hu]
  · rw [setKernel_kernel, Kernel.Live, hreg, h.registryWF.mem_remove]
    simp [hu, Kernel.Live]
  · rw [setKernel_kernel, hreg]
    exact h.registryWF.remove hlive
  · rw [setKernel_magic, ← hm, Function.update_eq_self]
  · exact Task.deleteSection_spares hu.symm
  · rw [setKernel_kernel, Kernel.Live, hreg, h.registryWF.mem_remove] at hu
    rw [setKernel_kernel, Task.deleteSection_basePriority]
    exact h.base u hu.2
  · rw [setKernel_kernel, Task.deleteSection, Kernel.modify_tcb_same]

/-- The critical section of `sertos_task_delete`, for a `READY` or `SUSPENDED` task. -/
theorem deleteSection (h : s.Ordered P r) (hm : s.magic t = Task.magicWord)
    (hs : (s.kernel.tcb t).state = .ready ∨ (s.kernel.tcb t).state = .suspended)
    (hcur : s.kernel.currentTcb ≠ some t) (hidle : t ≠ idleTcb) :
    ∃ r', (s.setKernel (Task.deleteSection s.kernel t)).Ordered P r' := by
  rcases hs with hready | hsuspended
  · have htr := h.mem_of_active hm (by simp [hready]) (by simp [hready])
    have hk : P ((Task.deleteSection s.kernel t).among (r.remove t)) := by
      rw [Task.deleteSection, Task.unregisterTask_eq]
      exact h.withdraw hm hready hcur hidle fun b => { b with state := .terminated }
    exact ⟨_, h.deleteSection_of_live hm (h.registered htr) hk fun u => h.wf.mem_remove⟩
  · obtain ⟨htr, hlive, -⟩ := h.of_suspended hm hsuspended
    have hk : P ((Task.deleteSection s.kernel t).among r) := by
      rw [Task.deleteSection, Task.unregisterTask_eq, Task.withdraw, hsuspended, if_neg (by simp)]
      have hk := hP.moved h.kernel
        (Kernel.Moved.modify (f := fun b => { b with state := .terminated }) htr)
      exact hk
    refine ⟨r, h.deleteSection_of_live hm hlive hk fun u => ?_⟩
    exact ⟨fun hu => ⟨fun e => htr (e ▸ hu), hu⟩, fun hu => hu.2⟩

/-- The critical section of `sertos_task_resume`, for a `SUSPENDED` task. -/
theorem resumeSection (h : s.Ordered P r) (hm : s.magic t = Task.magicWord)
    (hs : (s.kernel.tcb t).state = .suspended) :
    (s.setKernel (addReady s.kernel t).1).Ordered P (r.insertTail t) := by
  obtain ⟨htr, hlive, hres⟩ := h.of_suspended hm hs
  have hk : P ((addReady s.kernel t).1.among (r.insertTail t)) :=
    hP.moved h.kernel (.joined (Kernel.joined_addReady hres.priority_lt hres.consistent) htr)
  have hreg : (addReady s.kernel t).1.taskRegistry = s.kernel.taskRegistry := by rw [addReady_frame]
  have hlive' : ∀ u, (addReady s.kernel t).1.Live u ↔ s.kernel.Live u :=
    fun u => by rw [Kernel.Live, Kernel.Live, hreg]
  refine h.move (t := t) hk (fun u hu => by simp [hu]) (fun u _ => hlive' u) ?_ ?_ rfl
    (fun u hu => Kernel.Spares.addReady hu.symm) (fun u hu => ?_) (fun _ => (hlive' t).2 hlive)
    fun hn => ?_
  · rw [setKernel_kernel, hreg]
    exact h.registryWF
  · rw [setKernel_magic, ← hm, Function.update_eq_self]
  · have hu' := (hlive' u).1 hu
    exact (Kernel.SamePriorities.addReady.basePriority hu').trans_lt (h.base u hu')
  · exact absurd (LinkedList.mem_insertTail.2 (Or.inr rfl)) hn

/-- The first waiter of `W` is woken. -/
theorem unblock (h : s.Ordered P r) (W : WaitList) :
    (s.setKernel (waitListUnblockHighest s.kernel W).1).Ordered P r := by
  refine h.setKernel ?_ (by rw [unblockHighest_frame])
    (fun t => Kernel.SamePriorities.unblockHighest.basePriority)
    fun t => (Kernel.Spares.unblockHighest W).lends
  rw [← Kernel.unblockHighest_among]
  exact hP.unblock W h.kernel

/-- The loop that empties a wait list. -/
theorem unblockAll (h : s.Ordered P r) (W : WaitList) :
    (s.setKernel (unblockAll s.kernel W)).Ordered P r :=
  unblockAll_induction (motive := fun k => (s.setKernel k).Ordered P r) W { h with }
    fun _ hk => hk.unblock W

/-- The critical section of `sertos_mutex_delete`. -/
theorem deleteMutexSection (h : s.Ordered P r)
    (hcond : ∀ o, (s.system.mutexes m).owner = some o → ((s.kernel.tcb o).state ≠ .running ∨
      (s.system.mutexes m).originalOwnerPriority = (s.kernel.tcb o).priority)) :
    ({ s with system := Mutex.deleteSection s.system m } : Tasks).Ordered P r :=
  ((h.restoreOwner hcond).unblockAll (.mutex m)).setMutex (m := m)
    (x := { s.system.mutexes m with magic := 0 }) fun o ho => h.owner m o ho

/-- The end of `sertos_mutex_lock` after a wait. -/
theorem lockResume (h : s.Ordered P r) (hc : s.kernel.currentTcb = some c) :
    ({ s with system := (Mutex.lockResume s.system m c timeout).1 } : Tasks).Ordered P r := by
  simp only [Mutex.lockResume, Mutex.lockReturn]
  split
  · refine (h.setMutex (m := m) (x := { s.system.mutexes m with
        owner := some c
        lockCount := 1
        originalOwnerPriority := (s.kernel.tcb c).basePriority }) fun o ho => ?_).setPc c .idle
    obtain rfl : c = o := Option.some_inj.1 ho
    exact ⟨h.created_of_mem (h.mem_current hc), h.base c (h.registered (h.mem_current hc))⟩
  · exact h.setPc c .idle

end Kept

/-! ## Whole calls -/

section Lasting

variable [hP : Kernel.Lasting P] {handle : Option TaskId}

theorem settled (h : s.Ordered P r) : (s.kernel.among r).Settled := hP.settled h.kernel

/-- The current task is `RUNNING`. -/
theorem not_current (h : s.Ordered P r) (hs : (s.kernel.tcb t).state ≠ .running) :
    s.kernel.currentTcb ≠ some t :=
  fun hc => hs (h.settled.current_running t hc)

/-- A call of the scheduler. -/
theorem run_among (h : P (k.among r)) {a : Call} (ha : a.Plain) (hallowed : a.Allowed k)
    (hb : a.BlocksUnlocked k) : P ((a.run k).among r) := by
  rw [← Call.run_among k r ha]
  refine hP.run h ha ((Call.allowed_among ha.not_creates).2 hallowed) ?_
  cases a with
  | create config t => exact ha.elim
  | _ => exact hb

theorem sched (h : s.Ordered P r) {a : Call} (hplain : a.Plain) (ha : a.Allowed s.kernel)
    (hb : a.BlocksUnlocked s.kernel) : (s.setKernel (a.run s.kernel)).Ordered P r := by
  refine h.setKernel (run_among h.kernel hplain ha hb) (Call.run_taskRegistry _ hplain)
    (fun t => (Kernel.SamePriorities.run ha).basePriority) fun t => ?_
  have hspares : Kernel.Spares t s.kernel (a.run s.kernel) := Call.spares fun config e => by
    rw [e] at hplain
    exact hplain
  exact hspares.lends

theorem reschedule (h : s.Ordered P r) : (s.setKernel (reschedule s.kernel)).Ordered P r :=
  h.sched (a := .reschedule) trivial trivial trivial

theorem switch (h : s.Ordered P r) : (s.setKernel (performSwitch s.kernel)).Ordered P r := by
  refine h.setKernel ?_ (by rw [performSwitch_frame])
    (fun t => Kernel.SamePriorities.performSwitch.basePriority)
    fun t => Kernel.Spares.performSwitch.lends
  rw [← Kernel.performSwitch_among]
  exact hP.performSwitch h.kernel

theorem lock (h : s.Ordered P r) (ha : (Api.lock m timeout).Scheduled s.system)
    (hb : (Mutex.lock s.system m timeout).2 = none → s.kernel.lockNesting = 0) :
    ({ s with system := (Mutex.lock s.system m timeout).1 } : Tasks).Ordered P r := by
  have hlends := fun t => Mutex.lock_lends (t := t) s.system m timeout
  have he := Mutex.lock_effect s.system m timeout
  generalize Mutex.lock s.system m timeout = x at he hlends hb ⊢
  cases he with
  | invalid => exact h
  | noTask => exact h
  | @acquire c hc _ =>
    refine h.setMutex fun o ho => ?_
    obtain rfl : c = o := Option.some_inj.1 ho
    exact ⟨h.created_of_mem (h.mem_current hc), h.inv.lists.priority_lt (h.mem_current hc)⟩
  | again => exact h.setMutex fun o ho => h.owner m o ho
  | @fail c o _ hc ho hoc _ =>
    refine h.setKernel (h.boost hc (h.owner m o ho).1 hoc) ?_ (fun t _ => ?_) hlends
    · rw [Mutex.applyPriorityInheritance_frame]
      rfl
    · rw [Mutex.applyPriorityInheritance_tcb]
      rfl
  | @wait c o hc ho hoc ht hrun =>
    have hboost := h.boost hc (h.owner m o ho).1 hoc
    have hnest : (Mutex.applyPriorityInheritance s.kernel o c).lockNesting = 0 := by
      rw [Mutex.applyPriorityInheritance_frame]
      exact hb rfl
    have hk := run_among hboost (a := .block (.mutex m) timeout) trivial (ha.block_allowed ht)
      fun _ => hnest
    have hreg := Call.run_taskRegistry (Mutex.applyPriorityInheritance s.kernel o c)
      (a := .block (.mutex m) timeout) trivial
    rw [← Mutex.wait_eq_block (k := s.kernel) hc hrun] at hk hreg
    have hsame : Kernel.SamePriorities (Mutex.applyPriorityInheritance s.kernel o c) _ :=
      (Kernel.SamePriorities.waitListBlockSection (c := c) (W := .mutex m) timeout).trans
        .switchContext
    refine (h.setKernel hk (hreg.trans (by rw [Mutex.applyPriorityInheritance_frame]))
      (fun u hu => (hsame.basePriority ?_).trans ?_) hlends).setPc c (.mutexWait m timeout)
    · rw [Kernel.Live, Mutex.applyPriorityInheritance_frame]
      exact hu
    · rw [Mutex.applyPriorityInheritance_tcb]

theorem unlock (h : s.Ordered P r) (hcond : (TaskOp.api (.unlock m)).NothingInherited s) :
    ({ s with system := (Mutex.unlock s.system m).1 } : Tasks).Ordered P r := by
  have hwake := h.unblock (.mutex m)
  by_cases hmagic : (s.system.mutexes m).magic = mutexMagicWord
  swap
  · rw [Mutex.unlock, if_pos hmagic]
    exact h
  have hkernel : ∀ c, s.system.FullRelease m c → (Mutex.unlock s.system m).1.kernel
      = Scheduler.reschedule (waitListUnblockHighest s.kernel (.mutex m)).1 := fun c hr =>
    System.unlock_kernel hmagic hr (hcond c ⟨hmagic, hr⟩)
  have he := Mutex.unlock_effect s.system m
  generalize Mutex.unlock s.system m = x at he hkernel ⊢
  cases he with
  | invalid => exact h
  | nested => exact h.setMutex fun o ho => h.owner m o ho
  | @release c hc ho hcount _ =>
    have hk := hkernel c ⟨hc, ho, hcount⟩
    have hresched := hwake.reschedule
    rw [System.setMutex_kernel] at hk
    rw [setKernel_kernel, ← hk] at hresched
    exact hresched.setMutex fun o ho => absurd ho (by simp)
  | @handOver c w rest hc ho hcount hW =>
    have hk := hkernel c ⟨hc, ho, hcount⟩
    have hresched := hwake.reschedule
    rw [System.setMutex_kernel] at hk
    rw [setKernel_kernel, ← hk] at hresched
    refine hresched.setMutex fun o ho => ?_
    obtain rfl : w = o := Option.some_inj.1 ho
    have hmem : w ∈ (s.kernel.waitLists (.mutex m)).nodes := by
      show w ∈ s.system.waiters m
      rw [hW]
      exact List.mem_cons_self
    have hmem' := ((h.inv.lists.mem_waitList _).1 hmem).1
    refine ⟨h.created_of_mem hmem', ?_⟩
    show ((Mutex.handedKernel s.system m c).tcb w).basePriority < maxPriorities
    rw [Mutex.handedKernel_basePriority hW]
    exact h.base w (h.registered hmem')

theorem create (h : s.Ordered P r) {config : TaskConfig} (ht : ¬ s.kernel.Live t) :
    ∃ r', ((TaskOp.create config t).run s).Ordered P r' := by
  simp only [TaskOp.run]
  rcases Task.createStatic_cases s.kernel config t with ⟨hne, e⟩ | ⟨hp, hok, e⟩
  · rw [if_neg hne, e]
    exact ⟨r, h⟩
  · have henrolled := h.enroll ht hp
    rw [if_pos hok, e]
    split
    · exact ⟨_, henrolled.reschedule⟩
    · exact ⟨_, henrolled⟩

theorem suspend (h : s.Ordered P r) (ha : (TaskOp.suspend handle).Allowed s)
    (hcond : (TaskOp.suspend handle).KeepsLists s) :
    ∃ r', ((TaskOp.suspend handle).run s).Ordered P r' := by
  simp only [TaskOp.run]
  rcases Task.suspend_cases s.kernel s.magic handle with ⟨-, e⟩ | ⟨t, ht, haccepts, e⟩
  · rw [e]
    exact ⟨r, h⟩
  · obtain ⟨hm, hvalid⟩ := Task.accepts_iff.1 haccepts
    obtain ⟨hrunning, hblocked⟩ := hcond t ht hm
    have hready : (s.kernel.tcb t).state = .ready := by
      rcases Task.isValidTransition_suspended.1 hvalid with hr | hb
      · exact (TaskState.isReady_iff.1 hr).resolve_right hrunning
      · exact absurd hb hblocked
    have hcur := h.not_current hrunning
    simp only [e, hcur, false_and, if_false]
    exact ⟨_, h.suspendSection hm hready hcur fun e => ha (e ▸ ht)⟩

theorem delete (h : s.Ordered P r) (ha : (TaskOp.delete handle).Allowed s)
    (hcond : (TaskOp.delete handle).KeepsLists s) :
    ∃ r', ((TaskOp.delete handle).run s).Ordered P r' := by
  simp only [TaskOp.run]
  rcases Task.delete_cases s.kernel s.magic handle with ⟨-, e⟩ | ⟨t, ht, haccepts, e⟩
  · rw [e]
    exact ⟨r, h⟩
  · obtain ⟨hm, hvalid⟩ := Task.accepts_iff.1 haccepts
    obtain ⟨hrunning, hblocked⟩ := hcond t ht hm
    have hcases : (s.kernel.tcb t).state = .ready ∨ (s.kernel.tcb t).state = .suspended := by
      have hne := Task.isValidTransition_terminated.1 hvalid
      cases hs : (s.kernel.tcb t).state <;> simp_all
    have hcur := h.not_current hrunning
    simp only [e, hcur, false_and, if_false]
    exact h.deleteSection hm hcases hcur fun e => ha (e ▸ ht)

theorem resume (h : s.Ordered P r) (hcond : (TaskOp.resume handle).KeepsLists s) :
    ∃ r', ((TaskOp.resume handle).run s).Ordered P r' := by
  simp only [TaskOp.run]
  rcases Task.resume_cases s.kernel s.magic handle with ⟨-, e⟩ | ⟨t, rfl, haccepts, hp, e⟩
  · rw [e]
    exact ⟨r, h⟩
  · obtain ⟨hm, hvalid⟩ := Task.accepts_iff.1 haccepts
    obtain ⟨hrunning, hblocked⟩ := hcond t rfl hm
    have hsuspended : (s.kernel.tcb t).state = .suspended :=
      ((Task.isValidTransition_ready.1 hvalid).resolve_left hrunning).resolve_left hblocked
    have hresumed := h.resumeSection hm hsuspended
    rw [e]
    simp only
    split
    · exact ⟨_, hresumed.reschedule⟩
    · exact ⟨_, hresumed⟩

theorem setPriority (h : s.Ordered P r) (hcond : (TaskOp.setPriority handle p).KeepsLists s) :
    ((TaskOp.setPriority handle p).run s).Ordered P r := by
  simp only [TaskOp.run]
  rcases Task.setPriority_cases s.kernel s.magic handle p with ⟨-, e⟩ | ⟨t, ht, hm, hp, e⟩
  · rw [e]
    exact h
  · rw [e]
    exact (h.setPrioritySection hm hp (hcond hp t ht hm)).reschedule

theorem deleteMutex (h : s.Ordered P r) (hcond : (TaskOp.deleteMutex m).KeepsLists s) :
    ((TaskOp.deleteMutex m).run s).Ordered P r := by
  simp only [TaskOp.run]
  rcases Mutex.delete_cases s.system m with ⟨-, e⟩ | ⟨hmagic, e⟩ <;> rw [e]
  · exact h
  · exact (h.deleteMutexSection (hcond hmagic)).reschedule

end Lasting

/-- **One call in order.** -/
theorem step [hP : Kernel.Lockable P] (h : s.Ordered P r) (hs : TaskOp.OrderStep s op s') :
    ∃ r', s'.Ordered P r' := by
  obtain ⟨⟨ha, hlists, hinherited, hblocks⟩, rfl⟩ := hs
  cases op with
  | api a =>
    refine ⟨r, ?_⟩
    cases a with
    | sched a =>
      cases a with
      | create config t => exact absurd trivial ha.2.1
      | lock =>
        exact h.setKernel (hP.lock h.kernel) rfl (fun _ _ => rfl) fun t =>
          (Call.spares (a := .lock) fun _ => by simp).lends
      | unlock =>
        refine h.setKernel ?_ ?_
          (fun t => (Kernel.SamePriorities.run (a := .unlock) trivial).basePriority)
          fun t => (Call.spares (a := .unlock) fun _ => by simp).lends
        · rw [Call.run, ← Kernel.unlock_among]
          exact hP.unlock h.kernel
        · rw [Call.run, Kernel.unlock_taskRegistry]
          rfl
      | _ => exact h.sched trivial ha.1.1 hblocks
    | dispatch t => exact ha.2.2.elim
    | lock m timeout => exact h.lock ha hblocks
    | resume =>
      obtain ⟨c, m, timeout, hc, -, e⟩ := Api.returned_cases ha.1
      simp only [TaskOp.run, e]
      exact h.lockResume hc
    | unlock m => exact h.unlock hinherited
  | create config t => exact h.create ha
  | switch => exact ⟨r, h.switch⟩
  | suspend handle => exact h.suspend ha hlists
  | resume handle => exact h.resume hlists
  | delete handle => exact h.delete ha hlists
  | setPriority handle p => exact ⟨r, h.setPriority hlists⟩
  | deleteMutex m => exact ⟨r, h.deleteMutex hlists⟩

end Ordered

variable {P : Kernel → Prop} {mem : Kernel} {config : Option Config} {idleStack : ℕ}
  {sems : ℕ → Semaphore} {ops : List TaskOp} {s s' : Tasks}

/-- Only the Idle task is there after the initialisation. -/
theorem init_ordered (hinit : (initWithConfig mem config idleStack).2 = .ok)
    (hk : P (initWithConfig mem config idleStack).1) :
    (init (initWithConfig mem config idleStack).1 sems).Ordered P
      (initWithConfig mem config idleStack).1.taskRegistry := by
  have hunlocked := Kernel.initWithConfig_unlocked hinit
  have hlive : ∀ t, (initWithConfig mem config idleStack).1.Live t ↔ t = idleTcb := by
    intro t
    rw [Kernel.Live, (initWithConfig_eq hinit).1.taskRegistry]
    exact Kernel.live_enroll.trans (by simp [Kernel.Live, initData])
  refine ⟨hk, List.Subset.refl _, hunlocked.lists.registryWF, fun t ht => ?_, fun t hm ht => ?_,
    fun t ht => ?_, fun m o ho => absurd ho (by simp [init, System.init, Mutex.fresh])⟩
  · rw [(hlive t).1 ht]
    simp [init]
  · by_cases hti : t = idleTcb
    · exact absurd ((hlive t).2 hti) ht
    · simp [init, hti, Task.magicWord] at hm
  · show ((initWithConfig mem config idleStack).1.tcb t).basePriority < maxPriorities
    rw [(hlive t).1 ht, (initWithConfig_eq hinit).1.tcb, Kernel.enroll_tcb_same]
    rcases Task.createStatic_cases (initData mem config) (idleConfig config idleStack) idleTcb with
      ⟨hne, -⟩ | ⟨hp, -, -⟩
    · exact absurd hinit hne
    · exact hp

/-- **Calls in order** keep the lists right. -/
theorem ordered_of_run [Kernel.Lockable P] (h : Trace TaskOp.OrderStep s ops s')
    (hs : ∃ r, s.Ordered P r) : ∃ r, s'.Ordered P r :=
  h.invariant (I := fun s : Tasks => ∃ r, s.Ordered P r)
    (fun _ _ _ ⟨_, hr⟩ hstep => hr.step hstep) hs

/-- After an initialisation. -/
theorem steady_of_run (hinit : (initWithConfig mem config idleStack).2 = .ok)
    (h : Trace TaskOp.OrderStep (init (initWithConfig mem config idleStack).1 sems) ops s) :
    ∃ r, s.Ordered Kernel.Steady r :=
  ordered_of_run h ⟨_, init_ordered hinit (Kernel.initWithConfig_steady hinit)⟩

end Tasks

end Sertos
