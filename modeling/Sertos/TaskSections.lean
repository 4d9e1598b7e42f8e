import Sertos.Orderly
import Sertos.Interleaving

/-!
# Interleavings with the calls on tasks

The critical sections of `sertos_task_suspend`, `sertos_task_resume`, `sertos_task_delete` and
`sertos_task_set_priority` can come between any two steps of an interleaving, as those of a semaphore
or a mutex can, their deletion included.  The calls test the state of their task before they enter
the section, so a section here finds its task in any state; that the state still is one the call
accepts is part of `InOrder`.

The sections in order keep `Tasks.Ordered` with the invariant of critical sections, if the ticks
between them are harmless (`Ordered.section_step`).  `tick_in_window_iff` says that exactly the
harmless ticks leave the lists right.
-/

set_option autoImplicit false

namespace Sertos

open Intrusive Lts Scheduler

/-! ## The sections of the scheduler -/

namespace Section

variable {k : Kernel} {r : LinkedList TaskId} {a : Section} {t : TaskId}

/-- The section creates a task. -/
def Creates : Section → Prop
  | .critical (.create _ _) => True
  | _ => False

instance : DecidablePred Creates
  | .critical (.create _ _) => .isTrue trivial
  | .critical (.start _) | .critical .tick | .critical .yield | .critical (.delay _)
  | .critical (.block _ _) | .critical (.unblock _) | .critical .reschedule | .critical .lock
  | .critical .unlock | .start _ | .switchContext | .performSwitch => .isFalse id

/-- No section of the scheduler reads the registry. -/
theorem run_among (ha : ¬ a.Creates) : a.run (k.among r) = (a.run k).among r := by
  cases a with
  | critical a =>
    refine Call.critical_among k r fun hc => ha ?_
    cases a with
    | create config t => trivial
    | _ => exact hc
  | start tickInit => exact Call.run_among k r (a := .start tickInit) trivial
  | switchContext => exact Kernel.switchContext_among k r
  | performSwitch => exact Kernel.performSwitch_among k r

theorem allowed_among (ha : ¬ a.Creates) : Allowed (k.among r) a ↔ Allowed k a := by
  cases a with
  | critical a =>
    cases a with
    | create config t => exact absurd trivial ha
    | _ => exact Iff.rfl
  | _ => exact Iff.rfl

theorem run_taskRegistry (k : Kernel) (ha : ¬ a.Creates) :
    (a.run k).taskRegistry = k.taskRegistry := by
  have h := run_among (k := k) (r := k.taskRegistry) ha
  rw [show k.among k.taskRegistry = k from rfl] at h
  rw [h]
  rfl

/-- No section of the scheduler writes a priority. -/
theorem samePriorities (ha : ¬ a.Creates) : Kernel.SamePriorities k (a.run k) := by
  cases a with
  | critical a =>
    refine .critical fun config t e => absurd ?_ ha
    rw [e]
    trivial
  | start tickInit => exact .run (a := .start tickInit) trivial
  | switchContext => exact .switchContext
  | performSwitch => exact .performSwitch

/-- No section of the scheduler touches a retired task. -/
theorem spares (ha : ¬ a.Creates) : Kernel.Spares t k (a.run k) := by
  cases a with
  | critical a =>
    refine Call.critical_spares fun config e => ha ?_
    rw [e]
    trivial
  | start tickInit => exact Call.spares (a := .start tickInit) fun _ => by simp
  | switchContext => exact .switchContext
  | performSwitch => exact .performSwitch

end Section

/-! ## The steps -/

/-- One atomic step. -/
inductive TaskSection
  /-- A critical section of the scheduler, a semaphore or a mutex. -/
  | atomic (a : Atomic)
  /-- The critical section of `sertos_task_create_static`, and the initialisation before it. -/
  | create (config : TaskConfig) (t : TaskId)
  | suspend (t : TaskId)
  | resume (t : TaskId)
  | delete (t : TaskId)
  | setPriority (t : TaskId) (newPriority : ℕ)
  /-- The critical section of `sertos_mutex_delete`. -/
  | deleteMutex (m : ℕ)
  /-- The critical section of `sertos_sem_delete`. -/
  | deleteSem (i : ℕ)
deriving DecidableEq, Repr

namespace TaskSection

/-- The state change of a step. -/
def run (s : Tasks) : TaskSection → Tasks
  | .atomic a => { s with system := a.run s.system }
  | .create config t =>
    let r := Task.createStaticSection s.kernel config t
    if r.2 = .ok then
      { system := ({ s.system with kernel := r.1 } : System).setPc t .idle
        magic := Function.update s.magic t Task.magicWord }
    else s.setKernel r.1
  | .suspend t => s.setKernel (Task.suspendSection s.kernel t)
  | .resume t => s.setKernel (addReady s.kernel t).1
  | .delete t => s.setKernel (Task.deleteSection s.kernel t)
  | .setPriority t p => s.setKernel (Task.setPrioritySection s.kernel t p)
  | .deleteMutex m => { s with system := Mutex.deleteSection s.system m }
  | .deleteSem i => { s with system := Sem.deleteSection s.system i }

/-- The steps that can come next.  Tasks are created by `create`, the processor is given to a task
by the scheduler only, and a task is queued only while it is not blocked. -/
def Allowed (s : Tasks) : TaskSection → Prop
  | .atomic (.kernel a) => (Atomic.kernel a).Allowed s.system ∧ ¬ a.Creates
  | .atomic (.dispatch _) => False
  | .atomic .enqueue => Atomic.enqueue.Allowed s.system ∧ s.kernel.Awake
  | .atomic a => a.Allowed s.system
  | .create _ t => ¬ s.kernel.Live t
  | .suspend t | .delete t => s.magic t = Task.magicWord ∧ t ≠ idleTcb
  | .resume t => s.magic t = Task.magicWord
  | .setPriority t p => s.magic t = Task.magicWord ∧ p < maxPriorities
  | .deleteMutex _ | .deleteSem _ => True

/-- The step keeps the lists and the control blocks in order: only a `READY` task is suspended, only
a `READY` or `SUSPENDED` one deleted, neither if it is the current task, only a `SUSPENDED` one is
resumed, no `RUNNING` one is given another priority, also not when a mutex that it owns is deleted,
and no mutex release gives back an inherited priority. -/
def InOrder (s : Tasks) : TaskSection → Prop
  | .suspend t => (s.kernel.tcb t).state = .ready ∧ s.kernel.currentTcb ≠ some t
  | .resume t => (s.kernel.tcb t).state = .suspended
  | .delete t => ((s.kernel.tcb t).state = .ready ∨ (s.kernel.tcb t).state = .suspended) ∧
    s.kernel.currentTcb ≠ some t
  | .setPriority t p => (s.kernel.tcb t).state ≠ .running ∨ p = (s.kernel.tcb t).priority
  | .deleteMutex m => ∀ o, (s.system.mutexes m).owner = some o → ((s.kernel.tcb o).state ≠ .running ∨
    (s.system.mutexes m).originalOwnerPriority = (s.kernel.tcb o).priority)
  | .atomic (.mutexUnlock m) => (TaskOp.api (.unlock m)).NothingInherited s
  | .atomic _ | .create _ _ | .deleteSem _ => True

instance (s : Tasks) : DecidablePred (Allowed s)
  | .atomic (.kernel a) =>
    inferInstanceAs (Decidable ((Atomic.kernel a).Allowed s.system ∧ ¬ a.Creates))
  | .atomic (.dispatch _) => .isFalse id
  | .atomic .enqueue =>
    inferInstanceAs (Decidable (Atomic.enqueue.Allowed s.system ∧ s.kernel.Awake))
  | .atomic (.semTake i timeout) =>
    inferInstanceAs (Decidable ((Atomic.semTake i timeout).Allowed s.system))
  | .atomic (.semGive i) => inferInstanceAs (Decidable ((Atomic.semGive i).Allowed s.system))
  | .atomic (.semGiveFromIsr i) =>
    inferInstanceAs (Decidable ((Atomic.semGiveFromIsr i).Allowed s.system))
  | .atomic (.mutexLock m timeout) =>
    inferInstanceAs (Decidable ((Atomic.mutexLock m timeout).Allowed s.system))
  | .atomic (.mutexUnlock m) => inferInstanceAs (Decidable ((Atomic.mutexUnlock m).Allowed s.system))
  | .atomic .resume => inferInstanceAs (Decidable (Atomic.resume.Allowed s.system))
  | .create _ t => inferInstanceAs (Decidable (¬ s.kernel.Live t))
  | .suspend t | .delete t =>
    inferInstanceAs (Decidable (s.magic t = Task.magicWord ∧ t ≠ idleTcb))
  | .resume t => inferInstanceAs (Decidable (s.magic t = Task.magicWord))
  | .setPriority t p =>
    inferInstanceAs (Decidable (s.magic t = Task.magicWord ∧ p < maxPriorities))
  | .deleteMutex _ | .deleteSem _ => .isTrue trivial

instance (s : Tasks) : DecidablePred (InOrder s)
  | .suspend t => inferInstanceAs (Decidable
      ((s.kernel.tcb t).state = .ready ∧ s.kernel.currentTcb ≠ some t))
  | .resume t => inferInstanceAs (Decidable ((s.kernel.tcb t).state = .suspended))
  | .delete t => inferInstanceAs (Decidable
      (((s.kernel.tcb t).state = .ready ∨ (s.kernel.tcb t).state = .suspended) ∧
        s.kernel.currentTcb ≠ some t))
  | .setPriority t p => inferInstanceAs (Decidable
      ((s.kernel.tcb t).state ≠ .running ∨ p = (s.kernel.tcb t).priority))
  | .deleteMutex m => TaskOp.decidableHandle (s.system.mutexes m).owner fun o =>
      ((s.kernel.tcb o).state ≠ .running ∨
        (s.system.mutexes m).originalOwnerPriority = (s.kernel.tcb o).priority)
  | .atomic (.mutexUnlock m) =>
    inferInstanceAs (Decidable ((TaskOp.api (.unlock m)).NothingInherited s))
  | .atomic (.kernel _) | .atomic (.dispatch _) | .atomic (.semTake _ _) | .atomic (.semGive _)
  | .atomic (.semGiveFromIsr _) | .atomic (.mutexLock _ _) | .atomic .enqueue | .atomic .resume
  | .create _ _ | .deleteSem _ => .isTrue trivial

/-- One step of an interleaving in which the lists stay in order. -/
abbrev Step : Tasks → TaskSection → Tasks → Prop :=
  Guarded (fun s a => a.Allowed s ∧ a.InOrder s) run

end TaskSection

/-! ## On the way to a wait -/

/-- A task on its way to a wait has a timeout. -/
def Pc.Timed : Pc → Prop
  | .semEnqueue _ timeout | .mutexEnqueue _ timeout => timeout ≠ noWait
  | _ => True

namespace System

variable {s : System} {c : TaskId} {q : Pc}

/-- Every task on its way to a wait has a timeout. -/
def Timed (s : System) : Prop := ∀ t, (s.pc t).Timed

theorem Timed.setPc (h : s.Timed) (hq : q.Timed) : (s.setPc c q).Timed := by
  intro t
  by_cases ht : t = c
  · rw [ht, setPc_pc_same]
    exact hq
  · rw [setPc_pc_of_ne _ _ _ ht]
    exact h t

theorem Timed.runTask (h : s.Timed) (a : Atomic) : (Atomic.runTask s c a).Timed := by
  have hqueued : ∀ W timeout {wait : Pc}, wait.Timed →
      (Atomic.enqueueOn s c W timeout wait).Timed := by
    intro W timeout wait hw
    rw [Atomic.enqueueOn]
    split
    · exact Timed.setPc (s := { s with kernel := _ }) h hw
    · exact h.setPc trivial
  cases a with
  | semTake i timeout =>
    simp only [Atomic.runTask, Sem.takeSection]
    split_ifs with _ _ ht
    · exact h
    · exact h
    · exact h
    · exact h.setPc ht
  | mutexLock m timeout =>
    by_cases hmagic : (s.mutexes m).magic ≠ mutexMagicWord
    · rw [Atomic.runTask, if_pos hmagic]
      exact h
    · rw [Atomic.runTask, if_neg hmagic]
      cases ho : (s.mutexes m).owner with
      | none =>
        rw [Mutex.lockSection_of_free ho]
        exact h
      | some o =>
        by_cases hoc : o = c
        · subst hoc
          rw [Mutex.lockSection_of_owner ho]
          exact h
        · rw [Mutex.lockSection_of_other ho hoc]
          by_cases ht : timeout = noWait
          · rw [if_pos ht]
            exact h
          · rw [if_neg ht]
            exact Timed.setPc (s := { s with kernel := _ }) h ht
  | mutexUnlock m =>
    simp only [Atomic.runTask]
    split
    · exact h
    · rw [Timed, Mutex.unlockSection_pc]
      exact h
  | enqueue =>
    simp only [Atomic.runTask]
    split
    · exact hqueued _ _ trivial
    · exact hqueued _ _ trivial
    · exact h
  | resume =>
    simp only [Atomic.runTask]
    split
    · exact h.setPc trivial
    · simp only [Mutex.lockResume, Mutex.lockReturn]
      split
      · exact Timed.setPc (s := s.setMutex _ _) h trivial
      · exact h.setPc trivial
    · exact h
  | _ => exact h

theorem Timed.run (h : s.Timed) (a : Atomic) : (a.run s).Timed := by
  have htask : ∀ b : Atomic, b.ByTask → (b.run s).Timed := by
    intro b hb
    rcases Atomic.run_byTask s hb with ⟨-, e⟩ | ⟨c, -, e⟩ <;> rw [e]
    · exact h
    · exact h.runTask b
  have hgive : ∀ i, (Sem.giveSection s i).1.Timed := by
    intro i
    rcases Sem.giveSection_cases s i with ⟨t, rest, -, e⟩ | ⟨-, -, e⟩ | ⟨-, -, e⟩ <;> rw [e] <;>
      exact h
  cases a with
  | kernel a => exact h
  | dispatch t => exact h
  | semGive i =>
    simp only [Atomic.run]
    split
    · exact h
    · exact hgive i
  | semGiveFromIsr i =>
    rw [Atomic.run, Sem.giveFromIsr_fst]
    split
    · exact h
    · exact hgive i
  | _ => exact htask _ trivial

end System

/-! ## Sections in order -/

namespace Tasks

/-- The invariant of interleavings in order. -/
structure Sectioned (s : Tasks) (r : LinkedList TaskId) : Prop extends s.Ordered Kernel.Inv r where
  timed : s.system.Timed

namespace Ordered

variable {s s' : Tasks} {r : LinkedList TaskId} {t c : TaskId} {m timeout : ℕ}

/-- A section of the scheduler, if it is not a harmful tick. -/
theorem kernelSection (h : s.Ordered Kernel.Inv r) {a : Section} (ha : a.Allowed s.kernel)
    (hc : ¬ a.Creates) (htick : a = .critical .tick → s.kernel.HarmlessTick) :
    (s.setKernel (a.run s.kernel)).Ordered Kernel.Inv r := by
  refine h.setKernel ?_ (a.run_taskRegistry s.kernel hc)
    (fun t => (Section.samePriorities hc).basePriority) fun t => (Section.spares hc).lends
  rw [← Section.run_among hc]
  exact h.kernel.sectionStep ⟨(Section.allowed_among hc).2 ha, rfl⟩ htick

theorem semGive (h : s.Ordered Kernel.Inv r) (i : ℕ) :
    ({ s with system := (Sem.giveSection s.system i).1 } : Tasks).Ordered Kernel.Inv r := by
  rcases Sem.giveSection_cases s.system i with ⟨t, rest, -, e⟩ | ⟨-, -, e⟩ | ⟨-, -, e⟩ <;> rw [e]
  · exact h.unblock (.sem i)
  · exact { h with }
  · exact h

theorem lockSection (h : s.Ordered Kernel.Inv r) (hc : s.kernel.currentTcb = some c)
    (m timeout : ℕ) :
    ({ s with system := (Mutex.lockSection s.system m c timeout).1 } : Tasks).Ordered
      Kernel.Inv r := by
  cases ho : (s.system.mutexes m).owner with
  | none =>
    rw [Mutex.lockSection_of_free ho]
    refine h.setMutex fun o hco => ?_
    obtain rfl : c = o := Option.some_inj.1 hco
    exact ⟨h.created_of_mem (h.mem_current hc), h.inv.lists.priority_lt (h.mem_current hc)⟩
  | some o =>
    by_cases hoc : o = c
    · subst hoc
      rw [Mutex.lockSection_of_owner ho]
      exact h.setMutex fun o ho => h.owner m o ho
    · rw [Mutex.lockSection_of_other ho hoc]
      refine h.setKernel (h.boost hc (h.owner m o ho).1 hoc) ?_ (fun t _ => ?_) fun t => .boost hc
      · rw [Mutex.applyPriorityInheritance_frame]
        rfl
      · rw [Mutex.applyPriorityInheritance_tcb]
        rfl

theorem unlockSection (h : s.Ordered Kernel.Inv r) (hc : s.kernel.currentTcb = some c)
    (hmagic : (s.system.mutexes m).magic = mutexMagicWord)
    (ho : (s.system.mutexes m).owner = some c)
    (hcond : (TaskOp.api (.unlock m)).NothingInherited s) :
    ({ s with system := (Mutex.unlockSection s.system m c).1 } : Tasks).Ordered Kernel.Inv r := by
  by_cases hcount : (s.system.mutexes m).lockCount = 1
  · have hrestore : Mutex.restoreOwnerPriority s.kernel (s.system.mutexes m) c = s.kernel := by
      have hp := hcond c ⟨hmagic, hc, ho, hcount⟩
      rw [System.priority] at hp
      exact if_neg (not_not.2 hp)
    cases hW : (s.system.kernel.waitLists (.mutex m)).nodes with
    | nil =>
      rw [Mutex.unlockSection_release hcount hW, show s.system.kernel = s.kernel from rfl, hrestore]
      exact h.setMutex fun o ho => absurd ho (by simp)
    | cons w rest =>
      have hmem : w ∈ (s.kernel.waitLists (.mutex m)).nodes := by
        rw [show s.kernel = s.system.kernel from rfl, hW]
        exact List.mem_cons_self
      rw [Mutex.unlockSection_handOver hcount hW, Mutex.handedKernel,
        show s.system.kernel = s.kernel from rfl, hrestore]
      have hlive := ((h.inv.lists.mem_waitList _).1 hmem).1
      refine (h.unblock (.mutex m)).setMutex fun o ho => ?_
      obtain rfl : w = o := Option.some_inj.1 ho
      refine ⟨h.created_of_mem hlive, ?_⟩
      show ((waitListUnblockHighest s.kernel (.mutex m)).1.tcb w).basePriority < maxPriorities
      rw [Kernel.SamePriorities.unblockHighest.basePriority (h.registered hlive)]
      exact h.base w (h.registered hlive)
  · rw [Mutex.unlockSection_of_ne_one hcount]
    exact h.setMutex fun o ho => h.owner m o ho

/-- A task that is not blocked is queued. -/
theorem enqueueOn (h : s.Ordered Kernel.Inv r) (hc : s.kernel.currentTcb = some c)
    (haw : s.kernel.Awake) (ht : timeout ≠ noWait) (W : WaitList) (wait : Pc) :
    ({ s with system := Atomic.enqueueOn s.system c W timeout wait } : Tasks).Ordered
      Kernel.Inv r := by
  rw [Atomic.enqueueOn]
  split
  · next hrun =>
    have hblock := h.kernelSection (a := .critical (.block W timeout)) ⟨ht, haw⟩ id (by simp)
    have hrun' : (Section.critical (.block W timeout)).run s.kernel =
        waitListBlockSection s.kernel c W timeout := by
      simp only [Section.run, Call.critical, show s.kernel.isRunning = true from hrun, hc]
    rw [hrun'] at hblock
    exact hblock.setPc c wait
  · exact h.setPc c .idle

/-- A step of an interleaving. -/
theorem atomic (h : s.Ordered Kernel.Inv r) (htimed : s.system.Timed) {a : Atomic}
    (ha : (TaskSection.atomic a).Allowed s) (hcond : (TaskSection.atomic a).InOrder s)
    (htick : a = .kernel (.critical .tick) → s.kernel.HarmlessTick) :
    ((TaskSection.atomic a).run s).Ordered Kernel.Inv r := by
  have htask : ∀ b : Atomic, b.ByTask → (∀ c, s.kernel.currentTcb = some c →
      ({ s with system := Atomic.runTask s.system c b } : Tasks).Ordered Kernel.Inv r) →
      ((TaskSection.atomic b).run s).Ordered Kernel.Inv r := by
    intro b hb hrun
    rw [TaskSection.run]
    rcases Atomic.run_byTask s.system hb with ⟨-, e⟩ | ⟨c, hc, e⟩ <;> rw [e]
    · exact h
    · exact hrun c hc
  cases a with
  | kernel a => exact h.kernelSection ha.1.1 ha.2 fun e => htick (by rw [e])
  | dispatch t => exact ha.elim
  | semTake i timeout =>
    refine htask _ trivial fun c _ => ?_
    simp only [Atomic.runTask, Sem.takeSection]
    split_ifs
    · exact h
    · exact { h with }
    · exact h
    · exact h.setPc c _
  | semGive i =>
    simp only [TaskSection.run, Atomic.run]
    split
    · exact h
    · exact h.semGive i
  | semGiveFromIsr i =>
    simp only [TaskSection.run, Atomic.run, Sem.giveFromIsr_fst]
    split
    · exact h
    · exact h.semGive i
  | mutexLock m timeout =>
    refine htask _ trivial fun c hc => ?_
    have hsection := h.lockSection hc m timeout
    simp only [Atomic.runTask]
    split
    · exact h
    · split
      · next e => rwa [e] at hsection
      · next e =>
        rw [e] at hsection
        exact hsection.setPc c _
  | mutexUnlock m =>
    refine htask _ trivial fun c hc => ?_
    simp only [Atomic.runTask]
    split
    · exact h
    · next hvalid =>
      obtain ⟨hmagic, ho⟩ := not_or.1 hvalid
      exact h.unlockSection hc (not_not.1 hmagic) (not_not.1 ho) hcond
  | enqueue =>
    refine htask _ trivial fun c hc => ?_
    have ht := htimed c
    simp only [Atomic.runTask]
    split
    · next e =>
      rw [e] at ht
      exact h.enqueueOn hc ha.2 ht _ _
    · next e =>
      rw [e] at ht
      exact h.enqueueOn hc ha.2 ht _ _
    · exact h
  | resume =>
    refine htask _ trivial fun c hc => ?_
    simp only [Atomic.runTask]
    split
    · exact h.setPc c .idle
    · exact h.lockResume hc
    · exact h

end Ordered

namespace Sectioned

variable {s s' : Tasks} {r : LinkedList TaskId} {a : TaskSection}

/-- A section of the scheduler, if it is not a harmful tick. -/
theorem kernelSection (h : s.Sectioned r) {a : Section} (ha : a.Allowed s.kernel)
    (hc : ¬ a.Creates) (htick : a = .critical .tick → s.kernel.HarmlessTick) :
    (s.setKernel (a.run s.kernel)).Sectioned r :=
  ⟨h.toOrdered.kernelSection ha hc htick, h.timed⟩

/-- **One section in order**, if it is not a harmful tick. -/
theorem step (h : s.Sectioned r) (hs : TaskSection.Step s a s')
    (htick : a = .atomic (.kernel (.critical .tick)) → s.kernel.HarmlessTick) :
    ∃ r', s'.Sectioned r' := by
  obtain ⟨⟨ha, hcond⟩, rfl⟩ := hs
  cases a with
  | atomic a =>
    exact ⟨r, h.toOrdered.atomic h.timed ha hcond fun e => htick (by rw [e]), h.timed.run a⟩
  | create config t =>
    simp only [TaskSection.run]
    rcases Task.createStaticSection_cases s.kernel config t with ⟨hne, e⟩ | ⟨hp, e⟩
    · rw [e]
      simp only [hne, if_false]
      exact ⟨r, h⟩
    · rw [e]
      simp only [if_true]
      exact ⟨_, h.toOrdered.enroll ha hp,
        System.Timed.setPc (s := { s.system with kernel := _ }) h.timed trivial⟩
  | suspend t => exact ⟨_, h.toOrdered.suspendSection ha.1 hcond.1 hcond.2 ha.2, h.timed⟩
  | resume t => exact ⟨_, h.toOrdered.resumeSection ha hcond, h.timed⟩
  | delete t =>
    obtain ⟨r', h'⟩ := h.toOrdered.deleteSection ha.1 hcond.1 hcond.2 ha.2
    exact ⟨r', h', h.timed⟩
  | setPriority t p => exact ⟨r, h.toOrdered.setPrioritySection ha.1 ha.2 hcond, h.timed⟩
  | deleteMutex m => exact ⟨r, h.toOrdered.deleteMutexSection hcond, h.timed⟩
  | deleteSem i => exact ⟨r, { h.toOrdered.unblockAll (.sem i) with }, h.timed⟩

end Sectioned

/-! ## Ticks in the blocking window -/

variable {mem : Kernel} {config : Option Config} {idleStack : ℕ} {sems : ℕ → Semaphore}
  {s s' : Tasks} {r : LinkedList TaskId} {k : Kernel} {a : TaskSection} {sections : List TaskSection}

theorem init_sectioned (hinit : (initWithConfig mem config idleStack).2 = .ok) :
    (init (initWithConfig mem config idleStack).1 sems).Sectioned
      (initWithConfig mem config idleStack).1.taskRegistry :=
  ⟨init_ordered hinit (initWithConfig_settled mem config idleStack).toInv, fun _ => trivial⟩

/-- Every blocked task is in the cycle. -/
theorem Ordered.tickOk_among (h : s.Ordered Kernel.Inv r) :
    Kernel.TickOk (s.kernel.among r) (k.among r) ↔ Kernel.TickOk s.kernel k := by
  refine ⟨fun hok => ⟨fun t ht hb => hok.blocked t ?_ hb, hok.counts⟩,
    fun hok => ⟨fun t ht => hok.blocked t (h.registered ht), hok.counts⟩⟩
  refine h.mem_of_active (h.created t ht) ?_ ?_ <;> rw [hb] <;> simp

theorem Ordered.tickOk_iff (h : s.Ordered Kernel.Inv r) :
    Kernel.TickOk s.kernel (tickSection s.kernel).1 ↔ s.kernel.HarmlessTick := by
  have hamong : (tickSection (s.kernel.among r)).1 = (tickSection s.kernel).1.among r := by
    rw [Kernel.tickSection_among]
  rw [← h.tickOk_among, ← hamong]
  exact Kernel.tickOk_iff h.kernel

/-- After a tick the lists are right. -/
def TickRight (s : Tasks) (a : TaskSection) (s' : Tasks) : Prop :=
  a = .atomic (.kernel (.critical .tick)) → Kernel.TickOk s.kernel s'.kernel

/-- A tick comes where it does no harm. -/
def TickHarmless (s : Tasks) (a : TaskSection) (_ : Tasks) : Prop :=
  a = .atomic (.kernel (.critical .tick)) → s.kernel.HarmlessTick

/-- **Ticks in the blocking window.**  In every interleaving in order, all ticks leave the lists
right exactly if all ticks are harmless. -/
theorem tick_in_window_iff (hinit : (initWithConfig mem config idleStack).2 = .ok) :
    Trace.AllSteps TaskSection.Step TickRight
        (init (initWithConfig mem config idleStack).1 sems) sections s ↔
      Trace.AllSteps TaskSection.Step TickHarmless
        (init (initWithConfig mem config idleStack).1 sems) sections s := by
  refine Trace.allSteps_iff (I := fun s => ∃ r, s.Sectioned r) (fun s a s' ⟨r, h⟩ hR hC => ?_)
    (fun s a s' ⟨r, h⟩ hR => ?_) ⟨_, init_sectioned hinit⟩
  · exact h.step hR hC
  · obtain ⟨-, rfl⟩ := hR
    refine forall_congr' fun ha => ?_
    subst ha
    exact h.toOrdered.tickOk_iff

/-- Task 1 alone, which becomes ready again with the first of two ticks. -/
def delayAlone : List TaskSection :=
  [.create (.ofPriority 1) 1, .atomic (.kernel (.start .ok)),
    .atomic (.kernel (.critical (.delay 1))), .atomic (.kernel (.critical .tick)),
    .setPriority 1 2, .atomic (.kernel .switchContext), .atomic (.kernel (.critical .tick))]

theorem tick_in_window_iff_alone :
    Trace.AllSteps TaskSection.Step TickRight fresh delayAlone
      (delayAlone.foldl TaskSection.run fresh) := by
  have hharmless : Guards (fun s a => a = TaskSection.atomic (.kernel (.critical .tick)) →
      s.kernel.HarmlessTick) TaskSection.run fresh delayAlone := by decide +kernel
  exact (tick_in_window_iff (by decide +kernel)).2 (Trace.allSteps_of_guards hharmless)

/-- Three tasks of priority 1; the first, which runs, has made itself `BLOCKED` for five ticks and
not yet requested its switch. -/
def inWindow : List TaskSection :=
  [.create (.ofPriority 1) 1, .create (.ofPriority 1) 2, .create (.ofPriority 1) 3,
    .atomic (.kernel (.start .ok)), .atomic (.kernel (.critical (.delay 5)))]

/-- **A harmful tick.**  After it, task 1 is `BLOCKED`, counts four more ticks, and is in the ready
queue instead of the delay list; the count of the queue is not its length. -/
theorem tick_in_window_harmful :
    ∃ s s', Trace TaskSection.Step fresh inWindow s ∧ s.kernel.currentTcb = some 1 ∧
      (s.kernel.tcb 1).state = .blocked ∧
      TaskSection.Step s (.atomic (.kernel (.critical .tick))) s' ∧
      (s'.kernel.tcb 1).delayTicks = 4 ∧ s'.kernel.readyQueue 1 = ⟨[2, 3, 1], 2⟩ ∧
      s'.kernel.delayList = ⟨[], 1⟩ ∧
      ¬ TickRight s (.atomic (.kernel (.critical .tick))) s' := by
  have htrace : Trace TaskSection.Step fresh inWindow (inWindow.foldl TaskSection.run fresh) :=
    Trace.of_guards (by decide +kernel)
  have hqueue : (TaskSection.run (inWindow.foldl TaskSection.run fresh)
      (.atomic (.kernel (.critical .tick)))).kernel.readyQueue 1 = ⟨[2, 3, 1], 2⟩ := by
    decide +kernel
  refine ⟨_, _, htrace, by decide +kernel, by decide +kernel, ⟨by decide +kernel, rfl⟩,
    by decide +kernel, hqueue, by decide +kernel, fun hright => ?_⟩
  have hfree := ((hright rfl).blocked 1 (by decide +kernel) (by decide +kernel)
    (by decide +kernel)).1 1
  rw [hqueue] at hfree
  exact hfree (by decide)

end Tasks

end Sertos
