import Sertos.LinkedRuns
import Sertos.Orderly

/-!
# Tasks and mutexes on links

The functions of `sertos_task.c` and `sertos_mutex.c` that move tasks between the lists, with every
list as it is in memory, as in `Sertos.LinkedScheduler`.  Suspension and deletion unlink a task and
leave it in no list, and a change of priority moves it from one ready queue to another; only the
links tell where it is.

The functions on lists know the tasks of the scheduling cycle apart from the others by
`Tasks.Ordered`, and the representation invariant holds of the former only.  No function of the
scheduler reads the registry, whether on lists (`Call.run_among`) or on links (`call_register`), so
what `Sertos.LinkedRuns` shows of all tasks there are holds of those of the cycle
(`Refines.call_among`).
-/

set_option autoImplicit false

namespace Sertos

open Intrusive Circular Lts

/-! ## Priorities and withdrawal -/

namespace ListMemory

variable (L : ListLibrary NodeAddr) (m : ListMemory)

/-- Gives a task another priority; a `READY` task is moved to the queue of that priority. -/
def changePriority (t : TaskId) (p : ℕ) : ListMemory :=
  if (m.tcb t).state = .ready then
    let m := (m.removeReady L t).1
    let m := m.modify t fun b => { b with priority := p }
    (m.addReady L.toListModule t).1
  else m.modify t fun b => { b with priority := p }

/-- `apply_priority_inheritance`. -/
def applyPriorityInheritance (owner current : TaskId) : ListMemory :=
  if (m.tcb owner).priority < (m.tcb current).priority then
    m.changePriority L owner (m.tcb current).priority
  else m

/-- `restore_owner_priority`. -/
def restoreOwnerPriority (x : Mutex) (current : TaskId) : ListMemory :=
  if (m.tcb current).priority ≠ x.originalOwnerPriority then
    m.changePriority L current x.originalOwnerPriority
  else m

/-- The owner of `x`, if it has one, gets its priority back. -/
def restoreOwner (x : Mutex) : ListMemory :=
  match x.owner with
  | some o => m.restoreOwnerPriority L x o
  | none => m

/-- Takes a `READY` task out of its queue. -/
def withdraw (t : TaskId) : ListMemory :=
  if (m.tcb t).state = .ready then (m.removeReady L t).1 else m

end ListMemory

/-! ## Tasks -/

namespace LinkedKernel

variable (L : ListLibrary NodeAddr) (R : ListLibrary RegistryAddr) (c : LinkedKernel)

/-- `sertos_scheduler_unregister_task`. -/
def unregisterTask (t : TaskId) : LinkedKernel :=
  if c.registry.next (.registryNode t) ≠ none then
    let registry := R.removeDirect c.registry .root (.registryNode t)
    { c with registry := registry.clear (.registryNode t) }
  else c

/-- The critical section of `sertos_task_suspend`. -/
def suspendSection (t : TaskId) : LinkedKernel :=
  setState { c with lists := c.lists.withdraw L t } t .suspended

/-- The critical section of `sertos_task_delete`. -/
def deleteSection (t : TaskId) : LinkedKernel :=
  setState (unregisterTask R { c with lists := c.lists.withdraw L t } t) t .terminated

/-- The test with which `sertos_task_suspend`, `sertos_task_resume` and `sertos_task_delete`
begin. -/
def accepts (magic : TaskId → ℕ) (t : TaskId) (after : TaskState) : Bool :=
  magic t = Task.magicWord && Task.isValidTransition (c.lists.tcb t).state after

/-- `sertos_task_suspend`; the handle `none` stands for the current task. -/
def suspend (magic : TaskId → ℕ) (handle : Option TaskId) : Option (LinkedKernel × Status) :=
  match handle.or c.currentTcb with
  | none => some (c, .errorInvalidParam)
  | some t =>
    if c.accepts magic t .suspended then
      let isCurrent := c.currentTcb = some t
      let c := c.suspendSection L t
      (if isCurrent ∧ c.isRunning then c.yield L else some c).map (·, .ok)
    else some (c, .errorInvalidParam)

/-- `sertos_task_delete`; the handle `none` stands for the current task. -/
def delete (magic : TaskId → ℕ) (handle : Option TaskId) : Option (LinkedKernel × Status) :=
  match handle.or c.currentTcb with
  | none => some (c, .errorInvalidParam)
  | some t =>
    if c.accepts magic t .terminated then
      let isCurrent := c.currentTcb = some t
      let c := c.deleteSection L R t
      (if isCurrent ∧ c.isRunning then c.yield L else some c).map (·, .ok)
    else some (c, .errorInvalidParam)

/-- `sertos_task_resume`. -/
def resume (magic : TaskId → ℕ) (handle : Option TaskId) : Option (LinkedKernel × Status) :=
  match handle with
  | none => some (c, .errorInvalidParam)
  | some t =>
    if c.accepts magic t .ready then
      let r := c.lists.addReady L.toListModule t
      let c := { c with lists := r.1 }
      (if r.2 = .ok ∧ c.isRunning then c.reschedule L else some c).map (·, r.2)
    else some (c, .errorInvalidParam)

/-- The critical section of `sertos_task_set_priority`. -/
def setPrioritySection (t : TaskId) (newPriority : ℕ) : LinkedKernel :=
  let wasReady := (c.lists.tcb t).state = .ready
  let lists := if wasReady then (c.lists.removeReady L t).1 else c.lists
  let lists := lists.modify t fun b => { b with priority := newPriority }
  { c with
    lists := if wasReady then (lists.addReady L.toListModule t).1 else lists
    basePriority := Function.update c.basePriority t newPriority }

/-- `sertos_task_set_priority`; the handle `none` stands for the current task. -/
def setPriority (magic : TaskId → ℕ) (handle : Option TaskId) (newPriority : ℕ) :
    Option (LinkedKernel × Status) :=
  if maxPriorities ≤ newPriority then some (c, .errorInvalidParam)
  else match handle.or c.currentTcb with
    | none => some (c, .errorInvalidParam)
    | some t =>
      if magic t ≠ Task.magicWord then some (c, .errorInvalidParam)
      else
        let c := c.setPrioritySection L t newPriority
        (if c.isRunning then c.reschedule L else some c).map (·, .ok)

/-- At most `n` rounds of the loop that empties a wait list. -/
def unblockRounds (W : WaitList) : ℕ → LinkedKernel → Option LinkedKernel
  | 0, _ => none
  | n + 1, c => do
    match ← c.waitListUnblockHighest L W with
    | (c, some _) => unblockRounds W n c
    | (c, none) => some c

end LinkedKernel

/-! ## Mutexes -/

/-- The kernel and the mutexes on links, with the magic words of the control blocks. -/
structure LinkedTasks where
  kernel : LinkedKernel
  mutexes : ℕ → Mutex
  pc : TaskId → Pc
  magic : TaskId → ℕ

namespace LinkedTasks

variable (L : ListLibrary NodeAddr) (R : ListLibrary RegistryAddr) (c : LinkedTasks)

/-- Writes the kernel. -/
def setKernel (k : LinkedKernel) : LinkedTasks := { c with kernel := k }

/-- Writes one mutex. -/
def setMutex (m : ℕ) (x : Mutex) : LinkedTasks :=
  { c with mutexes := Function.update c.mutexes m x }

/-- Writes the program counter of one task. -/
def setPc (t : TaskId) (p : Pc) : LinkedTasks := { c with pc := Function.update c.pc t p }

/-- The critical section of `sertos_mutex_lock`, for the current task `t`: the status it returns, or
`none` if the call goes on to block. -/
def lockSection (m : ℕ) (t : TaskId) (timeout : ℕ) : LinkedTasks × Option Status :=
  let x := c.mutexes m
  match x.owner with
  | none =>
    (c.setMutex m { x with
      owner := some t
      lockCount := 1
      originalOwnerPriority := (c.kernel.lists.tcb t).priority }, some .ok)
  | some o =>
    if o = t then (c.setMutex m { x with lockCount := (x.lockCount + 1) % 2 ^ 32 }, some .ok)
    else
      let lists := c.kernel.lists.applyPriorityInheritance L o t
      let c := c.setKernel { c.kernel with lists := lists }
      if timeout = noWait then (c, some .errorTimeout) else (c, none)

/-- `sertos_mutex_lock` up to its blocking point, with at most `n` rounds of a loop: the status it
returns, or `none` if the caller is in the wait. -/
def lock (n m timeout : ℕ) : Option (LinkedTasks × Option Status) :=
  if (c.mutexes m).magic ≠ mutexMagicWord then some (c, some .errorInvalidParam)
  else match c.kernel.currentTcb with
    | none => some (c, some .errorNotInitialized)
    | some t =>
      match c.lockSection L m t timeout with
      | (c, some status) => some (c, some status)
      | (c, none) => do
        match ← c.kernel.waitListBlock L n (.mutex m) timeout with
        | (k, some status) => some (c.setKernel k, some status)
        | (k, none) => some ((c.setKernel k).setPc t (.mutexWait m timeout), none)

/-- The status that the wait of the task `t` returns. -/
def waitListBlockStatus (t : TaskId) (timeout : ℕ) : Status :=
  let b := c.kernel.lists.tcb t
  if timeout ≠ waitForever ∧ b.delayTicks = 0 ∧ b.waitList = none then .errorTimeout else .ok

/-- The rest of `sertos_mutex_lock` once the wait of the task `t` has returned `status`. -/
def lockReturn (m : ℕ) (t : TaskId) (status : Status) : LinkedTasks :=
  if status = .ok then
    c.setMutex m { c.mutexes m with
      owner := some t
      lockCount := 1
      originalOwnerPriority := c.kernel.basePriority t }
  else c

/-- The end of `sertos_mutex_lock` for the current task. -/
def lockResume : LinkedTasks :=
  match c.kernel.currentTcb with
  | some t => match c.pc t with
    | .mutexWait m timeout => (c.lockReturn m t (c.waitListBlockStatus t timeout)).setPc t .idle
    | _ => c
  | none => c

/-- The critical section of `sertos_mutex_unlock`, for the owner `t`, and whether it was a full
release. -/
def unlockSection (m : ℕ) (t : TaskId) : Option (LinkedTasks × Bool) :=
  let x := c.mutexes m
  let lockCount := Mutex.decrement x.lockCount
  if 0 < lockCount then some (c.setMutex m { x with lockCount := lockCount }, false)
  else do
    let lists := c.kernel.lists.restoreOwnerPriority L x t
    match ← LinkedKernel.waitListUnblockHighest L { c.kernel with lists := lists } (.mutex m) with
    | (k, some nextOwner) =>
      some ((c.setKernel k).setMutex m { x with
        owner := some nextOwner
        lockCount := 1
        originalOwnerPriority := k.basePriority nextOwner }, true)
    | (k, none) =>
      some ((c.setKernel k).setMutex m { x with
        owner := none
        lockCount := lockCount }, true)

/-- `sertos_mutex_unlock`. -/
def unlock (m : ℕ) : Option (LinkedTasks × Status) :=
  if (c.mutexes m).magic ≠ mutexMagicWord then some (c, .errorInvalidParam)
  else match c.kernel.currentTcb with
    | none => some (c, .errorInvalidParam)
    | some t =>
      if (c.mutexes m).owner ≠ some t then some (c, .errorInvalidParam)
      else do
        match ← c.unlockSection L m t with
        | (c, false) => some (c, .ok)
        | (c, true) =>
          if c.kernel.isRunning then (c.kernel.reschedule L).map fun k => (c.setKernel k, .ok)
          else some (c, .ok)

/-- `sertos_mutex_delete`, with at most `n` rounds of its loop. -/
def deleteMutex (n m : ℕ) : Option (LinkedTasks × Status) :=
  let x := c.mutexes m
  if x.magic ≠ mutexMagicWord then some (c, .errorInvalidParam)
  else do
    let lists := c.kernel.lists.restoreOwner L x
    let c := c.setMutex m { x with magic := 0 }
    let k ← LinkedKernel.unblockRounds L (.mutex m) n { c.kernel with lists := lists }
    let c := c.setKernel k
    if c.kernel.isRunning then (c.kernel.reschedule L).map fun k => (c.setKernel k, .ok)
    else some (c, .ok)

/-! ## Calls -/

/-- The call, with at most `n` rounds of a loop. -/
def call (n : ℕ) : TaskOp → Option LinkedTasks
  | .api (.sched a) => (c.kernel.call L R n a).map c.setKernel
  | .api (.dispatch t) => some (c.setKernel { c.kernel with currentTcb := some t })
  | .api (.lock m timeout) => (c.lock L n m timeout).map Prod.fst
  | .api .resume => some c.lockResume
  | .api (.unlock m) => (c.unlock L m).map Prod.fst
  | .create config t => (c.kernel.createStatic L R config t).map fun r =>
    if r.2 = .ok then
      { (c.setKernel r.1).setPc t .idle with
        magic := Function.update c.magic t Task.magicWord }
    else c.setKernel r.1
  | .switch => (c.kernel.performSwitch L).map c.setKernel
  | .suspend handle => (c.kernel.suspend L c.magic handle).map fun r => c.setKernel r.1
  | .resume handle => (c.kernel.resume L c.magic handle).map fun r => c.setKernel r.1
  | .delete handle => (c.kernel.delete L R c.magic handle).map fun r => c.setKernel r.1
  | .setPriority handle p =>
    (c.kernel.setPriority L c.magic handle p).map fun r => c.setKernel r.1
  | .deleteMutex m => (c.deleteMutex L n m).map Prod.fst

/-- Calls, one after the other. -/
def calls (n : ℕ) : List TaskOp → Option LinkedTasks := List.foldlM (fun c a => c.call L R n a) c

/-- After the initialisation the Idle task is the only one, and no mutex has an owner. -/
def init (k : LinkedKernel) : LinkedTasks where
  kernel := k
  mutexes _ := Mutex.fresh
  pc _ := .idle
  magic := Function.update (fun _ => 0) idleTcb Task.magicWord

/-- `sertos_scheduler_init_with_config`, and calls after it. -/
def boot (k : LinkedKernel) (n : ℕ) (config : Option Config) (idleStack : ℕ)
    (as : List TaskOp) : Option LinkedTasks := do
  let r ← k.initWithConfig L R n config idleStack
  (init r.1).calls L R n as

end LinkedTasks

/-! ## The registry does not matter -/

namespace LinkedKernel

/-- The same but for the links of `s_task_registry`. -/
def withRegistry (c : LinkedKernel) (g : Heap RegistryAddr) : LinkedKernel :=
  { c with registry := g }

section WithRegistry

variable (L : ListLibrary NodeAddr) (R : ListLibrary RegistryAddr) (c : LinkedKernel)
  (g : Heap RegistryAddr) (t : TaskId)

@[simp] theorem withRegistry_lists : (c.withRegistry g).lists = c.lists := rfl
@[simp] theorem withRegistry_currentTcb : (c.withRegistry g).currentTcb = c.currentTcb := rfl
@[simp] theorem withRegistry_isRunning : (c.withRegistry g).isRunning = c.isRunning := rfl
@[simp] theorem withRegistry_lockNesting : (c.withRegistry g).lockNesting = c.lockNesting := rfl
@[simp] theorem withRegistry_timeSlicingEnabled :
    (c.withRegistry g).timeSlicingEnabled = c.timeSlicingEnabled := rfl

theorem preempt_withRegistry : (c.withRegistry g).preempt = c.preempt.withRegistry g := by
  rw [preempt, preempt, withRegistry_currentTcb, withRegistry_lists]
  cases c.currentTcb with
  | none => rfl
  | some prev =>
    simp only
    split <;> rfl

theorem dispatch_withRegistry :
    (c.withRegistry g).dispatch t = (c.dispatch t).withRegistry g := by
  rw [dispatch, dispatch, preempt_withRegistry]
  rfl

theorem performSwitch_withRegistry : (c.withRegistry g).performSwitch L =
    (c.performSwitch L).map (withRegistry · g) := by
  rw [performSwitch, performSwitch, withRegistry_lists]
  rcases c.lists.selectNextTask L with _ | _ | next
  · rfl
  · rfl
  · simp only [dispatch_withRegistry, Option.map_some]

theorem switchContext_withRegistry : (c.withRegistry g).switchContext L =
    (c.switchContext L).map (withRegistry · g) := by
  rw [switchContext, switchContext, performSwitch_withRegistry, withRegistry_lists,
    withRegistry_lockNesting, withRegistry_currentTcb]
  split
  · rfl
  · rcases c.lists.selectNextTask L with _ | _ | next
    · rfl
    · rfl
    · simp only
      split <;> rfl

theorem reschedule_withRegistry : (c.withRegistry g).reschedule L =
    (c.reschedule L).map (withRegistry · g) := by
  rw [reschedule, reschedule, switchContext_withRegistry, withRegistry_lists,
    withRegistry_isRunning, withRegistry_currentTcb]
  split
  · rcases c.lists.selectNextTask L with _ | _ | next <;> rcases c.currentTcb with _ | current
    · rfl
    · rfl
    · rfl
    · rfl
    · rfl
    · simp only
      split <;> rfl
  · rfl

theorem processTimeSlicing_withRegistry :
    (c.withRegistry g).processTimeSlicing L = (c.processTimeSlicing L).withRegistry g := rfl

theorem tickSection_withRegistry (n : ℕ) : (c.withRegistry g).tickSection L n =
    (c.tickSection L n).map fun r => (r.1.withRegistry g, r.2) := by
  simp only [tickSection, withRegistry_lists, Option.bind_eq_bind, Option.pure_def]
  cases c.lists.processDelayedTasks L.toListModule n <;> rfl

theorem waitListBlock_withRegistry (n : ℕ) (W : WaitList) (timeout : ℕ) :
    (c.withRegistry g).waitListBlock L n W timeout =
      (c.waitListBlock L n W timeout).map fun r => (r.1.withRegistry g, r.2) := by
  simp only [waitListBlock, withRegistry_isRunning, withRegistry_currentTcb,
    withRegistry_lists, Option.bind_eq_bind, Option.pure_def]
  rcases c.isRunning with _ | _ <;> rcases c.currentTcb with _ | current
  · rfl
  · rfl
  · rfl
  · simp only
    cases c.lists.waitListBlockSection L n current W timeout with
    | none => rfl
    | some lists =>
      have hswitch := switchContext_withRegistry L { c with lists := lists } g
      simp only [withRegistry, Option.bind_some] at hswitch ⊢
      rw [hswitch]
      cases switchContext L { c with lists := lists } <;> rfl

theorem waitListUnblockHighest_withRegistry (W : WaitList) :
    (c.withRegistry g).waitListUnblockHighest L W =
      (c.waitListUnblockHighest L W).map fun r => (r.1.withRegistry g, r.2) := by
  simp only [waitListUnblockHighest, withRegistry_lists, Option.bind_eq_bind, Option.pure_def]
  cases c.lists.waitListUnblockHighest L W <;> rfl

/-- No call of the scheduler reads the links of the registry. -/
theorem call_withRegistry (n : ℕ) {a : Call} (ha : a.Plain) :
    (c.withRegistry g).call L R n a = (c.call L R n a).map (withRegistry · g) := by
  cases a with
  | create config t => exact ha.elim
  | start tickInit =>
    simp only [call, start]
    split
    · exact performSwitch_withRegistry L { c with isRunning := true } g
    · rfl
  | tick =>
    simp only [call, tick, tickSection_withRegistry, Option.bind_eq_bind]
    rcases c.tickSection L n with _ | ⟨c', unblocked⟩
    · rfl
    · simp only [Option.map_some, Option.bind_some, withRegistry_timeSlicingEnabled,
        switchContext_withRegistry]
      split <;> rfl
  | yield => exact switchContext_withRegistry L (c.processTimeSlicing L) g
  | delay ticks =>
    simp only [call, delay, yield, processTimeSlicing_withRegistry, switchContext_withRegistry,
      withRegistry_isRunning, withRegistry_currentTcb]
    split
    · simp [Function.comp_def]
    · rcases c.isRunning with _ | _ <;> rcases c.currentTcb with _ | current
      · rfl
      · rfl
      · rfl
      · have hswitch := switchContext_withRegistry L
          { c with lists := c.lists.delaySection L current ticks } g
        simp only [withRegistry, Option.map_map] at hswitch ⊢
        rw [hswitch]
        simp [Function.comp_def]
  | block W timeout =>
    simp only [call, waitListBlock_withRegistry, Option.map_map]
    rfl
  | unblock W =>
    simp only [call, waitListUnblockHighest_withRegistry, Option.map_map]
    rfl
  | reschedule => exact reschedule_withRegistry L c g
  | lock => exact ha.elim
  | unlock => exact ha.elim

end WithRegistry

/-- Some links spell out a list. -/
theorem exists_registry {R : ListLibrary RegistryAddr} (hR : R.Lawful) {r : LinkedList TaskId}
    (hr : r.WF) : ∃ g, registryLayout.Spells g fun _ => r := by
  rw [hr.eq_ofNodes]
  have hnodup := hr.nodup
  generalize r.nodes = l at hnodup
  induction l using List.reverseRecOn with
  | nil =>
    exact ⟨R.init ⟨fun _ => none, fun _ => none, fun _ => 0⟩ .root,
      fun _ => hR.init, fun _ => hR.init.count_eq.symm⟩
  | append_singleton l t ih =>
    obtain ⟨hl, -, hdisjoint⟩ := List.nodup_append.1 hnodup
    obtain ⟨g, hg⟩ := ih hl
    have hnew : Bundle.Free (fun _ : Unit => LinkedList.ofNodes l) t := fun _ hm =>
      hdisjoint t hm t (by simp) rfl
    have hinsert := hg.insertTail hR.toLawful (i := ()) hnew
    have hlist : Bundle.insertTail (fun _ : Unit => LinkedList.ofNodes l) () t =
        fun _ => LinkedList.ofNodes (l ++ [t]) := by
      funext _
      rw [Bundle.insertTail_same]
      simp [LinkedList.insertTail, LinkedList.ofNodes]
    exact ⟨_, hlist ▸ hinsert⟩

namespace Refines

variable {L : ListLibrary NodeAddr} {R : ListLibrary RegistryAddr} {c : LinkedKernel}
  {k k' : Kernel} {g : Heap RegistryAddr} {r : LinkedList TaskId}

theorem withRegistry (h : c.Refines k) (hg : registryLayout.Spells g fun _ => r) :
    (c.withRegistry g).Refines (k.among r) where
  lists := h.lists.congr rfl rfl rfl rfl
  registry := hg
  basePriority_eq := h.basePriority_eq
  statics_eq := h.statics_eq

/-- What has been computed with the tasks of the cycle only. -/
theorem of_among {c' : LinkedKernel} (h : c.Refines k) (h' : c'.Refines (k'.among r))
    (hreg : k'.taskRegistry = k.taskRegistry) : (c'.withRegistry c.registry).Refines k' := by
  have hback := h'.withRegistry h.registry
  rw [← hreg] at hback
  exact hback

/-- **A call of the scheduler, link by link,** when the representation invariant holds of the tasks
of the cycle. -/
theorem call_among (hL : L.Lawful) (hR : R.Lawful) (hk : (k.among r).Settled) {a : Call}
    (hplain : a.Plain) (ha : a.Allowed k) (h : c.Refines k) : ∃ c',
    (∀ n, r.nodes.length < n → c.call L R n a = some c') ∧ c'.Refines (a.run k) := by
  obtain ⟨g, hg⟩ := exists_registry hR hk.lists.registryWF
  have ha' : a.Allowed (k.among r) := by
    cases a with
    | create config t => exact hplain.elim
    | _ => exact ha
  obtain ⟨c', hrun, hc'⟩ := (h.withRegistry hg).call hL hR hk ha'
  rw [Call.run_among k r hplain] at hc'
  refine ⟨c'.withRegistry c.registry, fun n hn => ?_,
    h.of_among hc' (Call.run_taskRegistry k hplain)⟩
  have hback := call_withRegistry L R (c.withRegistry g) c.registry n hplain
  rwa [hrun n hn] at hback

/-- `sertos_scheduler_wait_list_block`. -/
theorem waitListBlock_among (hL : L.Lawful) (hR : R.Lawful) (hk : (k.among r).Settled)
    (h : c.Refines k) (W : WaitList) {timeout : ℕ} (htimeout : timeout ≠ 0) : ∃ c',
    (∀ n, (k.waitLists W).nodes.length < n →
      c.waitListBlock L n W timeout = some (c', (Scheduler.waitListBlock k W timeout).2)) ∧
    c'.Refines (Scheduler.waitListBlock k W timeout).1 := by
  obtain ⟨g, hg⟩ := exists_registry hR hk.lists.registryWF
  have hplain : (Call.block W timeout).Plain := trivial
  obtain ⟨c', hrun, hc'⟩ := (h.withRegistry hg).waitListBlock hL hk W htimeout
  have hamong : (Scheduler.waitListBlock (k.among r) W timeout).1 =
      (Scheduler.waitListBlock k W timeout).1.among r := Call.run_among k r hplain
  have hstatus : (Scheduler.waitListBlock (k.among r) W timeout).2 =
      (Scheduler.waitListBlock k W timeout).2 := by
    simp only [Scheduler.waitListBlock, Kernel.among_isRunning, Kernel.among_currentTcb]
    split <;> rfl
  rw [hamong] at hc'
  rw [hstatus] at hrun
  refine ⟨c'.withRegistry c.registry, fun n hn => ?_,
    h.of_among hc' (Call.run_taskRegistry k hplain)⟩
  have hback := waitListBlock_withRegistry L (c.withRegistry g) c.registry n W timeout
  rwa [hrun n hn] at hback

/-- `sertos_scheduler_wait_list_unblock_highest`. -/
theorem waitListUnblockHighest_among (hL : L.Lawful) (hR : R.Lawful) (hk : (k.among r).ListInv)
    (h : c.Refines k) (W : WaitList) : ∃ c',
    c.waitListUnblockHighest L W = some (c', (Scheduler.waitListUnblockHighest k W).2) ∧
      c'.Refines (Scheduler.waitListUnblockHighest k W).1 := by
  obtain ⟨g, hg⟩ := exists_registry hR hk.registryWF
  have hplain : (Call.unblock W).Plain := trivial
  obtain ⟨c', hrun, hc'⟩ := (h.withRegistry hg).waitListUnblockHighest hL hk W
  have htask : (Scheduler.waitListUnblockHighest (k.among r) W).2 =
      (Scheduler.waitListUnblockHighest k W).2 := by
    simp only [Scheduler.waitListUnblockHighest, Kernel.among_waitLists]
    split <;> rfl
  rw [Kernel.unblockHighest_among] at hc'
  rw [htask] at hrun
  refine ⟨c'.withRegistry c.registry, ?_, h.of_among hc' (Call.run_taskRegistry k hplain)⟩
  have hback := waitListUnblockHighest_withRegistry L (c.withRegistry g) c.registry W
  rwa [hrun] at hback

end Refines

end LinkedKernel

end Sertos
