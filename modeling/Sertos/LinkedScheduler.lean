import Sertos.DelayWalk
import Sertos.PriorityInsertion
import Sertos.Calls

/-!
# The scheduler on links

The functions of `sertos_scheduler.c` once more, with every list as it is in memory: the roots and
the nodes are addresses, a list is walked by following `next`, and a node is found in no other way
than through a link or its control block.  `LinkedKernel` is the scheduler's static data in this
form; what holds no list is the same as in `Kernel`.

A function has no result if it takes a node for one that is not there, so a `NULL` that is
dereferenced shows.  The loops are functions of a number of rounds, without a result when they are
used up.
-/

set_option autoImplicit false

namespace Sertos

open Intrusive Circular

/-! ## The task registry -/

/-- The addresses of the nodes of `s_task_registry`. -/
inductive RegistryAddr
  /-- `s_task_registry.root`. -/
  | root
  | registryNode (t : TaskId)
deriving DecidableEq, Repr

/-- `LINKED_LIST_CONTAINER_OF(node, SertosTaskControlBlock, registry_node)`; there is no result if
the node is no `registry_node`. -/
def RegistryAddr.owner : RegistryAddr → Option TaskId
  | registryNode t => some t
  | root => none

/-- `s_task_registry`. -/
def registryLayout : Layout Unit TaskId RegistryAddr where
  root _ := .root
  node := .registryNode
  root_injective _ _ _ := rfl
  node_injective _ _ e := RegistryAddr.registryNode.inj e
  root_ne_node _ _ e := RegistryAddr.noConfusion e

/-! ## Ready queues and selection -/

namespace ListMemory

variable (L : ListLibrary NodeAddr) (m : ListMemory)

/-- `sertos_scheduler_remove_ready`. -/
def removeReady (t : TaskId) : ListMemory × Status :=
  let p := (m.tcb t).priority
  if maxPriorities ≤ p then (m, .errorInvalidParam)
  else if m.heap.prev (.stateNode t) ≠ none ∧ m.heap.next (.stateNode t) ≠ none then
    let m := { m with heap := L.removeDirect m.heap (.stateRoot (.ready p)) (.stateNode t) }
    if L.isEmpty m.heap (.stateRoot (.ready p)) then
      ({ m with readyBitmap := Function.update m.readyBitmap p false }, .ok)
    else (m, .ok)
  else (m, .ok)

/-- `sertos_scheduler_select_next_task`, with `some none` for `NULL`. -/
def selectNextTask : Option (Option TaskId) :=
  match m.readyBitmap.findLastSet maxPriorities with
  | none => some none
  | some highestPrio => match L.peekHead m.heap (.stateRoot (.ready highestPrio)) with
    | none => some none
    | some headNode => headNode.stateOwner.map some

/-- `process_time_slicing`, with the two variables that it reads. -/
def processTimeSlicing (enabled : Bool) (current : Option TaskId) : ListMemory :=
  match enabled, current with
  | true, some c =>
    let queue := NodeAddr.stateRoot (.ready (m.tcb c).priority)
    if Exceeds (m.heap.count queue) 1 then
      let heap := L.removeDirect m.heap queue (.stateNode c)
      { m with heap := L.insertTailDirect heap queue (.stateNode c) }
    else m
  | _, _ => m

/-! ## Blocking and waking -/

/-- The critical section of `sertos_scheduler_delay`, for the current task `c`. -/
def delaySection (c : TaskId) (ticks : ℕ) : ListMemory :=
  let m := (m.removeReady L c).1
  let m := m.modify c fun b => { b with state := .blocked, delayTicks := ticks }
  { m with heap := L.insertTailDirect m.heap (.stateRoot .delay) (.stateNode c) }

/-- The critical section of `sertos_scheduler_wait_list_block`, for the current task `c`, with at
most `n` rounds of the loop of `insert_wait_list_priority`. -/
def waitListBlockSection (n : ℕ) (c : TaskId) (W : WaitList) (timeout : ℕ) :
    Option ListMemory := do
  let m := (m.removeReady L c).1
  let m := m.modify c fun b => { b with state := .blocked, waitList := some W }
  let heap ← m.insertWaitListPriority L.toListModule W c n
  let m := { m with heap := heap }
  if timeout ≠ waitForever then
    let m := m.modify c fun b => { b with delayTicks := timeout }
    return { m with heap := L.insertTailDirect m.heap (.stateRoot .delay) (.stateNode c) }
  else
    let m := m.modify c fun b => { b with delayTicks := 0 }
    return { m with heap := m.heap.clear (.stateNode c) }

/-- `sertos_scheduler_wait_list_unblock_highest`. -/
def waitListUnblockHighest (W : WaitList) : Option (ListMemory × Option TaskId) :=
  match L.peekHead m.heap (.waitRoot W) with
  | none => some (m, none)
  | some head => do
    let task ← head.eventOwner
    let m := m.waitListRemove L.toListModule W task
    let m :=
      if 0 < (m.tcb task).delayTicks then
        let m := { m with
          heap := L.removeDirect m.heap (.stateRoot .delay) (.stateNode task) }
        m.modify task fun b => { b with delayTicks := 0 }
      else m
    let m := m.modify task fun b => { b with waitList := none }
    return ((m.addReady L.toListModule task).1, some task)

end ListMemory

/-! ## The static data -/

/-- The static data of the scheduler that holds no list. -/
structure Statics where
  currentTcb : Option TaskId
  isRunning : Bool
  lockNesting : ℕ
  reschedulePending : Bool
  systemTicks : ℕ
  tickRateHz : ℕ
  timeSlicingEnabled : Bool
  stats : Stats

def Kernel.statics (k : Kernel) : Statics where
  currentTcb := k.currentTcb
  isRunning := k.isRunning
  lockNesting := k.lockNesting
  reschedulePending := k.reschedulePending
  systemTicks := k.systemTicks
  tickRateHz := k.tickRateHz
  timeSlicingEnabled := k.timeSlicingEnabled
  stats := k.stats

/-- The scheduler's static data and the control blocks, with the lists as links in memory. -/
structure LinkedKernel extends Statics where
  lists : ListMemory
  /-- The links of `s_task_registry` and of the `registry_node`s. -/
  registry : Heap RegistryAddr
  basePriority : TaskId → ℕ

namespace LinkedKernel

variable (L : ListLibrary NodeAddr) (R : ListLibrary RegistryAddr) (c : LinkedKernel)

/-- Writes the state of one control block. -/
def setState (t : TaskId) (s : TaskState) : LinkedKernel :=
  { c with lists := c.lists.modify t fun b => { b with state := s } }

/-! ## Switching -/

/-- What `sertos_scheduler_perform_switch` does to the outgoing task. -/
def preempt : LinkedKernel :=
  match c.currentTcb with
  | some prev => if (c.lists.tcb prev).state = .running then c.setState prev .ready else c
  | none => c

/-- Makes `next` the running task. -/
def dispatch (next : TaskId) : LinkedKernel :=
  { c.preempt.setState next .running with
    currentTcb := some next
    stats := c.stats.onSwitch c.currentTcb next }

/-- `sertos_scheduler_perform_switch`. -/
def performSwitch : Option LinkedKernel :=
  match c.lists.selectNextTask L with
  | none => none
  | some none => some c
  | some (some next) => some (c.dispatch next)

/-- `sertos_scheduler_switch_context`. -/
def switchContext : Option LinkedKernel :=
  if 0 < c.lockNesting then some { c with reschedulePending := true }
  else match c.lists.selectNextTask L with
    | none => none
    | some none => some c
    | some (some next) => if c.currentTcb = some next then some c else c.performSwitch L

/-- `sertos_scheduler_reschedule`. -/
def reschedule : Option LinkedKernel :=
  if c.isRunning then
    match c.lists.selectNextTask L, c.currentTcb with
    | none, _ => none
    | some none, _ => some c
    | some (some _), none => c.switchContext L
    | some (some next), some current =>
      if (c.lists.tcb current).priority < (c.lists.tcb next).priority then c.switchContext L
      else some c
  else some c

/-- `sertos_scheduler_start`. -/
def start (tickInit : Status) : Option LinkedKernel :=
  if tickInit = .ok then performSwitch L { c with isRunning := true }
  else some { c with isRunning := false }

/-! ## The tick, yield and delay -/

/-- `process_time_slicing`. -/
def processTimeSlicing : LinkedKernel :=
  { c with lists := c.lists.processTimeSlicing L c.timeSlicingEnabled c.currentTcb }

/-- The critical section of `sertos_scheduler_tick`, and its `need_reschedule`, with at most `n`
rounds of the loop of `process_delayed_tasks`. -/
def tickSection (n : ℕ) : Option (LinkedKernel × Bool) := do
  let c := { c with systemTicks := c.systemTicks + 1 }
  let r ← c.lists.processDelayedTasks L.toListModule n
  let c := { c with lists := r.1 }
  return (c.processTimeSlicing L, r.2)

/-- `sertos_scheduler_tick`. -/
def tick (n : ℕ) : Option LinkedKernel := do
  let r ← c.tickSection L n
  if r.2 || r.1.timeSlicingEnabled then r.1.switchContext L else some r.1

/-- `sertos_scheduler_yield`. -/
def yield : Option LinkedKernel := (c.processTimeSlicing L).switchContext L

/-- `sertos_scheduler_delay`. -/
def delay (ticks : ℕ) : Option (LinkedKernel × Status) :=
  if ticks = 0 then (c.yield L).map (·, .ok)
  else match c.isRunning, c.currentTcb with
    | true, some current =>
      let c := { c with lists := c.lists.delaySection L current ticks }
      (c.switchContext L).map (·, .ok)
    | _, _ => some (c, .errorNotInitialized)

/-! ## Wait lists -/

/-- `sertos_scheduler_wait_list_block` up to the point where its task runs again. -/
def waitListBlock (n : ℕ) (W : WaitList) (timeout : ℕ) : Option (LinkedKernel × Option Status) :=
  match c.isRunning, c.currentTcb with
  | true, some current => do
    let lists ← c.lists.waitListBlockSection L n current W timeout
    let c ← switchContext L { c with lists := lists }
    return (c, none)
  | _, _ => some (c, some .errorNotInitialized)

/-- `sertos_scheduler_wait_list_unblock_highest`. -/
def waitListUnblockHighest (W : WaitList) : Option (LinkedKernel × Option TaskId) := do
  let r ← c.lists.waitListUnblockHighest L W
  return ({ c with lists := r.1 }, r.2)

/-! ## The scheduler lock -/

/-- `sertos_scheduler_lock`. -/
def lock : LinkedKernel := { c with lockNesting := (c.lockNesting + 1) % 2 ^ 32 }

/-- The critical section of `sertos_scheduler_unlock`, and its `switch_needed`. -/
def unlockSection : LinkedKernel × Bool :=
  if 0 < c.lockNesting then
    if c.lockNesting - 1 = 0 ∧ c.reschedulePending then
      ({ c with lockNesting := c.lockNesting - 1, reschedulePending := false }, true)
    else ({ c with lockNesting := c.lockNesting - 1 }, false)
  else (c, false)

/-- `sertos_scheduler_unlock`. -/
def unlock : Option LinkedKernel :=
  let r := c.unlockSection
  if r.2 then r.1.switchContext L else some r.1

/-! ## Tasks -/

/-- `sertos_scheduler_register_task`. -/
def registerTask (t : TaskId) : LinkedKernel :=
  { c with registry := R.insertTailDirect c.registry .root (.registryNode t) }

/-- `init_tcb_and_stack`. -/
def initTcbAndStack (t : TaskId) (config : TaskConfig) : LinkedKernel :=
  { c with
    lists :=
      { c.lists.modify t fun _ => (Task.initTcb config).fields with
        heap := (c.lists.heap.clear (.stateNode t)).clear (.eventNode t) }
    registry := c.registry.clear (.registryNode t)
    basePriority := Function.update c.basePriority t config.priority
    stats :=
      { c.stats with
        runTimeTotal := Function.update c.stats.runTimeTotal t 0
        runTimeLastEntry := Function.update c.stats.runTimeLastEntry t 0
        switchInCount := Function.update c.stats.switchInCount t 0 } }

/-- `sertos_task_create_static` up to its reschedule. -/
def createStaticSection (config : TaskConfig) (t : TaskId) : LinkedKernel × Status :=
  if config.stackBuffer = none then (c, .errorInvalidParam)
  else match Task.validateTaskConfig config with
    | .ok =>
      let c := c.initTcbAndStack t config
      let r := c.lists.addReady L.toListModule t
      let c := { c with lists := r.1 }
      if r.2 = .ok then (c.registerTask R t, .ok) else (c, r.2)
    | e => (c, e)

/-- `sertos_task_create_static`. -/
def createStatic (config : TaskConfig) (t : TaskId) : Option (LinkedKernel × Status) :=
  let r := c.createStaticSection L R config t
  if r.2 = .ok ∧ r.1.isRunning then (r.1.reschedule L).map (·, r.2) else some r

/-! ## Visiting all tasks -/

/-- At most `n` rounds of the loop of `visit_list_state_nodes` from `node` on: the tasks it calls
the visitor for. -/
def visitFrom : ℕ → Option RegistryAddr → Option (List TaskId)
  | 0, _ => none
  | _, none => none
  | n + 1, some node =>
    if node = .root then some []
    else do
      let task ← node.owner
      let visited ← visitFrom n (c.registry.next node)
      return task :: visited

/-- `sertos_scheduler_visit_all_tasks`, with at most `n` rounds of its loop: the tasks it visits, in
order. -/
def visitAllTasks (n : ℕ) : Option (List TaskId) := c.visitFrom n (c.registry.next .root)

/-! ## Calls -/

/-- The whole call, with the switch it requests. -/
def call (n : ℕ) : Call → Option LinkedKernel
  | .create config t => (c.createStatic L R config t).map Prod.fst
  | .start tickInit => c.start L tickInit
  | .tick => c.tick L n
  | .yield => c.yield L
  | .delay ticks => (c.delay L ticks).map Prod.fst
  | .block W timeout => (c.waitListBlock L n W timeout).map Prod.fst
  | .unblock W => (c.waitListUnblockHighest L W).map Prod.fst
  | .reschedule => c.reschedule L
  | .lock => some c.lock
  | .unlock => c.unlock L

/-- Calls, one after the other. -/
def calls (n : ℕ) : List Call → Option LinkedKernel := List.foldlM (fun c a => c.call L R n a) c

end LinkedKernel

end Sertos
