import Sertos.Kernel

/-!
# The scheduler

The functions of `sertos_scheduler.c`, each as the state change it makes.  A function that
enters a critical section, leaves it and goes on is cut at that point: `tickSection`,
`delaySection` and `waitListBlockSection` are the bodies between `sertos_port_enter_critical` and
`sertos_port_exit_critical`, and `tick`, `delay` and `waitListBlock` are the whole functions, with
the context switch they request at the end.

`switchContext` is the host build's: `sertos_scheduler_perform_switch` runs inside its critical
section.  On the other ports the same function runs in the exception that `sertos_port_yield`
raises, so a call taken together with the switch it requests is the same state change.

A blocking call returns when its task runs again.  `waitListBlock` is the part before that, and
`waitListBlockStatus` is the `return` at the end of `sertos_scheduler_wait_list_block`, read in
the state in which the task runs again.

The timer list and the tick hook are not part of the kernel state here: callbacks that do not
call the kernel change nothing in it.
-/

set_option autoImplicit false

namespace Sertos

open Intrusive

/-! ## Accounting -/

/-- `sertos_stats_on_switch`. -/
def Stats.onSwitch (s : Stats) (prev : Option TaskId) (next : TaskId) : Stats :=
  if s.enabled then
    let now := s.runtimeCounter s.readings
    let total := match prev with
      | some p =>
        let delta := (now + 2 ^ 32 - s.runTimeLastEntry p) % 2 ^ 32
        Function.update s.runTimeTotal p ((s.runTimeTotal p + delta) % 2 ^ 64)
      | none => s.runTimeTotal
    let entry := Function.update s.runTimeLastEntry next now
    if prev = some next then
      { s with readings := s.readings + 1, runTimeTotal := total, runTimeLastEntry := entry }
    else
      { s with
        readings := s.readings + 1
        runTimeTotal := total
        runTimeLastEntry := entry
        switchInCount :=
          Function.update s.switchInCount next ((s.switchInCount next + 1) % 2 ^ 32)
        totalSwitches := (s.totalSwitches + 1) % 2 ^ 32 }
  else s

/-- `sertos_stats_reset`, with `tasks` the registry it visits. -/
def Stats.reset (s : Stats) (tasks : List TaskId) : Stats :=
  let now := s.runtimeCounter s.readings
  { s with
    readings := s.readings + 1
    runTimeTotal := fun t => if t ∈ tasks then 0 else s.runTimeTotal t
    runTimeLastEntry := fun t => if t ∈ tasks then now else s.runTimeLastEntry t
    switchInCount := fun t => if t ∈ tasks then 0 else s.switchInCount t
    totalSwitches := 0 }

namespace Scheduler

/-! ## Ready queues and selection -/

/-- `sertos_scheduler_add_ready`. -/
def addReady (k : Kernel) (t : TaskId) : Kernel × Status :=
  let p := (k.tcb t).priority
  if maxPriorities ≤ p then (k, .errorInvalidParam)
  else
    let k := k.insertTail (.ready p) t
    let k := { k with readyBitmap := Function.update k.readyBitmap p true }
    (k.modify t fun b => { b with state := .ready }, .ok)

/-- `sertos_scheduler_remove_ready`. -/
def removeReady (k : Kernel) (t : TaskId) : Kernel × Status :=
  let p := (k.tcb t).priority
  if maxPriorities ≤ p then (k, .errorInvalidParam)
  else if (k.tcb t).stateLinked then
    let k := k.removeDirect (.ready p) t
    if (k.readyQueue p).nodes = [] then
      ({ k with readyBitmap := Function.update k.readyBitmap p false }, .ok)
    else (k, .ok)
  else (k, .ok)

/-- `sertos_scheduler_select_next_task`. -/
def selectNextTask (k : Kernel) : Option TaskId :=
  match k.readyBitmap.findLastSet maxPriorities with
  | none => none
  | some p => (k.readyQueue p).nodes.head?

/-- `sertos_scheduler_register_task`. -/
def registerTask (k : Kernel) (t : TaskId) : Kernel :=
  { k with taskRegistry := k.taskRegistry.insertTail t }

/-! ## Switching -/

/-- What `sertos_scheduler_perform_switch` does to the outgoing task: `RUNNING` becomes
`READY`. -/
def preempt (k : Kernel) : Kernel :=
  match k.currentTcb with
  | some prev =>
    if (k.tcb prev).state = .running then k.modify prev fun b => { b with state := .ready } else k
  | none => k

/-- Makes `next` the running task. -/
def dispatch (k : Kernel) (next : TaskId) : Kernel :=
  { (preempt k).modify next fun b => { b with state := .running } with
    currentTcb := some next
    stats := k.stats.onSwitch k.currentTcb next }

/-- `sertos_scheduler_perform_switch`; its result is the `currentTcb` it leaves. -/
def performSwitch (k : Kernel) : Kernel :=
  match selectNextTask k with
  | none => k
  | some next => dispatch k next

/-- `sertos_scheduler_switch_context`. -/
def switchContext (k : Kernel) : Kernel :=
  if 0 < k.lockNesting then { k with reschedulePending := true }
  else match selectNextTask k with
    | none => k
    | some next => if k.currentTcb = some next then k else performSwitch k

/-- `sertos_scheduler_reschedule`. -/
def reschedule (k : Kernel) : Kernel :=
  if k.isRunning then
    match selectNextTask k, k.currentTcb with
    | none, _ => k
    | some _, none => switchContext k
    | some next, some c =>
      if (k.tcb c).priority < (k.tcb next).priority then switchContext k else k
  else k

/-- `sertos_scheduler_start`; `tickInit` is what `sertos_port_tick_init` returned. -/
def start (k : Kernel) (tickInit : Status) : Kernel :=
  if tickInit = .ok then performSwitch { k with isRunning := true }
  else { k with isRunning := false }

/-! ## Wait lists -/

/-- `insert_wait_list_priority`: in front of the first waiter of lower priority. -/
def insertWaitListPriority (k : Kernel) (W : WaitList) (t : TaskId) : Kernel :=
  { k.modify t fun b => { b with eventLinked := true } with
    waitLists := k.waitLists.insertByKey (fun u => (k.tcb u).priority) W t }

/-- `sertos_scheduler_wait_list_remove`. -/
def waitListRemove (k : Kernel) (W : WaitList) (t : TaskId) : Kernel :=
  if (k.tcb t).eventLinked then
    { k.modify t fun b => { b with eventLinked := false } with
      waitLists := k.waitLists.remove W t }
  else k

/-- `sertos_scheduler_wait_list_unblock_highest`. -/
def waitListUnblockHighest (k : Kernel) (W : WaitList) : Kernel × Option TaskId :=
  match (k.waitLists W).nodes with
  | [] => (k, none)
  | t :: _ =>
    let k := waitListRemove k W t
    let k :=
      if 0 < (k.tcb t).delayTicks then
        (k.removeDirect .delay t).modify t fun b => { b with delayTicks := 0 }
      else k
    let k := k.modify t fun b => { b with waitList := none }
    ((addReady k t).1, some t)

/-- At most `n` rounds of the loop `do … while (unblocked != NULL)` around
`sertos_scheduler_wait_list_unblock_highest`. -/
def unblockRounds (W : WaitList) : ℕ → Kernel → Kernel
  | 0, k => k
  | n + 1, k => match waitListUnblockHighest k W with
    | (k, some _) => unblockRounds W n k
    | (k, none) => k

/-- The loop with which the IPC functions empty a wait list.  Each round takes one task off, so one
more round than there are tasks is enough. -/
def unblockAll (k : Kernel) (W : WaitList) : Kernel :=
  unblockRounds W ((k.waitLists W).nodes.length + 1) k

/-- The reschedule at the end of the IPC functions that empty a wait list. -/
def rescheduleIfRunning (k : Kernel) : Kernel := if k.isRunning then reschedule k else k

/-- What the IPC functions do after the critical section in which they unblocked a task, or
none. -/
def notifyUnblocked (k : Kernel) (unblocked : Option TaskId) : Kernel :=
  if unblocked ≠ none ∧ k.isRunning then reschedule k else k

/-- `out_higher_prio_woken`, as the functions for interrupts set it. -/
def higherPrioWoken (k : Kernel) (unblocked : Option TaskId) : Bool :=
  match unblocked, k.currentTcb with
  | some t, some c => (k.tcb c).priority < (k.tcb t).priority
  | _, _ => false

/-- The critical section of `sertos_scheduler_wait_list_block`, for the current task `c`. -/
def waitListBlockSection (k : Kernel) (c : TaskId) (W : WaitList) (timeout : ℕ) : Kernel :=
  let k := (removeReady k c).1
  let k := k.modify c fun b => { b with state := .blocked, waitList := some W }
  let k := insertWaitListPriority k W c
  if timeout ≠ waitForever then
    (k.modify c fun b => { b with delayTicks := timeout }).insertTail .delay c
  else
    k.modify c fun b => { b with delayTicks := 0, stateLinked := false }

/-- `sertos_scheduler_wait_list_block` up to the point where its task runs again: `some` status
if it returned without blocking, `none` if the caller was queued and a switch requested. -/
def waitListBlock (k : Kernel) (W : WaitList) (timeout : ℕ) : Kernel × Option Status :=
  match k.isRunning, k.currentTcb with
  | true, some c => (switchContext (waitListBlockSection k c W timeout), none)
  | _, _ => (k, some .errorNotInitialized)

/-- The status `sertos_scheduler_wait_list_block` returns to `t` when `t` runs again. -/
def waitListBlockStatus (k : Kernel) (t : TaskId) (timeout : ℕ) : Status :=
  if timeout ≠ waitForever ∧ (k.tcb t).delayTicks = 0 ∧ (k.tcb t).waitList = none then
    .errorTimeout
  else .ok

/-! ## The tick -/

/-- One round of the loop of `process_delayed_tasks`, and whether it unblocked its task. -/
def processDelayedTask (k : Kernel) (t : TaskId) : Kernel × Bool :=
  let k :=
    if 0 < (k.tcb t).delayTicks then
      k.modify t fun b => { b with delayTicks := b.delayTicks - 1 }
    else k
  if (k.tcb t).delayTicks = 0 then
    let k := k.removeDirect .delay t
    let k := match (k.tcb t).waitList with
      | some W => (waitListRemove k W t).modify t fun b => { b with waitList := none }
      | none => k
    ((addReady k t).1, true)
  else (k, false)

/-- The loop of `process_delayed_tasks` over the nodes it still has to visit. -/
def processDelayedFrom : Kernel → Bool → List TaskId → Kernel × Bool
  | k, unblocked, [] => (k, unblocked)
  | k, unblocked, t :: rest =>
    let r := processDelayedTask k t
    processDelayedFrom r.1 (unblocked || r.2) rest

/-- `process_delayed_tasks`.  The successor of a node is read before the node is moved, and
nothing is added to the delay list during the walk, so the walk visits the nodes that were in the
list at its start. -/
def processDelayedTasks (k : Kernel) : Kernel × Bool :=
  processDelayedFrom k false k.delayList.nodes

/-- `process_time_slicing`. -/
def processTimeSlicing (k : Kernel) : Kernel :=
  match k.timeSlicingEnabled, k.currentTcb with
  | true, some c =>
    let p := (k.tcb c).priority
    if Exceeds (k.readyQueue p).count 1 then
      (k.removeDirect (.ready p) c).insertTail (.ready p) c
    else k
  | _, _ => k

/-- The critical section of `sertos_scheduler_tick`, and its `need_reschedule`. -/
def tickSection (k : Kernel) : Kernel × Bool :=
  let r := processDelayedTasks { k with systemTicks := k.systemTicks + 1 }
  (processTimeSlicing r.1, r.2)

/-- `sertos_scheduler_tick`. -/
def tick (k : Kernel) : Kernel :=
  let r := tickSection k
  if r.2 || r.1.timeSlicingEnabled then switchContext r.1 else r.1

/-! ## Yield, delay and the scheduler lock -/

/-- `sertos_scheduler_yield`. -/
def yield (k : Kernel) : Kernel := switchContext (processTimeSlicing k)

/-- The critical section of `sertos_scheduler_delay`, for the current task `c`. -/
def delaySection (k : Kernel) (c : TaskId) (ticks : ℕ) : Kernel :=
  let k := (removeReady k c).1
  let k := k.modify c fun b => { b with state := .blocked, delayTicks := ticks }
  k.insertTail .delay c

/-- `sertos_scheduler_delay`; the status is the one returned when the task runs again. -/
def delay (k : Kernel) (ticks : ℕ) : Kernel × Status :=
  if ticks = 0 then (yield k, .ok)
  else match k.isRunning, k.currentTcb with
    | true, some c => (switchContext (delaySection k c ticks), .ok)
    | _, _ => (k, .errorNotInitialized)

/-- `sertos_scheduler_get_tick_rate_hz`. -/
def getTickRateHz (k : Kernel) : ℕ := if 0 < k.tickRateHz then k.tickRateHz else configTickRateHz

/-- `SERTOS_MS_TO_TICKS` at a rate of `rate` ticks per second: computed in 64 bits and cut to a
`SertosTick`. -/
def msToTicks (rate ms : ℕ) : ℕ := (ms * rate % 2 ^ 64 + 999) % 2 ^ 64 / 1000 % 2 ^ 32

/-- `sertos_scheduler_delay_ms`. -/
def delayMs (k : Kernel) (ms : ℕ) : Kernel × Status :=
  if ms = 0 then (yield k, .ok) else delay k (msToTicks (getTickRateHz k) ms)

/-- `sertos_scheduler_get_tick_count`; a `SertosTick` is a `uint32_t`. -/
def getTickCount (k : Kernel) : ℕ := k.systemTicks % 2 ^ 32

/-- `sertos_scheduler_delay_until`, with the variable `last_wake_time` points to, or `none` for
`NULL`; it returns the variable as it leaves it. -/
def delayUntil (k : Kernel) (lastWakeTime : Option ℕ) (period : ℕ) : Kernel × Option ℕ × Status :=
  match lastWakeTime with
  | none => (k, none, .errorNullPtr)
  | some last =>
    if period = 0 then (k, some last, .errorInvalidParam)
    else
      let elapsed := (getTickCount k + 2 ^ 32 - last) % 2 ^ 32
      let last := (last + period) % 2 ^ 32
      if elapsed < period then
        let r := delay k (period - elapsed)
        (r.1, some last, r.2)
      else (yield k, some last, .ok)

/-- `sertos_scheduler_lock`; the counter is a `uint32_t`. -/
def lock (k : Kernel) : Kernel := { k with lockNesting := (k.lockNesting + 1) % 2 ^ 32 }

/-- The critical section of `sertos_scheduler_unlock`, and its `switch_needed`. -/
def unlockSection (k : Kernel) : Kernel × Bool :=
  if 0 < k.lockNesting then
    if k.lockNesting - 1 = 0 ∧ k.reschedulePending then
      ({ k with lockNesting := k.lockNesting - 1, reschedulePending := false }, true)
    else ({ k with lockNesting := k.lockNesting - 1 }, false)
  else (k, false)

/-- `sertos_scheduler_unlock`. -/
def unlock (k : Kernel) : Kernel :=
  let r := unlockSection k
  if r.2 then switchContext r.1 else r.1

end Scheduler

end Sertos
