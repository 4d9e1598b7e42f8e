import Sertos.Scheduler

/-!
# Task creation and scheduler initialisation

`sertos_task_create_static`, `sertos_task_create`, and the function that uses the first to create
the Idle task, `sertos_scheduler_init_with_config`.  Pointers the code only compares with `NULL` or
aligns are addresses, with `none` for `NULL`.
-/

set_option autoImplicit false

namespace Sertos

open Intrusive

/-- The fields of `SertosTaskConfig` that creation reads. -/
structure TaskConfig where
  entryFunc : Option ℕ
  priority : ℕ
  stackBuffer : Option ℕ
  stackSize : ℕ
deriving DecidableEq, Repr

/-- A valid configuration of priority `p`. -/
def TaskConfig.ofPriority (p : ℕ) : TaskConfig := ⟨some 1, p, some 0, minimalStackSize⟩

/-- The fields of `SertosConfig` that initialisation reads, the two hooks apart. -/
structure Config where
  tickRateHz : ℕ
  enableTimeSlicing : Bool
  idleTaskStack : Option ℕ
  idleTaskStackSize : ℕ
  enableRuntimeStats : Bool
deriving DecidableEq, Repr

namespace Task

/-- `validate_task_config`. -/
def validateTaskConfig (config : TaskConfig) : Status :=
  if config.entryFunc = none then .errorInvalidParam
  else if maxPriorities ≤ config.priority then .errorInvalidParam
  else if config.stackSize < minimalStackSize then .errorInvalidParam
  else match config.stackBuffer with
    | some a => if a % stackAlignmentBytes ≠ 0 then .errorInvalidParam else .ok
    | none => .ok

/-- The control block `init_tcb_and_stack` writes. -/
def initTcb (config : TaskConfig) : Tcb where
  state := .ready
  priority := config.priority
  basePriority := config.priority
  delayTicks := 0
  waitList := none
  stateLinked := false
  eventLinked := false

/-- `init_tcb_and_stack`. -/
def initTcbAndStack (k : Kernel) (t : TaskId) (config : TaskConfig) : Kernel :=
  { k.modify t fun _ => initTcb config with
    stats :=
      { k.stats with
        runTimeTotal := Function.update k.stats.runTimeTotal t 0
        runTimeLastEntry := Function.update k.stats.runTimeLastEntry t 0
        switchInCount := Function.update k.stats.switchInCount t 0 } }

/-- `sertos_task_create_static` up to its reschedule. -/
def createStaticSection (k : Kernel) (config : TaskConfig) (t : TaskId) : Kernel × Status :=
  if config.stackBuffer = none then (k, .errorInvalidParam)
  else match validateTaskConfig config with
    | .ok =>
      let r := Scheduler.addReady (initTcbAndStack k t config) t
      if r.2 = .ok then (Scheduler.registerTask r.1 t, .ok) else r
    | e => (k, e)

/-- `sertos_task_create_static`. -/
def createStatic (k : Kernel) (config : TaskConfig) (t : TaskId) : Kernel × Status :=
  let r := createStaticSection k config t
  if r.2 = .ok ∧ r.1.isRunning then (Scheduler.reschedule r.1, r.2) else r

/-- `sertos_task_create`; `tcb` and `stackBuf` are what `memory_pool_malloc` returns for the control
block and the stack. -/
def create (k : Kernel) (config : TaskConfig) (tcb : Option TaskId) (stackBuf : Option ℕ) :
    Kernel × Status :=
  match validateTaskConfig config with
  | .ok => match tcb, stackBuf with
    | some t, some a =>
      let r := Scheduler.addReady (initTcbAndStack k t { config with stackBuffer := some a }) t
      if r.2 = .ok then
        let k := Scheduler.registerTask r.1 t
        (if k.isRunning then Scheduler.reschedule k else k, .ok)
      else r
    | _, _ => (k, .errorNoMemory)
  | e => (k, e)

end Task

namespace Scheduler

/-- The configuration of the Idle task; `idleStack` is the address of `s_idle_stack`, which the
linker aligns. -/
def idleConfig (config : Option Config) (idleStack : ℕ) : TaskConfig :=
  let own : TaskConfig := ⟨some 0, 0, some idleStack, idleTaskStackSize⟩
  match config with
  | none => own
  | some c => match c.idleTaskStack with
    | none => own
    | some a =>
      if minimalStackSize ≤ c.idleTaskStackSize then
        { own with stackBuffer := some a, stackSize := c.idleTaskStackSize }
      else own

/-- The scheduler's static data as `sertos_scheduler_init_with_config` sets it, before it creates
the Idle task.  Control blocks and counters keep whatever the memory `mem` held. -/
def initData (mem : Kernel) (config : Option Config) : Kernel :=
  { mem with
    readyBitmap := fun _ => false
    stateLists := fun _ => LinkedList.init
    waitLists := fun _ => LinkedList.init
    taskRegistry := LinkedList.init
    currentTcb := none
    isRunning := false
    lockNesting := 0
    reschedulePending := false
    systemTicks := 0
    tickRateHz := match config with
      | some c => if 0 < c.tickRateHz then c.tickRateHz else configTickRateHz
      | none => configTickRateHz
    timeSlicingEnabled := match config with
      | some c => c.enableTimeSlicing
      | none => true
    stats := { mem.stats with
      enabled := match config with
        | some c => c.enableRuntimeStats
        | none => false } }

/-- Memory as the loader leaves it: all static data zero. -/
def bss : Kernel where
  readyBitmap := fun _ => false
  stateLists := fun _ => LinkedList.init
  waitLists := fun _ => LinkedList.init
  taskRegistry := LinkedList.init
  tcb := fun _ => ⟨.ready, 0, 0, 0, none, false, false⟩
  currentTcb := none
  isRunning := false
  lockNesting := 0
  reschedulePending := false
  systemTicks := 0
  tickRateHz := 0
  timeSlicingEnabled := false
  stats := ⟨false, 0, fun _ => 0, fun _ => 0, fun _ => 0, fun _ => 0, 0⟩

/-- `sertos_scheduler_init_with_config`.  The IPC objects do not exist yet when the scheduler is
initialised, so their wait lists start empty. -/
def initWithConfig (mem : Kernel) (config : Option Config) (idleStack : ℕ) : Kernel × Status :=
  let r := Task.createStatic (initData mem config) (idleConfig config idleStack) idleTcb
  ({ r.1 with stats := r.1.stats.reset r.1.taskRegistry.nodes }, r.2)

end Scheduler

end Sertos
