import Mathlib.Algebra.Group.Nat.Defs
import Mathlib.Tactic.Common
import Sertos.Lib.Bundle

/-!
# The kernel's data

The static data of `sertos_scheduler.c` and `sertos_stats.c` as one record, `Kernel`, together
with the control blocks it points to.

A task is named by a `TaskId` — the address of its control block — and its fields are in
`Kernel.tcb`.  The two intrusive nodes the scheduler moves around are not fields of the control
block here.  Through `state_node` a task is in at most one of the ready queues and the delay
list, so these are one bundle of lists, `Kernel.stateLists`; through `event_node` it is in at
most one IPC wait list, and these are another, `Kernel.waitLists`.  What the code reads of a node
by itself is whether its links are `NULL`, and that is kept: `Tcb.stateLinked` and
`Tcb.eventLinked`.

The list and bitmap modules are git submodules of the repository.  They are taken at their
documented behaviour: an intrusive circular doubly linked list with a count
(`Intrusive.Bundle`), and an array of bits with a search for the highest one that is set.
-/

set_option autoImplicit false

namespace Sertos

open Intrusive

/-! ## Constants and enumerations -/

/-- `SERTOS_CONFIG_MAX_PRIORITIES`. -/
def maxPriorities : ℕ := 32

/-- `SERTOS_CONFIG_TICK_RATE_HZ`. -/
def configTickRateHz : ℕ := 1000

/-- `SERTOS_CONFIG_MINIMAL_STACK_SIZE`. -/
def minimalStackSize : ℕ := 256

/-- `SERTOS_CONFIG_IDLE_TASK_STACK_SIZE`. -/
def idleTaskStackSize : ℕ := 512

/-- `SERTOS_CONFIG_STACK_ALIGNMENT_BYTES`. -/
def stackAlignmentBytes : ℕ := 8

/-- `SERTOS_NO_WAIT`. -/
def noWait : ℕ := 0

/-- `SERTOS_WAIT_FOREVER`. -/
def waitForever : ℕ := 0xFFFFFFFF

/-- `SertosStatus`. -/
inductive Status
  | ok
  | errorNullPtr
  | errorInvalidParam
  | errorNoMemory
  | errorTimeout
  | errorResourceBusy
  | errorNotInitialized
  | errorIsrContext
  | errorStackOverflow
deriving DecidableEq, Repr

/-- `SertosTaskState`. -/
inductive TaskState
  | ready
  | running
  | blocked
  | suspended
  | terminated
deriving DecidableEq, Repr

/-- A task is ready to run when it is `READY` or already `RUNNING`; the running task stays linked
in its ready queue. -/
def TaskState.isReady : TaskState → Bool
  | .ready | .running => true
  | _ => false

/-- The address of a control block. -/
abbrev TaskId := ℕ

/-- The address of `s_idle_tcb`. -/
def idleTcb : TaskId := 0

/-- The lists a `state_node` can be linked in: `s_ready_queues[p]` and `s_delay_list`. -/
inductive StateList
  | ready (p : ℕ)
  | delay
deriving DecidableEq, Repr

/-- The lists an `event_node` can be linked in: the wait list of a semaphore, of a mutex, or of
any other object. -/
inductive WaitList
  | sem (s : ℕ)
  | mutex (m : ℕ)
  | other (n : ℕ)
deriving DecidableEq, Repr

/-! ## The ready bitmap -/

/-- The bits of a `Bitmap`. -/
abbrev Bitmap := ℕ → Bool

/-- `bitmap_find_last_set` on a bitmap of `n` bits: the highest bit that is set. -/
def Bitmap.findLastSet (b : Bitmap) : ℕ → Option ℕ
  | 0 => none
  | n + 1 => if b n then some n else Bitmap.findLastSet b n

theorem Bitmap.findLastSet_eq_none {b : Bitmap} {n : ℕ} :
    b.findLastSet n = none ↔ ∀ p, p < n → b p = false := by
  induction n with
  | zero => simp [findLastSet]
  | succ n ih =>
    rw [findLastSet]
    by_cases hn : b n = true
    · rw [if_pos hn]
      refine ⟨fun h => absurd h (by simp), fun h => ?_⟩
      rw [h n (Nat.lt_succ_self n)] at hn
      exact absurd hn (by simp)
    · rw [if_neg hn, ih]
      refine ⟨fun h p hp => ?_, fun h p hp => h p (by omega)⟩
      rcases Nat.lt_succ_iff_lt_or_eq.1 hp with hp | rfl
      · exact h p hp
      · simpa using hn

theorem Bitmap.findLastSet_spec {b : Bitmap} {n p : ℕ} (h : b.findLastSet n = some p) :
    p < n ∧ b p = true ∧ ∀ q, p < q → q < n → b q = false := by
  induction n with
  | zero => simp [findLastSet] at h
  | succ n ih =>
    rw [findLastSet] at h
    by_cases hn : b n = true
    · rw [if_pos hn, Option.some_inj] at h
      subst h
      exact ⟨Nat.lt_succ_self n, hn, fun q h1 h2 => by omega⟩
    · rw [if_neg hn] at h
      obtain ⟨h1, h2, h3⟩ := ih h
      refine ⟨by omega, h2, fun q hq1 hq2 => ?_⟩
      rcases Nat.lt_succ_iff_lt_or_eq.1 hq2 with hq | rfl
      · exact h3 q hq1 hq
      · simpa using hn

/-! ## Control blocks and kernel state -/

/-- The fields of `SertosTaskControlBlock` that the scheduler and the IPC objects read or
write. -/
structure Tcb where
  state : TaskState
  priority : ℕ
  basePriority : ℕ
  delayTicks : ℕ
  /-- `wait_list`: the IPC wait list the task is blocked on, or `NULL`. -/
  waitList : Option WaitList
  /-- The links of `state_node` are not `NULL`. -/
  stateLinked : Bool
  /-- The links of `event_node` are not `NULL`. -/
  eventLinked : Bool
deriving DecidableEq, Repr

/-- The run-time accounting of `sertos_stats.c`, with the three accounting fields of each control
block, and the port's free-running counter as the sequence of its readings. -/
structure Stats where
  enabled : Bool
  totalSwitches : ℕ
  runTimeTotal : TaskId → ℕ
  runTimeLastEntry : TaskId → ℕ
  switchInCount : TaskId → ℕ
  /-- What the `n`-th call of `sertos_port_runtime_counter` returns. -/
  runtimeCounter : ℕ → ℕ
  /-- How many readings have been taken. -/
  readings : ℕ

/-- The scheduler's static data and the control blocks. -/
structure Kernel where
  readyBitmap : Bitmap
  /-- `s_ready_queues` and `s_delay_list`, linked through `state_node`. -/
  stateLists : Bundle StateList TaskId
  /-- The IPC wait lists, linked through `event_node`. -/
  waitLists : Bundle WaitList TaskId
  /-- `s_task_registry`, linked through `registry_node`. -/
  taskRegistry : LinkedList TaskId
  tcb : TaskId → Tcb
  /-- `sertos_current_tcb`. -/
  currentTcb : Option TaskId
  isRunning : Bool
  lockNesting : ℕ
  reschedulePending : Bool
  systemTicks : ℕ
  tickRateHz : ℕ
  timeSlicingEnabled : Bool
  stats : Stats

namespace Kernel

/-- `s_ready_queues[p]`. -/
def readyQueue (k : Kernel) (p : ℕ) : LinkedList TaskId := k.stateLists (.ready p)

/-- `s_delay_list`. -/
def delayList (k : Kernel) : LinkedList TaskId := k.stateLists .delay

/-- A task is live from its creation on: it is in the registry. -/
def Live (k : Kernel) (t : TaskId) : Prop := t ∈ k.taskRegistry.nodes

instance (k : Kernel) (t : TaskId) : Decidable (k.Live t) :=
  inferInstanceAs (Decidable (t ∈ k.taskRegistry.nodes))

/-- Writes fields of one control block. -/
def modify (k : Kernel) (t : TaskId) (f : Tcb → Tcb) : Kernel :=
  { k with tcb := Function.update k.tcb t (f (k.tcb t)) }

section Modify

variable (k : Kernel) (t u : TaskId) (f : Tcb → Tcb)

@[simp] theorem modify_tcb_same : (k.modify t f).tcb t = f (k.tcb t) := by simp [modify]

theorem modify_tcb_of_ne {u : TaskId} (h : u ≠ t) : (k.modify t f).tcb u = k.tcb u := by
  simp [modify, h]

@[simp] theorem modify_readyBitmap : (k.modify t f).readyBitmap = k.readyBitmap := rfl
@[simp] theorem modify_stateLists : (k.modify t f).stateLists = k.stateLists := rfl
@[simp] theorem modify_waitLists : (k.modify t f).waitLists = k.waitLists := rfl
@[simp] theorem modify_taskRegistry : (k.modify t f).taskRegistry = k.taskRegistry := rfl
@[simp] theorem modify_currentTcb : (k.modify t f).currentTcb = k.currentTcb := rfl
@[simp] theorem modify_isRunning : (k.modify t f).isRunning = k.isRunning := rfl
@[simp] theorem modify_lockNesting : (k.modify t f).lockNesting = k.lockNesting := rfl
@[simp] theorem modify_reschedulePending :
    (k.modify t f).reschedulePending = k.reschedulePending := rfl
@[simp] theorem modify_timeSlicingEnabled :
    (k.modify t f).timeSlicingEnabled = k.timeSlicingEnabled := rfl

end Modify

/-- `linked_list_insert_tail_direct` on a `state_node`. -/
def insertTail (k : Kernel) (L : StateList) (t : TaskId) : Kernel :=
  { k.modify t fun b => { b with stateLinked := true } with
    stateLists := k.stateLists.insertTail L t }

/-- `linked_list_remove_direct` on a `state_node`.  The links of the node keep their values: the
code that wants them `NULL` clears them itself. -/
def removeDirect (k : Kernel) (L : StateList) (t : TaskId) : Kernel :=
  { k with stateLists := k.stateLists.remove L t }

end Kernel

end Sertos
