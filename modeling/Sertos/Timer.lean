import Sertos.Kernel

/-!
# Software timers

The functions of `sertos_timer.c`.  A timer is named by a `TimerId` — the address of its
`SertosTimer` — and the active ones are linked through their `node` in `s_active_timers`.

`sertos_timer_tick` walks that list while the callbacks it invokes may change it.  Of a node the
walk reads `node.next` and nothing else, and it reads it *before* the callback of that node runs.
While the node is linked this is its successor, or the root, which the code turns into `NULL`; what
the field holds while the node is not linked is `Timer.freeNext`.

A callback is user code.  It is given by what it does to the timers: the calls of the timer
interface it makes, in order, as a function of the timers and of a state `σ` of its own.  Since a
callback may restart timers the walk need not end; it is a function of a number of rounds, `none`
when they are used up, or when it comes to a node that it cannot unlink.
-/

set_option autoImplicit false

namespace Sertos

open Intrusive

/-- The address of a `SertosTimer`. -/
abbrev TimerId := ℕ

/-- `SERTOS_TIMER_MAGIC_WORD`. -/
def timerMagicWord : ℕ := 0x54494D52

/-- `SertosTimerConfig`. -/
structure TimerConfig where
  name : Option String
  period : ℕ
  isPeriodic : Bool
  callback : Option ℕ
  param : ℕ
deriving DecidableEq, Repr

/-- `SertosTimer`. -/
structure Timer where
  name : String
  periodTicks : ℕ
  remainingTicks : ℕ
  isPeriodic : Bool
  isActive : Bool
  callback : Option ℕ
  param : ℕ
  /-- What `node.next` holds while the node is not linked, with `none` for `NULL` and for the
  root. -/
  freeNext : Option TimerId
  isStaticallyAllocated : Bool
  magic : ℕ
deriving DecidableEq, Repr

/-- The static data of `sertos_timer.c` and the timers. -/
structure Timers where
  activeTimers : LinkedList TimerId
  /-- `s_timer_subsystem_initialized`. -/
  initialized : Bool
  timer : TimerId → Timer

namespace Timers

variable (s : Timers) (t u : TimerId) (handle : Option TimerId)

/-- The active timers, head first. -/
def nodes : List TimerId := s.activeTimers.nodes

/-- Writes fields of one timer. -/
def modify (f : Timer → Timer) : Timers :=
  { s with timer := Function.update s.timer t (f (s.timer t)) }

/-- `linked_list_insert_tail_direct` on the `node` of a timer. -/
def link : Timers := { s with activeTimers := s.activeTimers.insertTail t }

/-- `linked_list_remove_direct` on the `node` of a timer, which must be linked. -/
def unlink : Timers := { s with activeTimers := s.activeTimers.remove t }

section Fields

variable (f : Timer → Timer)

@[simp] theorem modify_timer_same : (s.modify t f).timer t = f (s.timer t) := by simp [modify]

theorem modify_timer_of_ne {u : TimerId} (h : u ≠ t) : (s.modify t f).timer u = s.timer u := by
  simp [modify, h]

variable {s t f} in
theorem modify_congr {g : Timer → Timer} (h : f (s.timer t) = g (s.timer t)) :
    s.modify t f = s.modify t g := by
  rw [modify, modify, h]

@[simp] theorem modify_activeTimers : (s.modify t f).activeTimers = s.activeTimers := rfl
@[simp] theorem modify_nodes : (s.modify t f).nodes = s.nodes := rfl
@[simp] theorem modify_initialized : (s.modify t f).initialized = s.initialized := rfl
@[simp] theorem link_timer : (s.link t).timer = s.timer := rfl
@[simp] theorem link_nodes : (s.link t).nodes = s.nodes ++ [t] := rfl
@[simp] theorem link_initialized : (s.link t).initialized = s.initialized := rfl
@[simp] theorem unlink_timer : (s.unlink t).timer = s.timer := rfl
@[simp] theorem unlink_nodes : (s.unlink t).nodes = s.nodes.erase t := rfl
@[simp] theorem unlink_initialized : (s.unlink t).initialized = s.initialized := rfl

end Fields

/-- What `node.next` of a timer leads the walk to. -/
def next : Option TimerId :=
  if t ∈ s.nodes then s.nodes[s.nodes.idxOf t + 1]? else (s.timer t).freeNext

/-- The test with which the functions that take a handle begin: the timer, if the handle is not
`NULL` and the canary is in place. -/
def checkHandle : Option TimerId := handle.filter fun t => (s.timer t).magic = timerMagicWord

/-- `sertos_timer_init`. -/
def init : Timers := { s with activeTimers := LinkedList.init, initialized := true }

/-- The timer `sertos_timer_create_static` writes. -/
def initTimer (config : TimerConfig) : Timer where
  name := config.name.getD "Timer"
  periodTicks := config.period
  remainingTicks := config.period
  isPeriodic := config.isPeriodic
  isActive := false
  callback := config.callback
  param := config.param
  freeNext := none
  isStaticallyAllocated := true
  magic := timerMagicWord

/-- `sertos_timer_create_static`, for pointers that are not `NULL`. -/
def createStatic (config : TimerConfig) : Timers × Status :=
  if config.period = 0 ∨ config.callback = none then (s, .errorInvalidParam)
  else
    let s := if s.initialized then s else s.init
    (s.modify t fun _ => initTimer config, .ok)

/-- `sertos_timer_delete`.  The links of the node keep their values. -/
def delete : Timers × Status :=
  match s.checkHandle handle with
  | none => (s, .errorInvalidParam)
  | some t =>
    let next := s.next t
    let s :=
      if (s.timer t).isActive then
        (s.unlink t).modify t fun b => { b with isActive := false, freeNext := next }
      else s
    (s.modify t fun b => { b with magic := 0 }, .ok)

/-- `sertos_timer_start`. -/
def start : Timers × Status :=
  match s.checkHandle handle with
  | none => (s, .errorInvalidParam)
  | some t =>
    let s := if (s.timer t).isActive then s.unlink t else s
    let s := s.modify t fun b => { b with remainingTicks := b.periodTicks, isActive := true }
    (s.link t, .ok)

/-- `sertos_timer_stop`. -/
def stop : Timers × Status :=
  match s.checkHandle handle with
  | none => (s, .errorInvalidParam)
  | some t =>
    if (s.timer t).isActive then
      ((s.unlink t).modify t fun b => { b with freeNext := none, isActive := false }, .ok)
    else (s, .ok)

/-- `sertos_timer_reset`. -/
def reset : Timers × Status := s.start handle

/-- `sertos_timer_change_period`. -/
def changePeriod (newPeriod : ℕ) : Timers × Status :=
  match s.checkHandle handle with
  | none => (s, .errorInvalidParam)
  | some t =>
    if newPeriod = 0 then (s, .errorInvalidParam)
    else (s.modify t fun b => { b with periodTicks := newPeriod }).reset handle

/-! ## The tick -/

/-- One round of the loop of `sertos_timer_tick` up to the callback, and whether that is invoked. -/
def visit : Timers × Bool :=
  let s :=
    if 0 < (s.timer t).remainingTicks then
      s.modify t fun b => { b with remainingTicks := b.remainingTicks - 1 }
    else s
  if (s.timer t).remainingTicks = 0 then
    let s :=
      if (s.timer t).isPeriodic then
        s.modify t fun b => { b with remainingTicks := b.periodTicks }
      else
        (s.unlink t).modify t fun b => { b with freeNext := none, isActive := false }
    (s, (s.timer t).callback.isSome)
  else (s, false)

/-- The visit would call `linked_list_remove_direct` on a node that is not linked: the timer is a
one-shot that is due and has been stopped or deleted.  Its links are `NULL` or stale. -/
def UnlinksFree : Prop :=
  t ∉ s.nodes ∧ (s.timer t).remainingTicks ≤ 1 ∧ (s.timer t).isPeriodic = false

instance : Decidable (s.UnlinksFree t) :=
  inferInstanceAs (Decidable
    (t ∉ s.nodes ∧ (s.timer t).remainingTicks ≤ 1 ∧ (s.timer t).isPeriodic = false))

theorem not_unlinksFree (h : t ∈ s.nodes) : ¬ s.UnlinksFree t := fun hf => hf.1 h

end Timers

/-- A call of the timer interface on a handle. -/
inductive TimerOp
  | start (handle : Option TimerId)
  | stop (handle : Option TimerId)
  | reset (handle : Option TimerId)
  | changePeriod (handle : Option TimerId) (newPeriod : ℕ)
  | delete (handle : Option TimerId)
deriving DecidableEq, Repr

namespace TimerOp

/-- The call a `TimerOp` stands for. -/
def run (s : Timers) : TimerOp → Timers × Status
  | start handle => s.start handle
  | stop handle => s.stop handle
  | reset handle => s.reset handle
  | changePeriod handle newPeriod => s.changePeriod handle newPeriod
  | delete handle => s.delete handle

/-- The handle a call is made on. -/
def handle : TimerOp → Option TimerId
  | start handle | stop handle | reset handle | changePeriod handle _ | delete handle => handle

end TimerOp

/-- The callbacks of the timers, over a state `σ` of their own: the calls the callback of a timer
makes and the state it leaves. -/
abbrev Callbacks (σ : Type) := TimerId → σ → Timers → List TimerOp × σ

namespace Timers

variable {σ : Type}

/-- The calls of a callback, one after the other. -/
def runCalls (s : Timers) (calls : List TimerOp) : Timers := calls.foldl (fun s o => (o.run s).1) s

/-- What a tick leaves: the timers, the state of the callbacks, and the timers whose callback was
invoked, in order. -/
structure TickResult (σ : Type) where
  timers : Timers
  env : σ
  fired : List TimerId

/-- One round of the loop of `sertos_timer_tick`, with the callback. -/
def visitAndCall (callbacks : Callbacks σ) (s : Timers) (e : σ) (t : TimerId) : TickResult σ :=
  let r := s.visit t
  if r.2 then
    let c := callbacks t e r.1
    ⟨r.1.runCalls c.1, c.2, [t]⟩
  else ⟨r.1, e, []⟩

/-- At most `n` rounds of the loop of `sertos_timer_tick`, from the node `curr` on.  There is no
result either if a node is unlinked that is not linked. -/
def walk (callbacks : Callbacks σ) : ℕ → Timers → σ → Option TimerId → Option (TickResult σ)
  | _, s, e, none => some ⟨s, e, []⟩
  | 0, _, _, some _ => none
  | n + 1, s, e, some t =>
    if s.UnlinksFree t then none
    else
      let next := s.next t
      let r := visitAndCall callbacks s e t
      (walk callbacks n r.timers r.env next).map fun w => { w with fired := r.fired ++ w.fired }

/-- `sertos_timer_tick`, if its loop ends within `n` rounds. -/
def tick (callbacks : Callbacks σ) (n : ℕ) (s : Timers) (e : σ) : Option (TickResult σ) :=
  if s.initialized then walk callbacks n s e s.nodes.head? else some ⟨s, e, []⟩

/-- The tick returns. -/
def TickReturns (callbacks : Callbacks σ) (s : Timers) (e : σ) : Prop :=
  ∃ n, (tick callbacks n s e).isSome = true

end Timers

end Sertos
