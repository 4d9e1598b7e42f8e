import Mathlib.Logic.Function.Basic
import Sertos.Lib.Trace

/-!
# The hand-over between the threads of the Windows port

On Windows every task is a thread.  A task that gives up the processor sets the event of the next
one and waits on its own; the tick thread, which cannot make a task wait, suspends its thread and
marks it, so that it is resumed later and its event is not set.  `s_running_ctx` says whose turn it
is.

The steps are those of all threads, in any order: `sertos_port_yield` of a task up to its wait and
of the tick thread, the end of a wait, creation and deletion of tasks, and the changes that the
kernel makes to `sertos_current_tcb` in between.  A critical section (`s_port_cs`) is one step.
`Inv` says of each thread what its event and its mark mean: so only the thread whose turn it is
runs, and it can run (`windows_one_thread_runs`), unless it was created after the start, because
such a thread is created suspended and nobody resumes it.

`sertos_port_start_first_task` is in no critical section.  It is three steps, between which the tick
thread, which the first one creates, could run: `two_run_after_tick` shows that a tick there leaves
an event set for a thread that does not wait, and `two_run_after_restart` that a second start does
so after a stop.  So the runs are those with one start, during which the tick thread still sleeps
(`Event.Undisturbed`).
-/

set_option autoImplicit false

namespace Sertos

open Lts

namespace WindowsPort

/-- An index into `s_task_contexts`. -/
abbrev CtxId := ℕ

/-- Where a thread is. -/
inductive Phase
  /-- In the code of its task. -/
  | task
  /-- In `WaitForSingleObject`, on the event of a context. -/
  | waits (event : CtxId)
  | terminated
deriving DecidableEq, Repr

/-- `PortWindowsContext`, with its thread and its event. -/
structure Context where
  phase : Phase
  suspendCount : ℕ
  event : Bool
  isSuspendedByTick : Bool
  inUse : Bool
  /-- The thread was created after the start.  This is not in the source. -/
  late : Bool
deriving DecidableEq, Repr

/-- Where the thread is that calls `sertos_port_start_first_task`. -/
inductive StartPc
  | before
  /-- The tick thread has been created. -/
  | resuming
  /-- The loop has resumed the threads. -/
  | signalling
  /-- In `WaitForSingleObject`, on `s_exit_event`. -/
  | waiting
deriving DecidableEq, Repr

/-- The state of the port. -/
structure State where
  taskContexts : CtxId → Context
  runningCtx : Option CtxId
  schedulerRunning : Bool
  /-- `port_context` of `sertos_current_tcb`, if that is not `NULL`. -/
  currentTcb : Option (Option CtxId)
  /-- No terminated thread holds `s_port_cs`. -/
  csFree : Bool
  startPc : StartPc

namespace State

/-- The loop of `sertos_port_start_first_task` has been through. -/
def resumed (s : State) : Bool :=
  match s.startPc with
  | .before | .resuming => false
  | .signalling | .waiting => true

/-- Changes one context. -/
def modify (s : State) (i : CtxId) (f : Context → Context) : State :=
  { s with taskContexts := Function.update s.taskContexts i (f (s.taskContexts i)) }

section Modify

variable (s : State) (i : CtxId) (f : Context → Context)

@[simp] theorem modify_same : (s.modify i f).taskContexts i = f (s.taskContexts i) := by
  simp [modify]

theorem modify_of_ne {j : CtxId} (h : j ≠ i) :
    (s.modify i f).taskContexts j = s.taskContexts j := by
  simp [modify, h]

@[simp] theorem modify_runningCtx : (s.modify i f).runningCtx = s.runningCtx := rfl

end Modify

/-- The thread runs code of its task. -/
def Executes (s : State) (i : CtxId) : Prop :=
  (s.taskContexts i).phase = .task ∧ (s.taskContexts i).suspendCount = 0

/-- The thread is in a wait that is over. -/
def CanWake (s : State) (i : CtxId) : Prop :=
  (s.taskContexts i).suspendCount = 0 ∧
    ∃ p, (s.taskContexts i).phase = .waits p ∧ (s.taskContexts p).event = true

instance (s : State) (i : CtxId) : Decidable (s.Executes i) := inferInstanceAs (Decidable (_ ∧ _))

instance (s : State) (i : CtxId) : Decidable (s.CanWake i) :=
  match h : (s.taskContexts i).phase with
  | .task => .isFalse fun hw => by obtain ⟨-, p, hp, -⟩ := hw; rw [h] at hp; cases hp
  | .terminated => .isFalse fun hw => by obtain ⟨-, p, hp, -⟩ := hw; rw [h] at hp; cases hp
  | .waits p => decidable_of_iff
      ((s.taskContexts i).suspendCount = 0 ∧ (s.taskContexts p).event = true)
      ⟨fun hw => ⟨hw.1, p, h, hw.2⟩, fun hw => by
        obtain ⟨hzero, q, hq, he⟩ := hw
        rw [h] at hq
        cases hq
        exact ⟨hzero, he⟩⟩

end State

/-! ## The functions -/

/-- `ResumeThread`, which leaves a thread alone that is not suspended. -/
def resumeThread (c : Context) : Context := { c with suspendCount := c.suspendCount - 1 }

/-- The next thread is resumed if the tick thread has suspended it, and is signalled otherwise. -/
def dispatch (s : State) (next : CtxId) : State :=
  s.modify next fun c =>
    if c.isSuspendedByTick then resumeThread { c with isSuspendedByTick := false }
    else { c with event := true }

/-- `SuspendThread` by the tick thread, if there is a thread. -/
def suspendByTick (s : State) (prev : CtxId) : State :=
  s.modify prev fun c =>
    if c.inUse then { c with suspendCount := c.suspendCount + 1, isSuspendedByTick := true } else c

/-- `sertos_port_yield`, called by the tick thread. -/
def yieldTick (s : State) : State :=
  if ¬ s.schedulerRunning then s
  else match s.currentTcb with
    | some (some next) =>
      if s.runningCtx = some next then s
      else
        let s' := { s with runningCtx := some next }
        dispatch (match s.runningCtx with
          | some prev => suspendByTick s' prev
          | none => s') next
    | _ => s

/-- `sertos_port_yield`, called by the thread of the context `i`, up to its wait. -/
def yieldTask (s : State) (i : CtxId) : State :=
  if ¬ s.schedulerRunning then s
  else match s.currentTcb with
    | none => s
    | some next =>
      if next = s.runningCtx then s
      else
        let s' := { s with runningCtx := next }
        let s' := match next with
          | some n => dispatch s' n
          | none => s'
        match s.runningCtx with
        | some prev => s'.modify i fun c => { c with phase := .waits prev }
        | none => s'

/-- `WaitForSingleObject` of the thread of `i` returns, and resets the event. -/
def wake (s : State) (i : CtxId) : State :=
  match (s.taskContexts i).phase with
  | .waits p =>
    (s.modify p fun c => { c with event := false }).modify i fun c => { c with phase := .task }
  | _ => s

/-- `sertos_port_start_first_task`, up to the creation of the tick thread. -/
def createTickThread (s : State) : State :=
  { s with schedulerRunning := true, startPc := .resuming }

/-- The loop of `sertos_port_start_first_task` that resumes all threads. -/
def resumeAll (s : State) : State :=
  { s with
    taskContexts := fun i =>
      if (s.taskContexts i).inUse then resumeThread (s.taskContexts i) else s.taskContexts i
    startPc := .signalling }

/-- `sertos_port_start_first_task` behind its loop, up to its wait. -/
def signalFirst (s : State) : State :=
  let s := { s with startPc := .waiting }
  match s.currentTcb with
  | some (some i) => { s.modify i fun c => { c with event := true } with runningCtx := some i }
  | some none => { s with runningCtx := none }
  | none => s

/-- `sertos_port_task_create_hook` with the context `i`; its thread is created suspended, and starts
with a wait on its own event. -/
def createHook (s : State) (i : CtxId) : State :=
  s.modify i fun _ =>
    { phase := .waits i
      suspendCount := 1
      event := false
      isSuspendedByTick := false
      inUse := true
      late := s.resumed }

/-- `sertos_port_task_delete_hook` for the task of the context `i`, in the critical section of
`caller`, or of the tick thread.  A thread that terminates itself never leaves that section. -/
def deleteHook (s : State) (caller : Option CtxId) (i : CtxId) : State :=
  { s.modify i fun c => { c with phase := .terminated, inUse := false } with
    currentTcb := if s.currentTcb = some (some i) then some none else s.currentTcb
    csFree := if caller = some i then false else s.csFree }

/-! ## Runs -/

/-- One step of some thread. -/
inductive Event
  | create (i : CtxId)
  | delete (caller : Option CtxId) (i : CtxId)
  /-- The kernel makes another task the current one. -/
  | select (ctx : Option CtxId)
  | createTickThread
  | resumeAll
  | signalFirst
  | yieldTask (i : CtxId)
  | yieldTick
  | wake (i : CtxId)
  /-- `sertos_port_stop_scheduler`. -/
  | stop
deriving DecidableEq, Repr

namespace Event

/-- The state change of a step. -/
def run (s : State) : Event → State
  | .create i => createHook s i
  | .delete caller i => deleteHook s caller i
  | .select ctx => { s with currentTcb := some ctx }
  | .createTickThread => WindowsPort.createTickThread s
  | .resumeAll => WindowsPort.resumeAll s
  | .signalFirst => WindowsPort.signalFirst s
  | .yieldTask i => WindowsPort.yieldTask s i
  | .yieldTick => WindowsPort.yieldTick s
  | .wake i => WindowsPort.wake s i
  | .stop => { s with schedulerRunning := false }

/-- A thread takes steps while it executes, and a critical section can be entered if it is free.  The
scheduler can be started again when it has been stopped. -/
def Allowed (s : State) : Event → Prop
  | .create i => s.csFree = true ∧ (s.taskContexts i).inUse = false
  | .delete caller i => s.csFree = true ∧ (s.taskContexts i).inUse = true ∧
    ∀ j ∈ caller, s.Executes j
  | .select ctx => s.csFree = true ∧ ∀ i ∈ ctx, (s.taskContexts i).inUse = true
  | .createTickThread =>
    s.startPc = .before ∨ s.startPc = .waiting ∧ s.schedulerRunning = false
  | .resumeAll => s.startPc = .resuming
  | .signalFirst => s.startPc = .signalling
  | .yieldTask i => s.csFree = true ∧ s.Executes i
  | .yieldTick => s.csFree = true
  | .wake i => s.CanWake i
  | .stop => True

instance (s : State) : DecidablePred (Allowed s)
  | .create i =>
    inferInstanceAs (Decidable (s.csFree = true ∧ (s.taskContexts i).inUse = false))
  | .delete caller i => inferInstanceAs (Decidable
    (s.csFree = true ∧ (s.taskContexts i).inUse = true ∧ ∀ j ∈ caller, s.Executes j))
  | .select ctx => inferInstanceAs (Decidable
    (s.csFree = true ∧ ∀ i ∈ ctx, (s.taskContexts i).inUse = true))
  | .createTickThread => inferInstanceAs
    (Decidable (s.startPc = .before ∨ s.startPc = .waiting ∧ s.schedulerRunning = false))
  | .resumeAll => inferInstanceAs (Decidable (s.startPc = .resuming))
  | .signalFirst => inferInstanceAs (Decidable (s.startPc = .signalling))
  | .yieldTask i => inferInstanceAs (Decidable (s.csFree = true ∧ s.Executes i))
  | .yieldTick => inferInstanceAs (Decidable (s.csFree = true))
  | .wake i => inferInstanceAs (Decidable (s.CanWake i))
  | .stop => .isTrue trivial

/-- The start goes through before the tick thread runs, which sleeps first, and is not repeated. -/
def Undisturbed (s : State) (e : Event) : Prop :=
  match s.startPc with
  | .before => True
  | .resuming => e = .resumeAll
  | .signalling => e = .signalFirst
  | .waiting => e ≠ .createTickThread

instance (s : State) (e : Event) : Decidable (Undisturbed s e) := by
  unfold Undisturbed
  split <;> infer_instance

/-- One step of a run. -/
abbrev Step : State → Event → State → Prop := Guarded Allowed run

/-- One step of a run with one start, which the tick thread does not disturb. -/
abbrev QuietStep : State → Event → State → Prop :=
  Guarded (fun s e => Allowed s e ∧ Undisturbed s e) run

end Event

/-- The port before any task is created. -/
def State.init : State :=
  { taskContexts := fun _ => ⟨.terminated, 0, false, false, false, false⟩
    runningCtx := none
    schedulerRunning := false
    currentTcb := none
    csFree := true
    startPc := .before }

/-! ## One thread -/

/-- What holds of the thread of a context in use; `turn` says that it is the thread's turn. -/
structure Context.Live (resumed turn : Prop) (i : CtxId) (c : Context) : Prop where
  phase : c.phase = .task ∨ c.phase = .waits i
  count : c.suspendCount =
    (if c.late = true then 1 else 0) + (if c.isSuspendedByTick = true then 1 else 0) ∧ resumed ∨
      c.suspendCount = 1 ∧ ¬ resumed
  early : ¬ resumed → c.late = false ∧ c.isSuspendedByTick = false
  unmarked : turn → c.isSuspendedByTick = false
  /-- Nobody resumes a thread that was created after the start. -/
  late : c.late = true → c.phase = .waits i
  /-- A thread that can go on, or could before it was suspended, is signalled if it waits. -/
  signalled : c.late = false → turn ∨ c.isSuspendedByTick = true →
    (c.event = true ↔ c.phase = .waits i)
  /-- Any other thread waits to be signalled. -/
  rests : c.late = false → ¬ turn → c.isSuspendedByTick = false →
    c.phase = .waits i ∧ c.event = false

/-- What holds of every context. -/
structure Context.Ok (resumed turn : Prop) (i : CtxId) (c : Context) : Prop where
  live : c.inUse = true → c.Live resumed turn i
  gone : c.inUse = false → c.phase = .terminated

namespace Context

variable {resumed turn turn' : Prop} {i : CtxId} {c : Context}

theorem Ok.inUse (h : c.Ok resumed turn i) (hphase : c.phase ≠ .terminated) : c.inUse = true := by
  by_contra hne
  exact hphase (h.gone (by simpa using hne))

theorem Live.of_count (h : c.Live resumed turn i) (hzero : c.suspendCount = 0) :
    resumed ∧ c.late = false ∧ c.isSuspendedByTick = false := by
  rcases h.count with ⟨hcount, hresumed⟩ | ⟨hone, -⟩
  · cases hlate : c.late <;> cases hmark : c.isSuspendedByTick <;>
      simp [hlate, hmark, hzero] at hcount ⊢
    exact hresumed
  · omega

/-- A thread that executes has its turn. -/
theorem Live.turn_of_executes (h : c.Live resumed turn i) (hphase : c.phase = .task)
    (hzero : c.suspendCount = 0) : turn := by
  obtain ⟨-, hlate, hmark⟩ := h.of_count hzero
  by_contra hturn
  obtain ⟨hwaits, -⟩ := h.rests hlate hturn hmark
  rw [hphase] at hwaits
  exact absurd hwaits (by simp)

/-- **Turn taken by the tick thread**: the thread is suspended where it is. -/
theorem Live.suspend (h : c.Live resumed turn i) (hresumed : resumed) (hturn : turn)
    (hturn' : ¬ turn') :
    Live resumed turn' i { c with suspendCount := c.suspendCount + 1, isSuspendedByTick := true } where
  phase := h.phase
  count := by
    have hmark := h.unmarked hturn
    rcases h.count with ⟨hcount, -⟩ | ⟨-, hnot⟩
    · rw [hmark] at hcount
      exact .inl ⟨by simp [hcount], hresumed⟩
    · exact absurd hresumed hnot
  early hnot := absurd hresumed hnot
  unmarked ht := absurd ht hturn'
  late := h.late
  signalled hlate _ := h.signalled hlate (.inl hturn)
  rests _ _ hmark := absurd hmark (by simp)

/-- **Turn given** to a thread that the tick thread has suspended. -/
theorem Live.resume (h : c.Live resumed turn i) (hresumed : resumed)
    (hmark : c.isSuspendedByTick = true) (hturn' : turn') :
    Live resumed turn' i (resumeThread { c with isSuspendedByTick := false }) where
  phase := h.phase
  count := by
    rcases h.count with ⟨hcount, -⟩ | ⟨-, hnot⟩
    · rw [if_pos hmark] at hcount
      exact .inl ⟨by simp [resumeThread, hcount], hresumed⟩
    · exact absurd hresumed hnot
  early hnot := absurd hresumed hnot
  unmarked _ := rfl
  late := h.late
  signalled hlate _ := h.signalled hlate (.inr hmark)
  rests _ ht := absurd hturn' ht

/-- **Turn given** to a thread in its wait. -/
theorem Live.signal (h : c.Live resumed turn i) (hresumed : resumed) (hturn : ¬ turn)
    (hmark : c.isSuspendedByTick = false) (hturn' : turn') :
    Live resumed turn' i { c with event := true } where
  phase := h.phase
  count := h.count
  early hnot := absurd hresumed hnot
  unmarked _ := hmark
  late := h.late
  signalled hlate _ := iff_of_true rfl (h.rests hlate hturn hmark).1
  rests _ ht := absurd hturn' ht

/-- **Turn given up**: a thread that executes goes into its wait. -/
theorem Live.wait (h : c.Live resumed turn i) (hphase : c.phase = .task)
    (hzero : c.suspendCount = 0) (hturn' : ¬ turn') :
    Live resumed turn' i { c with phase := .waits i } where
  phase := .inr rfl
  count := h.count
  early := h.early
  unmarked ht := absurd ht hturn'
  late _ := rfl
  signalled _ hor := by
    obtain ⟨-, -, hmark⟩ := h.of_count hzero
    rcases hor with ht | hmarked
    · exact absurd ht hturn'
    · exact absurd (hmark.symm.trans hmarked) (by simp)
  rests hlate _ hmark := by
    have hsignalled := h.signalled hlate (.inl (h.turn_of_executes hphase hzero))
    refine ⟨rfl, ?_⟩
    rw [hphase] at hsignalled
    simpa using hsignalled

/-- **The end of a wait.** -/
theorem Live.wake (h : c.Live resumed turn i) (hzero : c.suspendCount = 0)
    (hevent : c.event = true) : Live resumed turn i { c with phase := .task, event := false } := by
  obtain ⟨-, hlate, hmark⟩ := h.of_count hzero
  have hturn : turn := by
    by_contra hturn
    obtain ⟨-, hnot⟩ := h.rests hlate hturn hmark
    exact absurd (hnot.symm.trans hevent) (by simp)
  exact
    { phase := .inl rfl
      count := h.count
      early := h.early
      unmarked := h.unmarked
      late := fun e => absurd (hlate.symm.trans e) (by simp)
      signalled := fun _ _ => by simp
      rests := fun _ ht => absurd hturn ht }

/-- **The start**: a thread that was created suspended goes into its wait. -/
theorem Live.start {resumed' : Prop} (h : c.Live resumed turn i) (hnot : ¬ resumed)
    (hresumed : resumed') : Live resumed' turn i (resumeThread c) := by
  obtain ⟨hlate, hmark⟩ := h.early hnot
  exact
    { phase := h.phase
      count := by
        rcases h.count with ⟨-, hs⟩ | ⟨hone, -⟩
        · exact absurd hs hnot
        · exact .inl ⟨by simp [resumeThread, hone, hlate, hmark], hresumed⟩
      early := fun hno => absurd hresumed hno
      unmarked := fun _ => hmark
      late := h.late
      signalled := h.signalled
      rests := h.rests }

/-- A thread whose turn neither comes nor goes. -/
theorem Ok.congr (h : c.Ok resumed turn i) (hturn : turn' ↔ turn) : c.Ok resumed turn' i := by
  rw [propext hturn]
  exact h

end Context

/-! ## All threads -/

/-- What holds between the steps. -/
structure Inv (s : State) : Prop where
  ok : ∀ i, (s.taskContexts i).Ok (s.resumed = true) (s.runningCtx = some i) i
  /-- The context of the current task is in use. -/
  current : ∀ i, s.currentTcb = some (some i) → (s.taskContexts i).inUse = true
  stopped : s.startPc = .before → s.schedulerRunning = false
  /-- Until the start is through nobody has a turn. -/
  waiting : s.startPc ≠ .waiting → s.runningCtx = none
  unmarked : s.startPc ≠ .waiting → ∀ i, (s.taskContexts i).isSuspendedByTick = false

namespace Inv

variable {s : State} {i j : CtxId}

theorem live (h : Inv s) (hi : (s.taskContexts i).inUse = true) :
    (s.taskContexts i).Live (s.resumed = true) (s.runningCtx = some i) i :=
  (h.ok i).live hi

theorem resumed_of_waiting (h : s.startPc = .waiting) : s.resumed = true := by
  rw [State.resumed, h]

/-- A step that is not the start's finds it through, or the scheduler not running. -/
theorem waiting_of_running (h : Inv s) (hrun : s.schedulerRunning = true) {e : Event}
    (he : e.Undisturbed s) (hresume : e ≠ .resumeAll) (hsignal : e ≠ .signalFirst) :
    s.startPc = .waiting := by
  rw [Event.Undisturbed] at he
  cases hpc : s.startPc with
  | before => exact absurd ((h.stopped hpc).symm.trans hrun) (by simp)
  | resuming =>
    rw [hpc] at he
    exact absurd he hresume
  | signalling =>
    rw [hpc] at he
    exact absurd he hsignal
  | waiting => rfl

theorem waiting_of_turn (h : Inv s) (hturn : s.runningCtx = some i) : s.startPc = .waiting := by
  by_contra hne
  exact absurd ((h.waiting hne).symm.trans hturn) (by simp)

theorem inUse_of_executes (h : Inv s) (hi : s.Executes i) : (s.taskContexts i).inUse = true :=
  (h.ok i).inUse (by rw [hi.1]; simp)

/-- **Only the thread whose turn it is executes.** -/
theorem runningCtx_of_executes (h : Inv s) (hi : s.Executes i) : s.runningCtx = some i :=
  (h.live (h.inUse_of_executes hi)).turn_of_executes hi.1 hi.2

theorem init : Inv State.init where
  ok i := ⟨fun hi => absurd hi (by simp [State.init]), fun _ => rfl⟩
  current i hi := absurd hi (by simp [State.init])
  stopped _ := rfl
  waiting _ := rfl
  unmarked _ _ := rfl

/-- The others keep what they have when one context changes and the turn with it. -/
theorem of_modify {s' : State} (h : Inv s) (hresumed : s'.resumed = s.resumed)
    (hsame : ∀ j, j ≠ i → s'.taskContexts j = s.taskContexts j)
    (hturn : ∀ j, j ≠ i → (s'.runningCtx = some j ↔ s.runningCtx = some j))
    (hok : (s'.taskContexts i).Ok (s.resumed = true) (s'.runningCtx = some i) i) (j : CtxId) :
    (s'.taskContexts j).Ok (s'.resumed = true) (s'.runningCtx = some j) j := by
  rw [hresumed]
  by_cases hj : j = i
  · rw [hj]
    exact hok
  · rw [hsame j hj]
    exact (h.ok j).congr (hturn j hj)

theorem createHook (h : Inv s) (i : CtxId) : Inv (createHook s i) where
  ok := by
    refine h.of_modify rfl (fun j hj => s.modify_of_ne i _ hj) (fun _ _ => Iff.rfl) ?_
    rw [WindowsPort.createHook, State.modify_same]
    refine ⟨fun _ => ?_, fun hno => absurd hno (by simp)⟩
    exact
      { phase := .inr rfl
        count := by cases s.resumed <;> simp
        early := fun hnot => ⟨by simpa using hnot, rfl⟩
        unmarked := fun _ => rfl
        late := fun _ => rfl
        signalled := fun hlate hor => by
          -- before the start nobody has a turn
          have hnone : s.runningCtx = none := h.waiting fun hpc => by
            rw [resumed_of_waiting hpc] at hlate
            exact absurd hlate (by simp)
          rcases hor with hturn | hmark
          · rw [State.modify_runningCtx, hnone] at hturn
            exact absurd hturn (by simp)
          · exact absurd hmark (by simp)
        rests := fun _ _ _ => ⟨rfl, rfl⟩ }
  current j hj := by
    by_cases hji : j = i
    · rw [hji, WindowsPort.createHook, State.modify_same]
    · rw [WindowsPort.createHook, s.modify_of_ne i _ hji]
      exact h.current j hj
  stopped := h.stopped
  waiting := h.waiting
  unmarked hpc j := by
    by_cases hji : j = i
    · rw [hji, WindowsPort.createHook, State.modify_same]
    · rw [WindowsPort.createHook, s.modify_of_ne i _ hji]
      exact h.unmarked hpc j

theorem deleteHook (h : Inv s) (caller : Option CtxId) (i : CtxId) :
    Inv (deleteHook s caller i) where
  ok := by
    have hsame : ∀ j, j ≠ i →
        (WindowsPort.deleteHook s caller i).taskContexts j = s.taskContexts j :=
      fun j hj => s.modify_of_ne i (fun c => { c with phase := .terminated, inUse := false }) hj
    refine h.of_modify rfl hsame (fun _ _ => Iff.rfl) ?_
    have hgone : ((WindowsPort.deleteHook s caller i).taskContexts i).inUse = false ∧
        ((WindowsPort.deleteHook s caller i).taskContexts i).phase = .terminated := by
      simp [WindowsPort.deleteHook]
    exact ⟨fun hi => absurd (hgone.1.symm.trans hi) (by simp), fun _ => hgone.2⟩
  current j hj := by
    have hne : s.currentTcb = some (some j) ∧ j ≠ i := by
      rw [WindowsPort.deleteHook] at hj
      dsimp only at hj
      split_ifs at hj with hcur
      · exact absurd hj (by simp)
      · refine ⟨hj, ?_⟩
        rintro rfl
        exact hcur hj
    rw [WindowsPort.deleteHook]
    dsimp only
    rw [s.modify_of_ne i _ hne.2]
    exact h.current j hne.1
  stopped := h.stopped
  waiting := h.waiting
  unmarked hpc j := by
    have hmark := h.unmarked hpc j
    by_cases hji : j = i
    · subst hji
      simpa [WindowsPort.deleteHook] using hmark
    · rw [WindowsPort.deleteHook]
      dsimp only
      rwa [s.modify_of_ne i _ hji]

/-- **The turn is passed.**  The thread whose turn it was is left as one without a turn, the next
one is given its turn, and the others stay as they are. -/
theorem pass {s' : State} {next : Option CtxId} (h : Inv s) (hpc : s.startPc = .waiting)
    (hcur : s.currentTcb = some next) (hpc' : s'.startPc = s.startPc)
    (hcur' : s'.currentTcb = s.currentTcb) (hnext : s'.runningCtx = next)
    (hleft : ∀ p, s.runningCtx = some p → next ≠ some p → (s'.taskContexts p).Ok True False p)
    (hgiven : ∀ n, next = some n → s.runningCtx ≠ some n →
      s'.taskContexts n = (dispatch s n).taskContexts n)
    (hsame : ∀ j, s.runningCtx ≠ some j → next ≠ some j → s'.taskContexts j = s.taskContexts j)
    (hne : next ≠ s.runningCtx) : Inv s' := by
  have hresumed := resumed_of_waiting hpc
  have hresumed' := resumed_of_waiting (hpc'.trans hpc)
  have hlive : ∀ n, next = some n → ((dispatch s n).taskContexts n).Live True True n ∧
      ((dispatch s n).taskContexts n).inUse = true := by
    rintro n rfl
    have huse := h.current n hcur
    have hn := h.live huse
    simp only [hresumed, hne.symm] at hn
    rw [dispatch, State.modify_same]
    split_ifs with hmark
    · exact ⟨hn.resume trivial hmark trivial, huse⟩
    · exact ⟨hn.signal trivial id (by simpa using hmark) trivial, huse⟩
  refine ⟨fun j => ?_, fun j hj => ?_, fun hno => ?_, fun hno => ?_, fun hno => ?_⟩
  · rw [hresumed', hnext]
    by_cases hj : next = some j
    · rw [hgiven j hj (fun e => hne (hj.trans e.symm))]
      obtain ⟨hgive, huse⟩ := hlive j hj
      simp only [hj]
      exact ⟨fun _ => hgive, fun hno => absurd (hno.symm.trans huse) (by simp)⟩
    · simp only [hj]
      by_cases hp : s.runningCtx = some j
      · exact hleft j hp hj
      · rw [hsame j hp hj]
        have hok := h.ok j
        simp only [hp, hresumed] at hok
        exact hok
  · have hn : next = some j := Option.some_inj.1 (hcur.symm.trans (hcur' ▸ hj))
    rw [hgiven j hn fun e => hne (hn.trans e.symm)]
    exact (hlive j hn).2
  · rw [hpc', hpc] at hno
    exact absurd hno (by simp)
  · exact absurd (hpc'.trans hpc) hno
  · exact absurd (hpc'.trans hpc) hno

/-- The thread whose turn it was is suspended. -/
theorem suspended (h : Inv s) {p : CtxId} (hp : s.runningCtx = some p) :
    ((suspendByTick s p).taskContexts p).Ok True False p := by
  have hok := h.ok p
  have hresumed := resumed_of_waiting (h.waiting_of_turn hp)
  simp only [hp, hresumed] at hok
  rw [suspendByTick, State.modify_same]
  split_ifs with huse
  · exact ⟨fun _ => (hok.live huse).suspend trivial trivial id,
      fun hno => absurd (hno.symm.trans huse) (by simp)⟩
  · exact ⟨fun hi => absurd hi huse, hok.gone⟩

theorem yieldTick (h : Inv s) (he : Event.yieldTick.Undisturbed s) : Inv (yieldTick s) := by
  rw [WindowsPort.yieldTick]
  split_ifs with hrun
  · have hpc := h.waiting_of_running hrun he (by simp) (by simp)
    cases hcur : s.currentTcb with
    | none => exact h
    | some ctx =>
      cases ctx with
      | none => exact h
      | some next =>
        dsimp only
        split_ifs with hsame
        · exact h
        · cases hprev : s.runningCtx with
          | none =>
            refine h.pass hpc hcur rfl hcur.symm rfl (fun p hp => ?_) ?_ ?_ (Ne.symm hsame)
            · exact absurd (hprev.symm.trans hp) (by simp)
            · rintro n ⟨⟩ -
              rfl
            · intro j _ hj
              exact State.modify_of_ne _ _ _ fun e => hj (by rw [e])
          | some prev =>
            dsimp only
            have hne : next ≠ prev := fun e => hsame (by rw [hprev, e])
            refine h.pass hpc hcur rfl hcur.symm rfl (fun p hp _ => ?_) ?_ ?_ (Ne.symm hsame)
            · obtain rfl := Option.some_inj.1 (hprev.symm.trans hp)
              rw [dispatch, State.modify_of_ne _ _ _ (Ne.symm hne)]
              exact h.suspended hp
            · rintro n ⟨⟩ -
              rw [dispatch, dispatch, State.modify_same, State.modify_same, suspendByTick,
                State.modify_of_ne _ _ _ hne]
            · intro j hj hj'
              have hjn : j ≠ next := fun e => hj' (by rw [e])
              have hjp : j ≠ prev := fun e => hj (by rw [hprev, e])
              rw [dispatch, State.modify_of_ne _ _ _ hjn, suspendByTick,
                State.modify_of_ne _ _ _ hjp]
  · exact h

theorem yieldTask (h : Inv s) (hi : s.Executes i) : Inv (yieldTask s i) := by
  have hprev := h.runningCtx_of_executes hi
  have hlive := h.live (h.inUse_of_executes hi)
  rw [WindowsPort.yieldTask]
  split_ifs with hrun
  · have hpc := h.waiting_of_turn hprev
    have hresumed := resumed_of_waiting hpc
    rw [hprev] at hlive ⊢
    cases hcur : s.currentTcb with
    | none => exact h
    | some next =>
      dsimp only
      split_ifs with hsame
      · exact h
      · -- the caller is left in a wait on its own event
        have hwait : Context.Ok True False i
            { s.taskContexts i with phase := .waits i } := by
          refine ⟨fun _ => ?_, fun hno => ?_⟩
          · simp only [hresumed] at hlive
            exact hlive.wait hi.1 hi.2 id
          · exact absurd (hno.symm.trans (h.inUse_of_executes hi)) (by simp)
        cases next with
        | none =>
          refine h.pass hpc hcur rfl hcur.symm rfl (fun p hp _ => ?_) ?_ ?_ (by rwa [hprev])
          · obtain rfl := Option.some_inj.1 (hprev.symm.trans hp)
            rw [State.modify_same]
            exact hwait
          · exact fun n hn => absurd hn (by simp)
          · intro j hj _
            exact State.modify_of_ne _ _ _ fun e => hj (by rw [hprev, e])
        | some n =>
          dsimp only
          have hne : n ≠ i := fun e => hsame (by rw [e])
          refine h.pass hpc hcur rfl hcur.symm rfl (fun p hp _ => ?_) ?_ ?_ (by rwa [hprev])
          · obtain rfl := Option.some_inj.1 (hprev.symm.trans hp)
            rw [State.modify_same, dispatch, State.modify_of_ne _ _ _ (Ne.symm hne)]
            exact hwait
          · rintro m ⟨⟩ -
            rw [State.modify_of_ne _ _ _ hne, dispatch, dispatch, State.modify_same,
              State.modify_same]
          · intro j hj hj'
            have hjn : j ≠ n := fun e => hj' (by rw [e])
            have hji : j ≠ i := fun e => hj (by rw [hprev, e])
            rw [State.modify_of_ne _ _ _ hji, dispatch, State.modify_of_ne _ _ _ hjn]
  · exact h

theorem wake (h : Inv s) (hi : s.CanWake i) : Inv (wake s i) := by
  obtain ⟨hzero, p, hp, hevent⟩ := hi
  have huse : (s.taskContexts i).inUse = true := (h.ok i).inUse (by rw [hp]; simp)
  have hlive := h.live huse
  have hpi : p = i := by
    rcases hlive.phase with htask | hwaits
    · exact absurd (htask.symm.trans hp) (by simp)
    · simpa using hp.symm.trans hwaits
  subst hpi
  have hself : ∀ j, (WindowsPort.wake s p).taskContexts j =
      if j = p then { s.taskContexts p with phase := .task, event := false }
      else s.taskContexts j := by
    intro j
    rw [WindowsPort.wake, hp]
    dsimp only
    split_ifs with hj
    · rw [hj, State.modify_same, State.modify_same]
    · rw [State.modify_of_ne _ _ _ hj, State.modify_of_ne _ _ _ hj]
  have hrest : (WindowsPort.wake s p).startPc = s.startPc ∧
      (WindowsPort.wake s p).runningCtx = s.runningCtx ∧
      (WindowsPort.wake s p).currentTcb = s.currentTcb ∧
      (WindowsPort.wake s p).schedulerRunning = s.schedulerRunning := by
    rw [WindowsPort.wake, hp]
    exact ⟨rfl, rfl, rfl, rfl⟩
  obtain ⟨hpc, hrunning, hcur, hsched⟩ := hrest
  refine ⟨?_, fun j hj => ?_, fun hno => ?_, fun hno => ?_, fun hno j => ?_⟩
  · refine h.of_modify (i := p) (by rw [State.resumed, State.resumed, hpc])
      (fun j hj => by rw [hself, if_neg hj]) (fun j _ => by rw [hrunning]) ?_
    rw [hself, if_pos rfl, hrunning]
    exact ⟨fun _ => hlive.wake hzero hevent, fun hno => absurd (hno.symm.trans huse) (by simp)⟩
  · rw [hself]
    split_ifs with hjp
    · exact huse
    · exact h.current j (hcur ▸ hj)
  · rw [hsched]
    exact h.stopped (hpc ▸ hno)
  · rw [hrunning]
    exact h.waiting (hpc ▸ hno)
  · rw [hself]
    split_ifs
    · exact h.unmarked (hpc ▸ hno) p
    · exact h.unmarked (hpc ▸ hno) j

theorem createTickThread (h : Inv s) (hpc : s.startPc = .before) :
    Inv (createTickThread s) := by
  have hresumed : (WindowsPort.createTickThread s).resumed = s.resumed := by
    rw [State.resumed, State.resumed, hpc]
    rfl
  have hbefore : s.startPc ≠ .waiting := by simp [hpc]
  exact ⟨fun j => hresumed ▸ h.ok j, h.current, fun hno => absurd hno (by simp
    [WindowsPort.createTickThread]), fun _ => h.waiting hbefore, fun _ => h.unmarked hbefore⟩

theorem resumeAll (h : Inv s) (hpc : s.startPc = .resuming) : Inv (resumeAll s) := by
  have hbefore : s.startPc ≠ .waiting := by simp [hpc]
  have hnot : ¬ s.resumed = true := by simp [State.resumed, hpc]
  refine ⟨fun j => ?_, fun j hj => ?_, fun hno => absurd hno (by simp [WindowsPort.resumeAll]),
    fun _ => h.waiting hbefore, fun _ j => ?_⟩
  · rw [WindowsPort.resumeAll]
    dsimp only
    split_ifs with huse
    · exact ⟨fun _ => (h.live huse).start hnot rfl,
        fun hno => absurd (hno.symm.trans huse) (by simp)⟩
    · exact ⟨fun hi => absurd hi huse, (h.ok j).gone⟩
  · rw [WindowsPort.resumeAll]
    dsimp only
    rw [if_pos (h.current j hj)]
    exact h.current j hj
  · have hmark := h.unmarked hbefore j
    rw [WindowsPort.resumeAll]
    dsimp only
    split_ifs <;> exact hmark

/-- The first task is signalled: nobody had a turn, and no thread is marked. -/
theorem signalFirst (h : Inv s) (hpc : s.startPc = .signalling) : Inv (signalFirst s) := by
  have hbefore : s.startPc ≠ .waiting := by simp [hpc]
  have hnone := h.waiting hbefore
  have hunmarked := h.unmarked hbefore
  have hwaiting : Inv { s with startPc := .waiting } :=
    ⟨fun j => by
      have hok := h.ok j
      rwa [State.resumed, hpc] at hok, h.current, fun hno => absurd hno (by simp),
      fun _ => hnone, fun _ => hunmarked⟩
  have hpc' : ({ s with startPc := .waiting } : State).startPc = .waiting := rfl
  have hnone' : ({ s with startPc := .waiting } : State).runningCtx = none := hnone
  have hunmarked' : ∀ i,
      (({ s with startPc := .waiting } : State).taskContexts i).isSuspendedByTick = false :=
    hunmarked
  rw [WindowsPort.signalFirst]
  generalize ({ s with startPc := .waiting } : State) = r at hwaiting hpc' hnone' hunmarked' ⊢
  cases hcur : r.currentTcb with
  | none => exact hwaiting
  | some ctx =>
    cases ctx with
    | none =>
      have hok : ∀ j, (r.taskContexts j).Ok (r.resumed = true) (none = some j) j :=
        fun j => hnone' ▸ hwaiting.ok j
      dsimp only
      exact ⟨hok, hcur ▸ hwaiting.current, hwaiting.stopped, fun _ => rfl, fun _ => hunmarked'⟩
    | some i =>
      refine hwaiting.pass hpc' hcur rfl rfl rfl (fun p hp => ?_) ?_ ?_ (by rw [hnone']; simp)
      · exact absurd (hnone'.symm.trans hp) (by simp)
      · rintro n ⟨⟩ -
        simp only [dispatch, State.modify_same, hunmarked', Bool.false_eq_true, if_false]
      · intro j _ hj
        have hji : j ≠ i := fun e => hj (by rw [e])
        dsimp only
        rw [State.modify_of_ne _ _ _ hji]

/-- **Every step keeps it.** -/
theorem step (h : Inv s) {e : Event} (he : e.Allowed s) (hquiet : e.Undisturbed s) :
    Inv (e.run s) := by
  cases e with
  | create i => exact h.createHook i
  | delete caller i => exact h.deleteHook caller i
  | select ctx =>
    exact ⟨h.ok, fun i hi => he.2 i (Option.some_inj.1 hi), h.stopped, h.waiting, h.unmarked⟩
  | createTickThread =>
    rcases he with hpc | ⟨hpc, -⟩
    · exact h.createTickThread hpc
    · rw [Event.Undisturbed, hpc] at hquiet
      exact absurd rfl hquiet
  | resumeAll => exact h.resumeAll he
  | signalFirst => exact h.signalFirst he
  | yieldTask i => exact h.yieldTask he.2
  | yieldTick => exact h.yieldTick hquiet
  | wake i => exact h.wake he
  | stop => exact ⟨h.ok, h.current, fun _ => rfl, h.waiting, h.unmarked⟩

/-- The thread whose turn it is can go on, unless it was created after the start. -/
theorem canGoOn_iff (h : Inv s) (hturn : s.runningCtx = some i)
    (huse : (s.taskContexts i).inUse = true) :
    s.Executes i ∨ s.CanWake i ↔ (s.taskContexts i).late = false := by
  have hlive := h.live huse
  have hresumed := resumed_of_waiting (h.waiting_of_turn hturn)
  constructor
  · rintro (⟨-, hzero⟩ | ⟨hzero, -⟩)
    · exact (hlive.of_count hzero).2.1
    · exact (hlive.of_count hzero).2.1
  · intro hlate
    have hzero : (s.taskContexts i).suspendCount = 0 := by
      rcases hlive.count with ⟨hcount, -⟩ | ⟨-, hno⟩
      · rw [hcount, hlate, hlive.unmarked hturn]
        rfl
      · exact absurd hresumed hno
    rcases hlive.phase with htask | hwaits
    · exact .inl ⟨htask, hzero⟩
    · exact .inr ⟨hzero, i, hwaits, (hlive.signalled hlate (.inl hturn)).2 hwaits⟩

end Inv

variable {s : State} {es : List Event}

/-- **One thread at a time, and it is never stuck.**  In every run with one start, which the tick
thread does not disturb, at most one thread executes code of its task, the one of `s_running_ctx`;
and that thread executes or can leave its wait, exactly if it was created before the start. -/
theorem windows_one_thread_runs (h : Trace Event.QuietStep State.init es s) :
    (∀ i, s.Executes i → s.runningCtx = some i ∧ (s.taskContexts i).late = false) ∧
      (∀ i j, s.Executes i → s.Executes j → i = j) ∧
      ∀ i, s.runningCtx = some i → (s.taskContexts i).inUse = true →
        (s.Executes i ∨ s.CanWake i ↔ (s.taskContexts i).late = false) := by
  have hinv : Inv s := by
    refine h.invariant (fun s e s' hs hstep => ?_) .init
    obtain ⟨⟨he, hquiet⟩, rfl⟩ := hstep
    exact hs.step he hquiet
  refine ⟨fun i hi => ?_, fun i j hi hj => ?_, fun i => hinv.canGoOn_iff⟩
  · have hturn := hinv.runningCtx_of_executes hi
    exact ⟨hturn, (hinv.canGoOn_iff hturn (hinv.inUse_of_executes hi)).1 (.inl hi)⟩
  · exact Option.some_inj.1
      ((hinv.runningCtx_of_executes hi).symm.trans (hinv.runningCtx_of_executes hj))

/-- Two tasks are created and task 0 is started. -/
def startFirst : List Event :=
  [.create 0, .create 1, .select (some 0), .createTickThread, .resumeAll, .signalFirst, .wake 0]

/-- The tick thread gives the processor to task 1 and back; in between task 0 is suspended, and
task 1 has not left its wait when it is suspended in turn. -/
def preemptTwice : List Event :=
  startFirst ++ [.select (some 1), .yieldTick, .select (some 0), .yieldTick, .select (some 1),
    .yieldTask 0]

theorem windows_one_thread_runs_preempted :
    ∃ s, Trace Event.QuietStep State.init preemptTwice s ∧ s.runningCtx = some 1 ∧
      ¬ s.Executes 0 ∧ (s.Executes 1 ∨ s.CanWake 1) := by
  have hrun : Trace Event.QuietStep State.init preemptTwice _ :=
    Trace.of_guards (by decide +kernel)
  obtain ⟨hexec, -, hgo⟩ := windows_one_thread_runs hrun
  have hturn : (preemptTwice.foldl Event.run State.init).runningCtx = some 1 := by decide +kernel
  refine ⟨_, hrun, hturn, fun hzero => ?_, (hgo 1 hturn (by decide +kernel)).2 (by decide +kernel)⟩
  exact absurd (hturn.symm.trans (hexec 0 hzero).1) (by decide)

/-- **A tick during the start.**  The tick thread has signalled task 0, which runs, before the start
does so too: the event stays set, and when task 0 gives up the processor it does not wait. -/
theorem two_run_after_tick :
    ∃ s, Trace Event.Step State.init
        [.create 0, .create 1, .select (some 0), .createTickThread, .resumeAll, .yieldTick, .wake 0,
          .signalFirst, .select (some 1), .yieldTask 0, .wake 0, .wake 1] s ∧
      s.Executes 0 ∧ s.Executes 1 :=
  ⟨_, Trace.of_guards (by decide +kernel), by decide +kernel, by decide +kernel⟩

/-- **A second start.**  Task 0 runs on after the stop, and the start signals task 1. -/
theorem two_run_after_restart :
    ∃ s, Trace Event.Step State.init
        (startFirst ++ [.stop, .select (some 1), .createTickThread, .resumeAll, .signalFirst,
          .wake 1]) s ∧
      s.Executes 0 ∧ s.Executes 1 :=
  ⟨_, Trace.of_guards (by decide +kernel), by decide +kernel, by decide +kernel⟩

end WindowsPort

end Sertos
