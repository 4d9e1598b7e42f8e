import Sertos.RiscV
import Sertos.TaskSections

/-!
# The scheduler lock on the RISC-V port

A run here is made of critical sections, of traps, which can come between any two of them, and of
what the running code does to its stack pointer.  `lock_holds_iff` says exactly when the lock is in
force in such a run: no trap taken under it, and no second start, may disturb the current task.
-/

set_option autoImplicit false

namespace Sertos

open Intrusive Lts Scheduler

/-! ## Sections that leave the processor alone -/

namespace TaskSection

/-- The step can give the processor to another task. -/
def Switches : TaskSection → Prop
  | .atomic (.kernel (.start _)) | .atomic (.kernel .switchContext)
  | .atomic (.kernel .performSwitch) | .atomic (.dispatch _) => True
  | _ => False

instance : DecidablePred Switches
  | .atomic (.kernel (.start _)) | .atomic (.kernel .switchContext)
  | .atomic (.kernel .performSwitch) | .atomic (.dispatch _) => .isTrue trivial
  | .atomic (.kernel (.critical _)) | .atomic (.semTake _ _) | .atomic (.semGive _)
  | .atomic (.semGiveFromIsr _) | .atomic (.mutexLock _ _) | .atomic (.mutexUnlock _)
  | .atomic .enqueue | .atomic .resume | .create _ _ | .suspend _ | .resume _ | .delete _
  | .setPriority _ _ | .deleteMutex _ | .deleteSem _ => .isFalse id

variable {s : Tasks} {a : TaskSection}

/-- The critical sections of the kernel leave `sertos_current_tcb` alone. -/
theorem critical_currentTcb (k : Kernel) (a : Call) : (a.critical k).currentTcb = k.currentTcb := by
  by_cases hc : ∃ config t, a = .create config t
  · obtain ⟨config, t, rfl⟩ := hc
    rcases Task.createStaticSection_cases k config t with ⟨-, e⟩ | ⟨-, e⟩
    · rw [Call.critical, e]
    · rw [Call.critical, e]
      rfl
  · exact (SameAccounts.critical (fun config t e => hc ⟨config, t, e⟩) k).currentTcb

theorem runTask_currentTcb (s : System) (c : TaskId) (a : Atomic) :
    (Atomic.runTask s c a).kernel.currentTcb = s.kernel.currentTcb := by
  have hqueued : ∀ W timeout wait, (Atomic.enqueueOn s c W timeout wait).kernel.currentTcb =
      s.kernel.currentTcb := by
    intro W timeout wait
    rw [Atomic.enqueueOn]
    split
    · rw [System.setPc_kernel, waitListBlockSection_frame]
    · rfl
  have hrestore : ∀ m, (Mutex.restoreOwnerPriority s.kernel (s.mutexes m) c).currentTcb =
      s.kernel.currentTcb := fun m => by rw [Mutex.restoreOwnerPriority_frame]
  cases a with
  | semTake i timeout =>
    simp only [Atomic.runTask, Sem.takeSection]
    split_ifs <;> rfl
  | mutexLock m timeout =>
    have hsection : (Mutex.lockSection s m c timeout).1.kernel.currentTcb =
        s.kernel.currentTcb := by
      cases ho : (s.mutexes m).owner with
      | none =>
        rw [Mutex.lockSection_of_free ho]
        rfl
      | some o =>
        by_cases hoc : o = c
        · subst hoc
          rw [Mutex.lockSection_of_owner ho]
          rfl
        · rw [Mutex.lockSection_of_other ho hoc, Mutex.applyPriorityInheritance_frame]
    simp only [Atomic.runTask]
    split
    · rfl
    · split
      · next e => rwa [e] at hsection
      · next e => rwa [e] at hsection
  | mutexUnlock m =>
    simp only [Atomic.runTask]
    split
    · rfl
    · by_cases hcount : (s.mutexes m).lockCount = 1
      · cases hW : (s.kernel.waitLists (.mutex m)).nodes with
        | nil =>
          rw [Mutex.unlockSection_release hcount hW]
          exact hrestore m
        | cons w rest =>
          rw [Mutex.unlockSection_handOver hcount hW]
          exact (SameAccounts.unblockHighest _ _).currentTcb.trans (hrestore m)
      · rw [Mutex.unlockSection_of_ne_one hcount]
        rfl
  | enqueue =>
    simp only [Atomic.runTask]
    split
    · exact hqueued _ _ _
    · exact hqueued _ _ _
    · rfl
  | resume =>
    simp only [Atomic.runTask]
    split
    · rfl
    · simp only [Mutex.lockResume, Mutex.lockReturn]
      split <;> rfl
    · rfl
  | _ => rfl

/-- All sections but the scheduler's switches leave `sertos_current_tcb` alone. -/
theorem run_currentTcb (ha : ¬ a.Switches) :
    (a.run s).kernel.currentTcb = s.kernel.currentTcb := by
  cases a with
  | atomic a =>
    have hgive : ∀ i, (Sem.giveSection s.system i).1.kernel.currentTcb = s.kernel.currentTcb := by
      intro i
      rcases Sem.giveSection_cases s.system i with ⟨t, rest, -, e⟩ | ⟨-, -, e⟩ | ⟨-, -, e⟩ <;> rw [e]
      · exact (SameAccounts.unblockHighest _ _).currentTcb
      · rfl
      · rfl
    have htask : ∀ b : Atomic, b.ByTask →
        ((TaskSection.atomic b).run s).kernel.currentTcb = s.kernel.currentTcb := by
      intro b hb
      rw [run]
      rcases Atomic.run_byTask s.system hb with ⟨-, e⟩ | ⟨c, -, e⟩
      · rw [e]
      · rw [e]
        exact runTask_currentTcb s.system c b
    cases a with
    | kernel a =>
      cases a with
      | critical a => exact critical_currentTcb s.kernel a
      | _ => exact absurd trivial ha
    | dispatch t => exact absurd trivial ha
    | semGive i =>
      simp only [run, Atomic.run]
      split
      · rfl
      · exact hgive i
    | semGiveFromIsr i =>
      simp only [run, Atomic.run, Sem.giveFromIsr_fst]
      split
      · rfl
      · exact hgive i
    | _ => exact htask _ trivial
  | create config t =>
    simp only [run]
    rcases Task.createStaticSection_cases s.kernel config t with ⟨hne, e⟩ | ⟨-, e⟩
    · rw [e]
      simp only [hne, if_false]
      rfl
    · rw [e]
      rfl
  | suspend t => exact Task.withdraw_currentTcb
  | resume t =>
    rw [run, Tasks.setKernel_kernel, addReady_frame]
  | delete t =>
    rw [run, Tasks.setKernel_kernel, Task.deleteSection, Task.unregisterTask_eq]
    exact Task.withdraw_currentTcb
  | setPriority t p => rw [run, Tasks.setKernel_kernel, Task.setPrioritySection_frame]
  | deleteMutex m =>
    refine unblockAll_induction (motive := fun k => k.currentTcb = s.kernel.currentTcb) (.mutex m) ?_
      fun k e => (SameAccounts.unblockHighest k _).currentTcb.trans e
    show (Mutex.restoreOwner s.kernel (s.system.mutexes m)).currentTcb = _
    rcases Mutex.restoreOwner_cases (k := s.kernel) (s.system.mutexes m) with e | ⟨o, -, -, e⟩ <;>
      rw [e]
    rw [Mutex.changePriority_frame]
  | deleteSem i =>
    exact unblockAll_induction (motive := fun k => k.currentTcb = s.kernel.currentTcb) (.sem i) rfl
      fun k e => (SameAccounts.unblockHighest k _).currentTcb.trans e

end TaskSection

namespace RiscV

/-! ## The machine -/

/-- The kernel with its tasks, the stack pointer, and the `stack_ptr` field of each control
block. -/
structure Machine where
  tasks : Tasks
  sp : BitVec 32
  stackPtr : TaskId → BitVec 32

namespace Machine

def kernel (m : Machine) : Kernel := m.tasks.kernel

/-- Writes the kernel. -/
def setKernel (m : Machine) (k : Kernel) : Machine := { m with tasks := m.tasks.setKernel k }

@[simp] theorem setKernel_kernel (m : Machine) (k : Kernel) : (m.setKernel k).kernel = k := rfl
@[simp] theorem setKernel_sp (m : Machine) (k : Kernel) : (m.setKernel k).sp = m.sp := rfl

end Machine

/-- The trap handler from `do_switch` on.  There is no result if no task has been dispatched: the
handler then loads its stack pointer through a `NULL` pointer. -/
def doSwitch (hasFpu : Bool) (m : Machine) : Option Machine :=
  let stackPtr := match m.kernel.currentTcb with
    | some c => Function.update m.stackPtr c m.sp
    | none => m.stackPtr
  let kernel := performSwitch m.kernel
  match kernel.currentTcb with
  | some n => some ⟨m.tasks.setKernel kernel, stackPtr n + frameSize hasFpu, stackPtr⟩
  | none => none

/-- `sertos_riscv_trap_handler`; exceptions other than an `ecall` end in `trap_fault_loop`. -/
def trapHandler (hasFpu : Bool) (m : Machine) (mcause : BitVec 32) : Option Machine :=
  let m := { m with sp := m.sp - frameSize hasFpu }
  if mcause.msb then
    doSwitch hasFpu (if mcause = timerCause then m.setKernel (timerHandler m.kernel) else m)
  else if mcause = 11 ∨ mcause = 8 then doSwitch hasFpu m
  else none

/-- `sertos_scheduler_start`, which ends in `sertos_port_start_first_task`. -/
def start (hasFpu : Bool) (m : Machine) (tickInit : Status) : Option Machine :=
  let m := m.setKernel (Scheduler.start m.kernel tickInit)
  if tickInit = .ok then
    match m.kernel.currentTcb with
    | some n => some { m with sp := m.stackPtr n + frameSize hasFpu }
    | none => none
  else some m

/-- A critical section; a new task gets its first frame. -/
def runSection (hasFpu : Bool) (m : Machine) (a : TaskSection) : Machine :=
  { m with
    tasks := a.run m.tasks
    stackPtr := match a with
      | .create config t =>
        if (Task.createStaticSection m.kernel config t).2 = .ok then
          Function.update m.stackPtr t (stackInit hasFpu (stackTop config))
        else m.stackPtr
      | _ => m.stackPtr }

/-- One step of the machine. -/
inductive Op
  /-- A critical section. -/
  | critical (a : TaskSection)
  | start (tickInit : Status)
  /-- `sertos_scheduler_switch_context` up to its `ecall`. -/
  | switchContext
  /-- The running code moves its stack pointer. -/
  | move (sp : BitVec 32)
  | trap (mcause : BitVec 32)
deriving DecidableEq, Repr

namespace Op

/-- The state change of a step, if the code gets to its end. -/
def run (hasFpu : Bool) (m : Machine) : Op → Option Machine
  | .critical a => some (runSection hasFpu m a)
  | .start tickInit => RiscV.start hasFpu m tickInit
  | .switchContext => some (m.setKernel (RiscV.switchContext false m.kernel).1)
  | .move sp => some { m with sp := sp }
  | .trap mcause => trapHandler hasFpu m mcause

/-- The sections that can come next, in order.  Traps come at any time. -/
def Callable (s : Tasks) : Op → Prop
  | .critical a => ¬ a.Switches ∧ a.Allowed s ∧ a.InOrder s
  | _ => True

instance (s : Tasks) : DecidablePred (Callable s)
  | .critical a => inferInstanceAs (Decidable (¬ a.Switches ∧ a.Allowed s ∧ a.InOrder s))
  | .start _ | .switchContext | .move _ | .trap _ => .isTrue trivial

/-- The step can come next, and the code gets to its end. -/
def Allowed (hasFpu : Bool) (m : Machine) (op : Op) : Prop :=
  op.Callable m.tasks ∧ (op.run hasFpu m).isSome

instance (hasFpu : Bool) (m : Machine) : DecidablePred (Allowed hasFpu m) := fun op =>
  inferInstanceAs (Decidable (op.Callable m.tasks ∧ (op.run hasFpu m).isSome))

/-- The state after a step. -/
def next (hasFpu : Bool) (m : Machine) (op : Op) : Machine := (op.run hasFpu m).getD m

/-- The step contains a tick. -/
def Ticks : Op → Prop
  | .critical a => a = .atomic (.kernel (.critical .tick))
  | .trap mcause => mcause = timerCause
  | _ => False

instance : DecidablePred Ticks
  | .critical a => inferInstanceAs (Decidable (a = .atomic (.kernel (.critical .tick))))
  | .trap mcause => inferInstanceAs (Decidable (mcause = timerCause))
  | .start _ | .switchContext | .move _ => .isFalse id

/-- The step is a trap. -/
def IsTrap : Op → Prop
  | .trap _ => True
  | _ => False

/-- The switch at the end of the step finds nothing to do. -/
def Undisturbed (k : Kernel) : Op → Prop
  | .trap mcause => RiscV.Undisturbed k mcause
  | .start tickInit => tickInit = .ok → k.IsNext k.readyNodes
  | _ => True

instance (k : Kernel) : DecidablePred (Undisturbed k)
  | .trap mcause => inferInstanceAs (Decidable (RiscV.Undisturbed k mcause))
  | .start tickInit => inferInstanceAs (Decidable (tickInit = .ok → k.IsNext k.readyNodes))
  | .critical _ | .switchContext | .move _ => .isTrue trivial

/-- One step of a run. -/
abbrev Step (hasFpu : Bool) : Machine → Op → Machine → Prop :=
  Guarded (Allowed hasFpu) (next hasFpu)

end Op

/-- Under the lock the current task stays, and a trap goes back to where it was taken. -/
def LockHolds (m : Machine) (op : Op) (m' : Machine) : Prop :=
  0 < m.kernel.lockNesting →
    m'.kernel.currentTcb = m.kernel.currentTcb ∧ (op.IsTrap → m'.sp = m.sp)

/-! ## The steps of the machine -/

variable {hasFpu : Bool} {m m' : Machine} {op : Op} {k : Kernel} {mcause : BitVec 32}
  {r : LinkedList TaskId}

/-- The tail of the trap handler is a switch; if the task stays, so does the stack pointer, up to
the frame. -/
theorem doSwitch_spec (h : doSwitch hasFpu m = some m') :
    m'.tasks = m.tasks.setKernel (performSwitch m.kernel) ∧
      (m'.kernel.currentTcb = m.kernel.currentTcb → m'.sp = m.sp + frameSize hasFpu) := by
  simp only [doSwitch] at h
  cases hn : (performSwitch m.kernel).currentTcb with
  | none => simp [hn] at h
  | some n =>
    simp only [hn, Option.some_inj] at h
    subst h
    refine ⟨rfl, fun hc => ?_⟩
    rw [show (Machine.kernel ⟨m.tasks.setKernel (performSwitch m.kernel), _, _⟩)
      = performSwitch m.kernel from rfl, hn] at hc
    simp [← hc]

/-- A trap that ends is a timer interrupt, or a switch only. -/
theorem trapHandler_spec (h : trapHandler hasFpu m mcause = some m') :
    m'.tasks = m.tasks.setKernel (performSwitch (beforeSwitch m.kernel mcause)) ∧
      (m'.kernel.currentTcb = m.kernel.currentTcb → m'.sp = m.sp) := by
  simp only [trapHandler] at h
  split at h
  · split at h
    · next ht =>
      obtain ⟨htasks, hsp⟩ := doSwitch_spec h
      have hcur := beforeSwitch_currentTcb m.kernel mcause
      rw [beforeSwitch, if_pos ht] at hcur ⊢
      exact ⟨htasks, fun hc => (hsp (hc.trans hcur.symm)).trans (BitVec.sub_add_cancel _ _)⟩
    · next ht =>
      obtain ⟨htasks, hsp⟩ := doSwitch_spec h
      rw [beforeSwitch, if_neg ht]
      exact ⟨htasks, fun hc => (hsp hc).trans (BitVec.sub_add_cancel _ _)⟩
  · next hmsb =>
    split at h
    · have ht : mcause ≠ timerCause := fun e => hmsb (by rw [e]; decide)
      obtain ⟨htasks, hsp⟩ := doSwitch_spec h
      rw [beforeSwitch, if_neg ht]
      exact ⟨htasks, fun hc => (hsp hc).trans (BitVec.sub_add_cancel _ _)⟩
    · simp at h

theorem start_spec {tickInit : Status} (h : start hasFpu m tickInit = some m') :
    m'.tasks = m.tasks.setKernel (Scheduler.start m.kernel tickInit) := by
  simp only [start] at h
  split at h
  · split at h
    · rw [← Option.some_inj.1 h]
      rfl
    · simp at h
  · rw [← Option.some_inj.1 h]
    rfl

theorem Op.run_of_step (hs : Op.Step hasFpu m op m') :
    op.Callable m.tasks ∧ op.run hasFpu m = some m' := by
  obtain ⟨⟨hcall, hsome⟩, rfl⟩ := hs
  obtain ⟨m', hm'⟩ := Option.isSome_iff_exists.1 hsome
  exact ⟨hcall, by rw [Op.next, hm', Option.getD_some]⟩

/-- The port's own functions write nothing that the lists depend on. -/
theorem sectioned_sameCore {s : Tasks} (h : s.Sectioned r) (hs : Kernel.SameCore s.kernel k) :
    (s.setKernel k).Sectioned r := by
  have hamong : Kernel.SameCore (s.kernel.among r) (k.among r) :=
    ⟨hs.readyBitmap, hs.stateLists, hs.waitLists, rfl, hs.tcb, hs.currentTcb⟩
  refine ⟨h.toOrdered.setKernel (hamong.inv h.kernel) hs.taskRegistry (fun t _ => by rw [hs.tcb])
    fun t => ?_, h.timed⟩
  exact (Kernel.Spares.of_eq hs.stateLists hs.waitLists hs.currentTcb (by rw [hs.tcb])).lends

/-- **Every step keeps the lists right**, if its tick is harmless. -/
theorem Op.sectioned_step (hs : Op.Step hasFpu m op m') (h : ∃ r, m.tasks.Sectioned r)
    (htick : op.Ticks → m.kernel.HarmlessTick) : ∃ r, m'.tasks.Sectioned r := by
  obtain ⟨ha, hrun⟩ := Op.run_of_step hs
  obtain ⟨r, h⟩ := h
  cases op with
  | critical a =>
    rw [Op.run, Option.some_inj] at hrun
    subst hrun
    exact h.step ⟨ha.2, rfl⟩ htick
  | start tickInit =>
    rw [start_spec hrun]
    exact ⟨r, h.kernelSection (a := .start tickInit) trivial id (by simp)⟩
  | switchContext =>
    rw [Op.run, Option.some_inj] at hrun
    subst hrun
    exact ⟨r, sectioned_sameCore h (sameCore_switchContext false m.kernel)⟩
  | move sp =>
    rw [Op.run, Option.some_inj] at hrun
    subst hrun
    exact ⟨r, h⟩
  | trap mcause =>
    have hbefore : (m.tasks.setKernel (beforeSwitch m.kernel mcause)).Sectioned r := by
      rw [beforeSwitch]
      split
      · next ht =>
        have hsection := h.kernelSection (a := .critical .tick) trivial id fun _ => htick ht
        have htimer : ((m.tasks.setKernel (tickSection m.kernel).1).setKernel
            (timerHandler m.kernel)).Sectioned r :=
          sectioned_sameCore hsection (sameCore_timerHandler m.kernel)
        exact htimer
      · exact h
    rw [(trapHandler_spec hrun).1]
    exact ⟨r, hbefore.kernelSection (a := .performSwitch) trivial id (by simp)⟩

theorem beforeSwitch_among (k : Kernel) (r : LinkedList TaskId) (mcause : BitVec 32) :
    beforeSwitch (k.among r) mcause = (beforeSwitch k mcause).among r := by
  have hswitch : ∀ x : Kernel, switchContext true (x.among r) =
      ((switchContext true x).1.among r, (switchContext true x).2) := by
    intro x
    rw [switchContext, switchContext, Kernel.among_lockNesting, Kernel.selectNextTask_among]
    split
    · rfl
    · split <;> rfl
  simp only [beforeSwitch, timerHandler, tick, Kernel.tickSection_among, hswitch,
    Kernel.among_timeSlicingEnabled]
  split
  · split <;> rfl
  · rfl

/-- **Exactly the undisturbed steps leave the lock in force.** -/
theorem Op.lockHolds_step_iff (hs : Op.Step hasFpu m op m') (h : m.tasks.Sectioned r)
    (htick : op.Ticks → m.kernel.HarmlessTick) :
    LockHolds m op m' ↔ (0 < m.kernel.lockNesting → op.Undisturbed m.kernel) := by
  obtain ⟨ha, hrun⟩ := Op.run_of_step hs
  refine forall_congr' fun _ => ?_
  cases op with
  | critical a =>
    rw [Op.run, Option.some_inj] at hrun
    subst hrun
    exact iff_of_true ⟨TaskSection.run_currentTcb ha.1, False.elim⟩ trivial
  | start tickInit =>
    have hstart : Scheduler.start (m.kernel.among r) tickInit =
        (Scheduler.start m.kernel tickInit).among r :=
      Call.run_among m.kernel r (a := .start tickInit) trivial
    have hiff := currentTcb_start_iff h.kernel tickInit
    rw [show m.tasks.kernel = m.kernel from rfl, hstart] at hiff
    rw [Machine.kernel, start_spec hrun]
    exact (and_iff_left False.elim).trans hiff
  | switchContext =>
    rw [Op.run, Option.some_inj] at hrun
    subst hrun
    exact iff_of_true ⟨(sameCore_switchContext false m.kernel).currentTcb, False.elim⟩ trivial
  | move sp =>
    rw [Op.run, Option.some_inj] at hrun
    subst hrun
    exact iff_of_true ⟨rfl, False.elim⟩ trivial
  | trap mcause =>
    obtain ⟨htasks, hsp⟩ := trapHandler_spec hrun
    have hiff : (performSwitch (beforeSwitch m.kernel mcause)).currentTcb = m.kernel.currentTcb ↔
        RiscV.Undisturbed m.kernel mcause := by
      have hiff := currentTcb_trap_iff h.kernel mcause htick
      rw [beforeSwitch_among, Kernel.performSwitch_among] at hiff
      exact hiff
    have hcur : m'.kernel.currentTcb = (performSwitch (beforeSwitch m.kernel mcause)).currentTcb := by
      rw [Machine.kernel, htasks]
      rfl
    rw [Op.Undisturbed, ← hiff, ← hcur]
    exact ⟨fun hx => hx.1, fun hx => ⟨hx, fun _ => hsp hx⟩⟩

/-! ## Runs -/

/-- **The scheduler lock on the RISC-V port.**  In every run in order whose ticks are harmless, the
lock holds in all steps exactly if every step taken under it is undisturbed. -/
theorem lock_holds_iff {mem : Kernel} {config : Option Config} {idleStack : ℕ}
    {sems : ℕ → Semaphore} (hinit : (initWithConfig mem config idleStack).2 = .ok)
    (hm : m.tasks = Tasks.init (initWithConfig mem config idleStack).1 sems) {ops : List Op}
    (hticks : Trace.AllSteps (Op.Step hasFpu) (fun m op _ => op.Ticks → m.kernel.HarmlessTick) m ops
      m') :
    Trace.AllSteps (Op.Step hasFpu) LockHolds m ops m' ↔
      Trace.AllSteps (Op.Step hasFpu)
        (fun m op _ => 0 < m.kernel.lockNesting → op.Undisturbed m.kernel) m ops m' := by
  have hstart : ∃ r, m.tasks.Sectioned r := ⟨_, hm ▸ Tasks.init_sectioned hinit⟩
  have hinv := hticks.invariant (I := fun m : Machine => ∃ r, m.tasks.Sectioned r)
    (fun m op m' h hs htick => Op.sectioned_step hs h htick) hstart
  constructor
  all_goals
    intro h bs op cs t v hsplit h₁ hs h₂
    obtain ⟨r, ht⟩ := hinv bs (op :: cs) t hsplit h₁ (.cons hs h₂)
    have htick := hticks bs op cs t v hsplit h₁ hs h₂
  · exact (Op.lockHolds_step_iff hs ht htick).1 (h bs op cs t v hsplit h₁ hs h₂)
  · exact (Op.lockHolds_step_iff hs ht htick).2 (h bs op cs t v hsplit h₁ hs h₂)

/-- A machine after the initialisation. -/
def booted : Machine := ⟨Tasks.fresh, 0, fun _ => 0⟩

/-- Two tasks of priority 1 are created and the scheduler is started; the first task locks it. -/
def lockedPair : List Op :=
  [.critical (.create (.ofPriority 1) 1), .critical (.create (.ofPriority 1) 2), .start .ok,
    .critical (.atomic (.kernel (.critical .lock)))]

/-- The same with a single task, interrupted under the lock. -/
def lockedAlone : List Op :=
  [.critical (.create (.ofPriority 1) 1), .start .ok, .critical (.setPriority 0 0),
    .critical (.atomic (.kernel (.critical .lock))), .move 4096, .trap timerCause, .switchContext,
    .trap 11]

/-- A task that is alone at its priority keeps the processor under the lock. -/
theorem lock_holds_alone :
    (lockedAlone.foldl (Op.next true) booted).kernel.lockNesting = 1 ∧
    (lockedAlone.foldl (Op.next true) booted).kernel.currentTcb = some 1 ∧
    (lockedAlone.foldl (Op.next true) booted).sp = 4096 ∧
    Trace.AllSteps (Op.Step true) LockHolds booted lockedAlone
      (lockedAlone.foldl (Op.next true) booted) := by
  refine ⟨by decide +kernel, by decide +kernel, by decide +kernel, ?_⟩
  have hticks : Guards (fun m op => op.Ticks → m.kernel.HarmlessTick) (Op.next true) booted
      lockedAlone := by decide +kernel
  have hquiet : Guards (fun m op => 0 < m.kernel.lockNesting → op.Undisturbed m.kernel)
      (Op.next true) booted lockedAlone := by decide +kernel
  exact (lock_holds_iff (by decide +kernel) rfl (Trace.allSteps_of_guards hticks)).2
    (Trace.allSteps_of_guards hquiet)

/-- **The lock is lost.**  The first timer interrupt under the lock gives the processor to the
second task. -/
theorem lock_lost_to_timer :
    ∃ m m', Trace (Op.Step false) booted lockedPair m ∧ m.kernel.lockNesting = 1 ∧
      m.kernel.currentTcb = some 1 ∧ Op.Step false m (.trap timerCause) m' ∧
      m'.kernel.lockNesting = 1 ∧ m'.kernel.currentTcb = some 2 ∧
      ¬ LockHolds m (.trap timerCause) m' := by
  have htrace : Trace (Op.Step false) booted lockedPair (lockedPair.foldl (Op.next false) booted) :=
    Trace.of_guards (by decide +kernel)
  have hcur : (lockedPair.foldl (Op.next false) booted).kernel.currentTcb = some 1 := by
    decide +kernel
  have hlock : (lockedPair.foldl (Op.next false) booted).kernel.lockNesting = 1 := by decide +kernel
  have hnext : (Op.next false (lockedPair.foldl (Op.next false) booted)
      (.trap timerCause)).kernel.currentTcb = some 2 := by decide +kernel
  refine ⟨_, _, htrace, hlock, hcur, ⟨by decide +kernel, rfl⟩, by decide +kernel, hnext,
    fun h => ?_⟩
  have hstay := (h (by rw [hlock]; exact Nat.one_pos)).1
  rw [hnext, hcur] at hstay
  exact absurd hstay (by decide)

end RiscV

end Sertos
