import Sertos.Deletion
import Sertos.StreamDeletion
import Sertos.Representation
import Sertos.LinkedRuns

/-!
# Semaphores, a queue and a stream buffer on one scheduler

The functions of these objects reach the lists of the scheduler through three of its calls only:
they block the caller on a wait list, take tasks off one, and reschedule.  `Acts` is what such calls
can make of a kernel, and there is one lemma for each function that says that it acts.

So a run of a system with any number of semaphores, a queue and a stream buffer is, for the kernel,
a run of calls, in which the application's own calls come in the order in which it makes them
(`objects_act_by_calls`).  What is known of such runs holds for it: the representation invariant, and
that the functions on links build these lists (`Sertos.LinkedRuns`).

Mutexes are not here: they change priorities, and move tasks between the lists themselves.
-/

set_option autoImplicit false

namespace Sertos

open Intrusive Circular Lts Scheduler

/-! ## The calls of the objects -/

/-- The call is one of those that the objects make. -/
def Call.OfObject : Call → Prop
  | .block _ _ | .unblock _ | .reschedule => True
  | _ => False

instance : DecidablePred Call.OfObject
  | .block _ _ | .unblock _ | .reschedule => .isTrue trivial
  | .create _ _ | .start _ | .tick | .yield | .delay _ | .lock | .unlock => .isFalse id

/-- Calls of the objects lead from `k` to `k'`. -/
def Acts (k k' : Kernel) : Prop :=
  ∃ calls : List Call, (∀ a ∈ calls, a.OfObject) ∧ Trace Call.ProperStep k calls k'

/-- The current task may be made to wait. -/
def MayWait (k : Kernel) : Prop := k.lockNesting = 0 ∧ k.currentTcb ≠ some idleTcb

instance (k : Kernel) : Decidable (MayWait k) := inferInstanceAs (Decidable (_ ∧ _))

namespace Acts

variable {k k' k'' : Kernel} {W : WaitList}

theorem refl (k : Kernel) : Acts k k := ⟨[], by simp, .nil k⟩

theorem trans (h : Acts k k') (h' : Acts k' k'') : Acts k k'' := by
  obtain ⟨calls, hcalls, htrace⟩ := h
  obtain ⟨calls', hcalls', htrace'⟩ := h'
  refine ⟨calls ++ calls', fun a ha => ?_, htrace.append htrace'⟩
  rcases List.mem_append.1 ha with ha | ha
  · exact hcalls a ha
  · exact hcalls' a ha

theorem single {a : Call} (ha : a.OfObject) (hproper : a.Proper k) : Acts k (a.run k) :=
  ⟨[a], fun b hb => by rwa [List.mem_singleton.1 hb], .single ⟨hproper, rfl⟩⟩

theorem unblockHighest (k : Kernel) (W : WaitList) : Acts k (waitListUnblockHighest k W).1 :=
  single (a := .unblock W) trivial ⟨trivial, fun h => h.elim⟩

theorem reschedule (k : Kernel) : Acts k (reschedule k) :=
  single (a := .reschedule) trivial ⟨trivial, fun h => h.elim⟩

theorem rescheduleIfRunning (k : Kernel) : Acts k (rescheduleIfRunning k) := by
  rw [Scheduler.rescheduleIfRunning]
  split
  · exact reschedule k
  · exact refl k

theorem notifyUnblocked (k : Kernel) (unblocked : Option TaskId) :
    Acts k (notifyUnblocked k unblocked) := by
  rw [Scheduler.notifyUnblocked]
  split
  · exact reschedule k
  · exact refl k

/-- The loop that empties a wait list. -/
theorem unblockAll (k : Kernel) (W : WaitList) : Acts k (unblockAll k W) :=
  unblockAll_induction (motive := Acts k) W (.refl k) fun k' h => h.trans (unblockHighest k' W)

theorem block (hk : MayWait k) (W : WaitList) {timeout : ℕ} (ht : timeout ≠ noWait) :
    Acts k (waitListBlock k W timeout).1 :=
  single (a := .block W timeout) trivial ⟨⟨ht, hk.2⟩, fun _ => hk.1⟩

end Acts

/-! ## Semaphores -/

namespace Sem

variable (s : System) (i : ℕ)

theorem take_acts {timeout : ℕ} (hk : timeout ≠ noWait → MayWait s.kernel) :
    Acts s.kernel (take s i timeout).1.kernel := by
  rw [take, takeSection]
  split_ifs with hmagic hcount hwait
  · exact .refl _
  · exact .refl _
  · exact .refl _
  · exact .block (hk hwait) (.sem i) hwait

theorem giveSection_acts : Acts s.kernel (giveSection s i).1.kernel := by
  have hunblock := Acts.unblockHighest s.kernel (.sem i)
  rw [giveSection]
  rcases hr : waitListUnblockHighest s.kernel (.sem i) with ⟨k, _ | u⟩ <;> rw [hr] at hunblock
  · dsimp only
    split
    · exact .refl _
    · exact .refl _
  · exact hunblock

theorem give_acts : Acts s.kernel (give s i).1.kernel := by
  have hsection := giveSection_acts s i
  rw [give]
  split
  · exact .refl _
  · rcases hr : giveSection s i with ⟨s', status, _ | u⟩ <;> rw [hr] at hsection
    · exact hsection
    · dsimp only
      split_ifs with hrun
      · exact hsection.trans (.reschedule _)
      · exact hsection

theorem giveFromIsr_acts : Acts s.kernel (giveFromIsr s i).1.kernel := by
  have hsection := giveSection_acts s i
  rw [giveFromIsr]
  split
  · exact .refl _
  · rcases hr : giveSection s i with ⟨s', status, _ | u⟩ <;> rw [hr] at hsection <;> exact hsection

theorem delete_acts : Acts s.kernel (delete s i).1.kernel := by
  rw [delete]
  split
  · exact .refl _
  · exact (Acts.unblockAll s.kernel (.sem i)).trans (.rescheduleIfRunning _)

end Sem

/-! ## The queue -/

namespace QueueSystem

variable (s : QueueSystem)

/-- The wake-up of the other side. -/
theorem wake_acts (k : Kernel) (W : WaitList) :
    Acts k (notifyUnblocked (waitListUnblockHighest k W).1 (waitListUnblockHighest k W).2) :=
  (Acts.unblockHighest k W).trans (.notifyUnblocked _ _)

theorem attempt_acts {a : QueueCall} {s' : QueueSystem} {item : Option (List UInt8)}
    (h : s.attempt a = some (s', item)) : Acts s.kernel s'.kernel := by
  cases a with
  | send x timeout =>
    rw [attempt] at h
    split at h
    · exact absurd h (by simp)
    · obtain ⟨rfl, -⟩ := Prod.mk.inj (Option.some_inj.1 h)
      exact wake_acts s.kernel Queue.waitRecv
  | receive timeout =>
    rw [attempt] at h
    split at h
    · exact absurd h (by simp)
    · obtain ⟨rfl, -⟩ := Prod.mk.inj (Option.some_inj.1 h)
      exact wake_acts s.kernel Queue.waitSend
  | peek timeout =>
    rw [attempt] at h
    split at h
    · exact absurd h (by simp)
    · obtain ⟨rfl, -⟩ := Prod.mk.inj (Option.some_inj.1 h)
      exact .refl _

theorem proceed_acts {a : QueueCall} (hk : a.timeout ≠ noWait → MayWait s.kernel) :
    Acts s.kernel (s.proceed a).1.kernel := by
  rw [proceed]
  split
  · rename_i hattempt
    exact s.attempt_acts hattempt
  · split_ifs with hwait
    · exact .refl _
    · split
      · exact .block (hk hwait) a.waitList hwait
      · exact .refl _

theorem enter_acts {a : QueueCall} (hk : a.timeout ≠ noWait → MayWait s.kernel) :
    Acts s.kernel (s.enter a).1.kernel := by
  rw [enter]
  split
  · exact .refl _
  · exact s.proceed_acts hk

theorem resume_acts (hk : MayWait s.kernel) (c : TaskId) (a : QueueCall) :
    Acts s.kernel (s.resume c a).1.kernel := by
  simp only [resume]
  split
  · exact .refl _
  · exact (s.setCall c none).proceed_acts fun _ => hk

theorem sendFromIsr_acts (item : List UInt8) : Acts s.kernel (s.sendFromIsr item).1.kernel := by
  rw [sendFromIsr]
  split
  · exact .refl _
  · split
    · exact .refl _
    · exact .unblockHighest _ _

theorem receiveFromIsr_acts : Acts s.kernel s.receiveFromIsr.1.kernel := by
  rw [receiveFromIsr]
  split
  · exact .refl _
  · split
    · exact .refl _
    · exact .unblockHighest _ _

theorem reset_acts : Acts s.kernel s.reset.1.kernel := by
  rw [reset]
  split <;> exact .refl _

theorem delete_acts : Acts s.kernel s.delete.1.kernel := by
  rw [delete]
  split
  · exact .refl _
  · exact ((Acts.unblockAll _ _).trans (.unblockAll _ _)).trans (.rescheduleIfRunning _)

end QueueSystem

/-! ## The stream buffer -/

namespace StreamSystem

variable (s : StreamSystem)

theorem wakeReceiver_acts (due : Bool) : Acts s.kernel (s.wakeReceiver due).1.kernel := by
  rw [wakeReceiver]
  split
  · exact .unblockHighest _ _
  · exact .refl _

theorem wakeSender_acts (bytes : ℕ) : Acts s.kernel (s.wakeSender bytes).1.kernel := by
  rw [wakeSender]
  split
  · exact .unblockHighest _ _
  · exact .refl _

theorem sendData_acts (data : List UInt8) : Acts s.kernel (s.sendData data).1.kernel :=
  ((s.write data).1.wakeReceiver_acts true).trans (.notifyUnblocked _ _)

theorem receiveData_acts (n : ℕ) : Acts s.kernel (s.receiveData n).1.kernel :=
  ((s.read n).1.wakeSender_acts (s.read n).2.length).trans (.notifyUnblocked _ _)

theorem proceed_acts {a : StreamCall} (hk : a.timeout ≠ noWait → MayWait s.kernel) :
    Acts s.kernel (s.proceed a).1.kernel := by
  cases a with
  | send data timeout =>
    rw [proceed]
    split_ifs with hfree hwait
    · exact .refl _
    · split
      · exact .block (hk hwait) _ hwait
      · exact .refl _
    · exact s.sendData_acts data
  | receive n timeout =>
    rw [proceed]
    split_ifs with hcount hwait
    · exact s.receiveData_acts n
    · split
      · exact .block (hk hwait) _ hwait
      · exact s.receiveData_acts n
    · exact s.receiveData_acts n

theorem enter_acts {a : StreamCall} (hk : a.timeout ≠ noWait → MayWait s.kernel) :
    Acts s.kernel (s.enter a).1.kernel := by
  rw [enter]
  split
  · exact s.proceed_acts hk
  · exact .refl _

theorem resume_acts (hk : MayWait s.kernel) (c : TaskId) (a : StreamCall) :
    Acts s.kernel (s.resume c a).1.kernel := by
  cases a with
  | send data timeout =>
    simp only [resume]
    split_ifs
    · exact .refl _
    · exact (s.setCall c none).proceed_acts fun _ => hk
  | receive n timeout =>
    simp only [resume]
    split_ifs
    · exact (s.setCall c none).receiveData_acts n
    · exact (s.setCall c none).proceed_acts fun _ => hk
    · exact .refl _

theorem sendFromIsr_acts (data : List UInt8) : Acts s.kernel (s.sendFromIsr data).1.kernel := by
  rw [sendFromIsr]
  split
  · exact (s.write data).1.wakeReceiver_acts _
  · exact .refl _

theorem receiveFromIsr_acts (n : ℕ) : Acts s.kernel (s.receiveFromIsr n).1.kernel := by
  rw [receiveFromIsr]
  split
  · exact (s.read n).1.wakeSender_acts _
  · exact .refl _

theorem setTriggerLevel_acts (n : ℕ) : Acts s.kernel (s.setTriggerLevel n).1.kernel := by
  rw [setTriggerLevel]
  split_ifs
  · exact .refl _
  · exact (wakeReceiver_acts { s with buffer := { s.buffer with
      triggerLevelBytes := StreamBuffer.atLeastOne n } } true).trans (.notifyUnblocked _ _)
  · exact .refl _

theorem reset_acts : Acts s.kernel s.reset.1.kernel := by
  rw [reset]
  split
  · exact .refl _
  · exact (Acts.unblockAll _ _).trans (.rescheduleIfRunning _)

theorem delete_acts : Acts s.kernel s.delete.1.kernel := by
  rw [delete]
  split
  · exact .refl _
  · exact ((Acts.unblockAll _ _).trans (.unblockAll _ _)).trans (.rescheduleIfRunning _)

end StreamSystem

/-! ## Runs -/

/-- The kernel, semaphores, one queue and one stream buffer. -/
structure Objects extends Ipc where
  buffer : StreamBuffer
  /-- The call of the stream buffer a task is waiting in, if it is. -/
  streamCall : TaskId → Option StreamCall

/-- One step: a call of the scheduler by the application or an interrupt, or a function of an
object, up to its blocking point. -/
inductive ObjectOp
  | call (a : Call)
  | semTake (i timeout : ℕ)
  | semGive (i : ℕ)
  | semGiveFromIsr (i : ℕ)
  | semDelete (i : ℕ)
  | queue (op : QueueOp)
  | queueDelete
  | stream (op : StreamStep)
deriving DecidableEq, Repr

namespace Objects

/-- The part that the functions of the stream buffer work on. -/
def streamSystem (s : Objects) : StreamSystem := ⟨s.system.kernel, s.buffer, s.streamCall⟩

/-- Puts that part back. -/
def setStreamSystem (s : Objects) (r : StreamSystem) : Objects :=
  { s with system := { s.system with kernel := r.kernel }, buffer := r.buffer, streamCall := r.call }

/-- Changes the semaphores. -/
def setSystem (s : Objects) (r : System) : Objects := { s with system := r }

/-- The system after the scheduler has been initialised and the objects have been created. -/
def init (k : Kernel) (sems : ℕ → Semaphore) (x : Queue) (y : StreamBuffer) : Objects :=
  { system := System.init k sems, queue := x, call := fun _ => none, buffer := y,
    streamCall := fun _ => none }

end Objects

namespace ObjectOp

/-- The state change of a step. -/
def run (s : Objects) : ObjectOp → Objects
  | .call a => s.setSystem { s.system with kernel := a.run s.kernel }
  | .semTake i timeout => s.setSystem (Sem.take s.system i timeout).1
  | .semGive i => s.setSystem (Sem.give s.system i).1
  | .semGiveFromIsr i => s.setSystem (Sem.giveFromIsr s.system i).1
  | .semDelete i => s.setSystem (Sem.delete s.system i).1
  | .queue op => { s with toIpc := s.setQueueSystem (op.run s.queueSystem) }
  | .queueDelete => { s with toIpc := s.setQueueSystem s.queueSystem.delete.1 }
  | .stream op => s.setStreamSystem (op.run s.streamSystem)

/-- The steps that can come next.  A step that waits is one of a task that may wait. -/
def Allowed (s : Objects) : ObjectOp → Prop
  | .call a => a.Proper s.kernel
  | .semTake _ timeout => timeout ≠ noWait → MayWait s.kernel
  | .queue (.enter a) => a.timeout ≠ noWait → MayWait s.kernel
  | .stream (.op (.enter a)) => a.timeout ≠ noWait → MayWait s.kernel
  | .queue .resume | .stream (.op .resume) => MayWait s.kernel
  -- the scheduler's own steps are calls here
  | .queue (.kernel _) | .queue (.dispatch _) | .stream (.op (.kernel _))
  | .stream (.op (.dispatch _)) => False
  | _ => True

instance (s : Objects) : DecidablePred (Allowed s)
  | .call a => inferInstanceAs (Decidable (a.Proper s.kernel))
  | .semTake _ timeout => inferInstanceAs (Decidable (timeout ≠ noWait → MayWait s.kernel))
  | .queue (.enter a) => inferInstanceAs (Decidable (a.timeout ≠ noWait → MayWait s.kernel))
  | .stream (.op (.enter a)) => inferInstanceAs (Decidable (a.timeout ≠ noWait → MayWait s.kernel))
  | .queue .resume | .stream (.op .resume) => inferInstanceAs (Decidable (MayWait s.kernel))
  | .queue (.kernel _) | .queue (.dispatch _) | .stream (.op (.kernel _))
  | .stream (.op (.dispatch _)) => .isFalse id
  | .semGive _ | .semGiveFromIsr _ | .semDelete _ | .queue (.sendFromIsr _)
  | .queue .receiveFromIsr | .queue .reset | .queueDelete | .stream (.op (.sendFromIsr _))
  | .stream (.op (.receiveFromIsr _)) | .stream (.op (.setTriggerLevel _)) | .stream (.op .reset)
  | .stream .delete => .isTrue trivial

/-- One step of a run. -/
abbrev Step : Objects → ObjectOp → Objects → Prop := Guarded Allowed run

/-- The call that the application makes of the scheduler. -/
def call? : ObjectOp → Option Call
  | .call a => some a
  | _ => none

variable {s : Objects} {op : ObjectOp}

/-- **Only calls reach the kernel.** -/
theorem run_acts (h : op.Allowed s) (hop : op.call? = none) :
    Acts s.kernel (op.run s).kernel := by
  cases op with
  | call a => exact absurd hop (by simp [call?])
  | semTake i timeout => exact Sem.take_acts s.system i h
  | semGive i => exact Sem.give_acts s.system i
  | semGiveFromIsr i => exact Sem.giveFromIsr_acts s.system i
  | semDelete i => exact Sem.delete_acts s.system i
  | queue op =>
    cases op with
    | kernel a => exact h.elim
    | dispatch t => exact h.elim
    | enter a => exact s.queueSystem.enter_acts h
    | resume =>
      simp only [run, QueueOp.run]
      split
      · split
        · exact s.queueSystem.resume_acts h _ _
        · exact .refl _
      · exact .refl _
    | sendFromIsr item => exact s.queueSystem.sendFromIsr_acts item
    | receiveFromIsr => exact s.queueSystem.receiveFromIsr_acts
    | reset => exact s.queueSystem.reset_acts
  | queueDelete => exact s.queueSystem.delete_acts
  | stream op =>
    cases op with
    | delete => exact s.streamSystem.delete_acts
    | op a =>
      cases a with
      | kernel a => exact h.elim
      | dispatch t => exact h.elim
      | enter a => exact s.streamSystem.enter_acts h
      | resume =>
        simp only [run, StreamStep.run, StreamOp.run]
        split
        · split
          · exact s.streamSystem.resume_acts h _ _
          · exact .refl _
        · exact .refl _
      | sendFromIsr data => exact s.streamSystem.sendFromIsr_acts data
      | receiveFromIsr n => exact s.streamSystem.receiveFromIsr_acts n
      | setTriggerLevel n => exact s.streamSystem.setTriggerLevel_acts n
      | reset => exact s.streamSystem.reset_acts

/-- The calls that are not the objects'. -/
def foreign (calls : List Call) : List Call := calls.filter fun a => ¬ a.OfObject

theorem foreign_append (calls calls' : List Call) :
    foreign (calls ++ calls') = foreign calls ++ foreign calls' :=
  List.filter_append ..

theorem foreign_eq_nil {calls : List Call} (h : ∀ a ∈ calls, a.OfObject) : foreign calls = [] :=
  List.filter_eq_nil_iff.2 fun a ha => by simp [h a ha]

/-- **A run is a run of calls,** among them those of the application, in their order. -/
theorem exists_calls {s s' : Objects} {ops : List ObjectOp} (h : Trace Step s ops s') :
    ∃ calls, Trace Call.ProperStep s.kernel calls s'.kernel ∧
      foreign calls = foreign (ops.filterMap call?) := by
  induction h with
  | nil s => exact ⟨[], .nil _, rfl⟩
  | @cons s u s' op ops hstep _ ih =>
    obtain ⟨hop, rfl⟩ := hstep
    obtain ⟨calls, htrace, hforeign⟩ := ih
    cases hcall : op.call? with
    | none =>
      obtain ⟨acts, hacts, hrun⟩ := run_acts hop hcall
      refine ⟨acts ++ calls, hrun.append htrace, ?_⟩
      rw [List.filterMap_cons_none hcall, foreign_append, foreign_eq_nil hacts, List.nil_append,
        hforeign]
    | some a =>
      obtain rfl : op = .call a := by
        cases op <;> simp [call?] at hcall
        rw [hcall]
      refine ⟨a :: calls, .cons ⟨hop, rfl⟩ htrace, ?_⟩
      rw [List.filterMap_cons_some hcall, ← List.singleton_append, foreign_append, hforeign,
        ← foreign_append, List.singleton_append]

end ObjectOp

/-- **The objects act by calls.**  In every run of the functions of semaphores, a queue and a stream
buffer, with any calls of the scheduler in between, the kernel goes through a run of calls of the
scheduler; the functions on links make it too and their rings spell out the lists of the kernel; and
the representation invariant holds. -/
theorem objects_act_by_calls {L : ListLibrary NodeAddr} {R : ListLibrary RegistryAddr}
    {c : LinkedKernel} {config : Option Config} {idleStack : ℕ} (hL : L.Lawful) (hR : R.Lawful)
    (hc : c.Fresh) (hinit : (initWithConfig c.memory config idleStack).2 = .ok)
    (sems : ℕ → Semaphore) (x : Queue) (y : StreamBuffer) {ops : List ObjectOp} {s : Objects}
    (h : Trace ObjectOp.Step (Objects.init (initWithConfig c.memory config idleStack).1 sems x y)
      ops s) :
    ∃ calls c', Trace Call.ProperStep (initWithConfig c.memory config idleStack).1 calls s.kernel ∧
      ObjectOp.foreign calls = ObjectOp.foreign (ops.filterMap ObjectOp.call?) ∧
      (∀ n, s.kernel.taskRegistry.nodes.length < n →
        c.boot L R n config idleStack calls = some c') ∧
      c'.Refines s.kernel ∧ s.kernel.Represented := by
  obtain ⟨calls, htrace, hforeign⟩ := ObjectOp.exists_calls h
  obtain ⟨c', hboot, hrefines⟩ := LinkedKernel.boot_refines hL hR hc hinit htrace
  have hsteady := Call.steady_of_run (Kernel.initWithConfig_steady hinit) htrace
  exact ⟨calls, c', htrace, hforeign, hboot, hrefines, hsteady.lists.represented⟩

/-- Task 1 waits for an item, task 2 for a token; an interrupt sends the item, and task 1 gives the
token. -/
def passOn : List ObjectOp :=
  [.call (.create (.ofPriority 3) 1), .call (.create (.ofPriority 2) 2), .call (.start .ok),
    .queue (.enter (.receive waitForever)), .semTake 0 5, .call .tick,
    .queue (.sendFromIsr [1, 2, 3]), .call .reschedule, .queue .resume, .semGive 0,
    .stream (.op (.enter (.receive 1 3)))]

theorem objects_act_by_calls_passOn :
    ∃ s calls c', Trace ObjectOp.Step
        (Objects.init (initWithConfig bootMemory.memory none 0).1
          (fun _ => ⟨0, 1, semMagicWord⟩) Queue.threeByteQueue StreamSystem.threeBytes) passOn s ∧
      s.kernel.currentTcb = some 2 ∧
      bootMemory.boot .reference .reference 10 none 0 calls = some c' ∧ c'.Refines s.kernel ∧
      s.kernel.Represented := by
  have hrun : Trace ObjectOp.Step (Objects.init (initWithConfig bootMemory.memory none 0).1
      (fun _ => ⟨0, 1, semMagicWord⟩) Queue.threeByteQueue StreamSystem.threeBytes) passOn _ :=
    Trace.of_guards (by decide +kernel)
  obtain ⟨calls, c', -, -, hboot, hrefines, hrep⟩ := objects_act_by_calls
    ListLibrary.reference_lawful ListLibrary.reference_lawful bootMemory_fresh (by decide) _ _ _ hrun
  exact ⟨_, calls, c', hrun, by decide +kernel, hboot 10 (by decide +kernel), hrefines, hrep⟩

end Sertos
