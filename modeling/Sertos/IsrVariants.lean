import Sertos.StreamBuffer
import Sertos.Preemption
import Sertos.Interleaving

/-!
# Calls from tasks and from interrupts

A give, and a send to or a receive from a queue or a stream buffer, exist twice: for tasks, where
the call reschedules when it has woken a task, and for interrupts, where it sets a flag instead.
The two bodies are written separately.

`isr_variants_agree` says that they do the same up to the reschedule, and that the flag tells
whether the reschedule would request a switch.  The flag compares the priority of one task with that
of the current one; the reschedule selects among all ready tasks.  `Kernel.Calm` is what makes the
two the same, and what holds of an unlocked kernel between any two actions of a run
(`Deferred.calm`).
-/

set_option autoImplicit false

namespace Sertos

open Intrusive Lts Scheduler

namespace Scheduler

/-- `sertos_scheduler_reschedule` comes to its call of `sertos_scheduler_switch_context`. -/
def requestsSwitch (k : Kernel) : Bool :=
  k.isRunning && match selectNextTask k, k.currentTcb with
    | none, _ => false
    | some _, none => true
    | some next, some c => (k.tcb c).priority < (k.tcb next).priority

theorem reschedule_eq_ite (k : Kernel) :
    reschedule k = if requestsSwitch k then switchContext k else k := by
  rw [reschedule, requestsSwitch]
  cases k.isRunning with
  | false => rfl
  | true =>
    cases selectNextTask k with
    | none => rfl
    | some n =>
      cases k.currentTcb with
      | none => rfl
      | some c => simp

theorem requestsSwitch_of_some {k : Kernel} {n c : TaskId} (hrun : k.isRunning = true)
    (hn : selectNextTask k = some n) (hc : k.currentTcb = some c) :
    requestsSwitch k = true ↔ (k.tcb c).priority < (k.tcb n).priority := by
  simp [requestsSwitch, hrun, hn, hc]

end Scheduler

namespace Kernel

/-- The scheduler runs the task `c`, which no ready task exceeds, the ready queues and the bitmap
are right, and the priorities of the tasks on `W` have a queue. -/
structure Calm (k : Kernel) (W : WaitList) (c : TaskId) : Prop extends ReadyInv k where
  isRunning_eq : k.isRunning = true
  currentTcb_eq : k.currentTcb = some c
  max : ∀ u, k.Ready u → (k.tcb u).priority ≤ (k.tcb c).priority
  waiting_lt : ∀ t ∈ (k.waitLists W).nodes, (k.tcb t).priority < maxPriorities

variable {k : Kernel} {W : WaitList} {c t : TaskId} {rest : List TaskId}

/-- Between two calls a running kernel is calm if the current task has maximal priority. -/
theorem Settled.calm (h : k.Settled) (hrun : k.isRunning = true) (hc : k.currentTcb = some c)
    (htop : k.IsTop c) (W : WaitList) : k.Calm W c where
  toReadyInv := h.lists.readyInv
  isRunning_eq := hrun
  currentTcb_eq := hc
  max := htop.max
  waiting_lt _ ht := h.lists.priority_lt ((h.lists.mem_waitList W).1 ht).1

/-- While the scheduler is unlocked it is calm between the actions of a run. -/
theorem Deferred.calm (h : k.Deferred) (hl : k.lockNesting = 0) : ∃ c, ∀ W, k.Calm W c := by
  obtain ⟨c, hc, htop⟩ := (h.unlocked hl).2
  exact ⟨c, fun W => h.toSettled.calm h.started hc htop W⟩

theorem unblockHighest_priority (hW : (k.waitLists W).nodes = t :: rest) (u : TaskId) :
    ((waitListUnblockHighest k W).1.tcb u).priority = (k.tcb u).priority := by
  by_cases hut : u = t
  · subst hut
    rw [unblockHighest_tcb_same k u W hW]
  · rw [unblockHighest_tcb_of_ne k t W hW hut]

/-- The task that is woken is appended to the queue of its priority. -/
theorem unblockHighest_ready (hW : (k.waitLists W).nodes = t :: rest)
    (hp : (k.tcb t).priority < maxPriorities) :
    (waitListUnblockHighest k W).1.readyBitmap =
        Function.update k.readyBitmap (k.tcb t).priority true ∧
      t ∈ ((waitListUnblockHighest k W).1.readyQueue (k.tcb t).priority).nodes := by
  obtain ⟨k₁, e, hk₁, -, hsame⟩ := unblockHighest_eq k t W hW
  have hp₁ : (k₁.tcb t).priority = (k.tcb t).priority := by rw [hsame]
  have hbitmap : k₁.readyBitmap = k.readyBitmap := by rw [hk₁, waitListRemove_frame]
  rw [e, addReady_eq (hp₁ ▸ hp), hp₁, hbitmap]
  exact ⟨rfl, Bundle.mem_insertTail.2 (Or.inr ⟨rfl, rfl⟩)⟩

/-- **What is selected after a wake-up** is the woken task or one of its priority, or a task that
was ready before and exceeds the woken one. -/
theorem Calm.select_unblocked (h : k.Calm W c) (hW : (k.waitLists W).nodes = t :: rest) :
    ∃ n, selectNextTask (waitListUnblockHighest k W).1 = some n ∧
      ((k.tcb n).priority = (k.tcb t).priority ∨
        (k.tcb t).priority ≤ (k.tcb n).priority ∧ (k.tcb n).priority ≤ (k.tcb c).priority) := by
  have hp := h.waiting_lt t (by simp [hW])
  obtain ⟨hbitmap, hmem⟩ := unblockHighest_ready hW hp
  have hqueue : ∀ p u, u ≠ t → (u ∈ ((waitListUnblockHighest k W).1.readyQueue p).nodes ↔
      u ∈ (k.readyQueue p).nodes) := fun p u hu =>
        unblockHighest_mem_stateLists k t W hW hu (.ready p)
  rw [selectNextTask]
  cases hf : (waitListUnblockHighest k W).1.readyBitmap.findLastSet maxPriorities with
  | none =>
    have hbit := Bitmap.findLastSet_eq_none.1 hf _ hp
    rw [hbitmap, Function.update_self] at hbit
    exact absurd hbit (by simp)
  | some p =>
    obtain ⟨hlt, hbit, habove⟩ := Bitmap.findLastSet_spec hf
    have hle : (k.tcb t).priority ≤ p := by
      by_contra hlt'
      have := habove _ (Nat.not_le.1 hlt') hp
      rw [hbitmap, Function.update_self] at this
      exact absurd this (by simp)
    -- the queue of the highest bit is not empty
    have hne : ((waitListUnblockHighest k W).1.readyQueue p).nodes ≠ [] := by
      by_cases hpt : p = (k.tcb t).priority
      · rw [hpt]
        exact List.ne_nil_of_mem hmem
      · rw [hbitmap, Function.update_of_ne hpt] at hbit
        obtain ⟨u, hu⟩ := List.exists_mem_of_ne_nil _ ((h.bitmap p).1 hbit)
        have hut : u ≠ t := by
          rintro rfl
          exact hpt ((h.mem_readyQueue p u).1 hu).2.2.symm
        exact List.ne_nil_of_mem ((hqueue p u hut).2 hu)
    obtain ⟨n, hn⟩ : ∃ n, ((waitListUnblockHighest k W).1.readyQueue p).nodes.head? = some n := by
      rw [← Option.isSome_iff_exists]
      simpa using hne
    refine ⟨n, hn, ?_⟩
    by_cases hnt : n = t
    · exact Or.inl (by rw [hnt])
    · obtain ⟨hlive, hr, hpn⟩ := (h.mem_readyQueue p n).1
        ((hqueue p n hnt).1 (List.mem_of_mem_head? hn))
      exact Or.inr ⟨hpn ▸ hle, h.max n ⟨hlive, hr⟩⟩

/-- Waking a task leaves the scheduler running. -/
theorem Calm.isRunning_unblocked (h : k.Calm W c) :
    (waitListUnblockHighest k W).1.isRunning = true := by
  rw [unblockHighest_frame]
  exact h.isRunning_eq

/-- **The flag of the interrupt tells whether a reschedule would request a switch.** -/
theorem Calm.higherPrioWoken_iff (h : k.Calm W c) :
    higherPrioWoken (waitListUnblockHighest k W).1 (waitListUnblockHighest k W).2 = true ↔
      ((waitListUnblockHighest k W).2 ≠ none ∧
        requestsSwitch (waitListUnblockHighest k W).1 = true) := by
  have hsnd := unblockHighest_snd k W
  cases hW : (k.waitLists W).nodes with
  | nil =>
    rw [hW] at hsnd
    rw [hsnd]
    simp [higherPrioWoken]
  | cons t rest =>
    rw [hW] at hsnd
    obtain ⟨n, hn, hprio⟩ := h.select_unblocked hW
    have hcur : (waitListUnblockHighest k W).1.currentTcb = some c := by
      rw [unblockHighest_frame]
      exact h.currentTcb_eq
    rw [requestsSwitch_of_some h.isRunning_unblocked hn hcur, hsnd]
    simp only [higherPrioWoken, hcur, List.head?_cons, decide_eq_true_eq, unblockHighest_priority hW,
      ne_eq, reduceCtorEq, not_false_eq_true, true_and]
    omega

/-- The task that has woken another one switches exactly where the interrupt sets its flag. -/
theorem Calm.notifyUnblocked_eq (h : k.Calm W c) :
    notifyUnblocked (waitListUnblockHighest k W).1 (waitListUnblockHighest k W).2 =
      if higherPrioWoken (waitListUnblockHighest k W).1 (waitListUnblockHighest k W).2 then
        switchContext (waitListUnblockHighest k W).1
      else (waitListUnblockHighest k W).1 := by
  have hiff := h.higherPrioWoken_iff
  rw [notifyUnblocked, h.isRunning_unblocked, reschedule_eq_ite]
  by_cases hw : (waitListUnblockHighest k W).2 = none
  · simp [hw, higherPrioWoken]
  · simp [hw, hiff]

/-- A call from a task and its variant for interrupts, made in the kernel `k`, which wake a task
waiting on `W`, leave the kernels `task` and `isr`; the variant for interrupts has set its flag to
`woken`.  They have woken the same task, if any; then the task reschedules.  In a calm kernel the
flag tells whether that requests a switch, and the task switches exactly then. -/
def VariantsAgree (W : WaitList) (k task isr : Kernel) (woken : Bool) : Prop :=
  ∃ unblocked, ((isr, unblocked) = (k, none) ∨ (isr, unblocked) = waitListUnblockHighest k W) ∧
    task = notifyUnblocked isr unblocked ∧
    ∀ c, k.Calm W c → (woken = true ↔ unblocked ≠ none ∧ requestsSwitch isr = true) ∧
      task = if woken then switchContext isr else isr

theorem VariantsAgree.refl (W : WaitList) (k : Kernel) : VariantsAgree W k k k false :=
  ⟨none, Or.inl rfl, by simp [notifyUnblocked], fun _ _ => by simp⟩

theorem VariantsAgree.unblock (W : WaitList) (k : Kernel) :
    VariantsAgree W k
      (notifyUnblocked (waitListUnblockHighest k W).1 (waitListUnblockHighest k W).2)
      (waitListUnblockHighest k W).1
      (higherPrioWoken (waitListUnblockHighest k W).1 (waitListUnblockHighest k W).2) :=
  ⟨_, Or.inr rfl, rfl, fun _ h => ⟨h.higherPrioWoken_iff, h.notifyUnblocked_eq⟩⟩

end Kernel

open Kernel

/-- `sertos_sem_give` and `sertos_sem_give_from_isr` agree. -/
def Sem.GivesAgree (s : System) (i : ℕ) : Prop :=
  VariantsAgree (.sem i) s.kernel (Sem.give s i).1.kernel (Sem.giveFromIsr s i).1.kernel
      (Sem.giveFromIsr s i).2.2 ∧
    (Sem.give s i).1 = { (Sem.giveFromIsr s i).1 with kernel := (Sem.give s i).1.kernel } ∧
    (Sem.give s i).2 = (Sem.giveFromIsr s i).2.1

theorem Sem.gives_agree (s : System) (i : ℕ) : Sem.GivesAgree s i := by
  rw [GivesAgree, give, giveFromIsr]
  by_cases hm : (s.sems i).magic ≠ semMagicWord
  · simp only [if_pos hm]
    exact ⟨.refl _ _, trivial, trivial⟩
  · simp only [if_neg hm]
    rcases giveSection_cases s i with ⟨t, rest, hW, e⟩ | ⟨-, -, e⟩ | ⟨-, -, e⟩ <;> simp only [e]
    · have hagree := VariantsAgree.unblock (.sem i) s.kernel
      have hsnd : (waitListUnblockHighest s.kernel (.sem i)).2 = some t := by
        rw [unblockHighest_snd, hW]
        rfl
      rw [hsnd] at hagree
      by_cases hrun : (waitListUnblockHighest s.kernel (.sem i)).1.isRunning = true <;>
        cases hc : (waitListUnblockHighest s.kernel (.sem i)).1.currentTcb <;>
        simp only [notifyUnblocked, higherPrioWoken, hrun, hc, ne_eq, reduceCtorEq, not_false_eq_true,
          true_and, and_false, if_true, if_false, Bool.false_eq_true] at hagree ⊢ <;>
        exact ⟨hagree, trivial⟩
    · exact ⟨.refl _ _, trivial, trivial⟩
    · exact ⟨.refl _ _, trivial, trivial⟩

/-- What a call of a task returns instead of the status of its variant for interrupts. -/
def Status.toTask : Status → Status
  | .errorResourceBusy => .errorTimeout
  | status => status

namespace QueueSystem

/-- `sertos_queue_send` without a wait and `sertos_queue_send_from_isr` agree. -/
def SendsAgree (s : QueueSystem) (item : List UInt8) : Prop :=
  VariantsAgree Queue.waitRecv s.kernel (s.enter (.send item noWait)).1.kernel
      (s.sendFromIsr item).1.kernel (s.sendFromIsr item).2.2 ∧
    (s.enter (.send item noWait)).1 =
      { (s.sendFromIsr item).1 with kernel := (s.enter (.send item noWait)).1.kernel } ∧
    (s.enter (.send item noWait)).2 = .returns (s.sendFromIsr item).2.1.toTask none

/-- `sertos_queue_receive` without a wait and `sertos_queue_receive_from_isr` agree. -/
def ReceivesAgree (s : QueueSystem) : Prop :=
  VariantsAgree Queue.waitSend s.kernel (s.enter (.receive noWait)).1.kernel
      s.receiveFromIsr.1.kernel s.receiveFromIsr.2.2.2 ∧
    (s.enter (.receive noWait)).1 =
      { s.receiveFromIsr.1 with kernel := (s.enter (.receive noWait)).1.kernel } ∧
    (s.enter (.receive noWait)).2 =
      .returns s.receiveFromIsr.2.1.toTask s.receiveFromIsr.2.2.1

theorem sends_agree (s : QueueSystem) (item : List UInt8) : s.SendsAgree item := by
  rw [SendsAgree, enter, sendFromIsr]
  by_cases hm : s.queue.magic ≠ queueMagicWord
  · simp only [if_pos hm]
    exact ⟨.refl _ _, trivial, rfl⟩
  · simp only [if_neg hm, proceed, attempt, QueueCall.timeout]
    cases s.queue.sendData item with
    | none => exact ⟨.refl _ _, rfl, rfl⟩
    | some x => exact ⟨.unblock _ _, rfl, rfl⟩

theorem receives_agree (s : QueueSystem) : s.ReceivesAgree := by
  rw [ReceivesAgree, enter, receiveFromIsr]
  by_cases hm : s.queue.magic ≠ queueMagicWord
  · simp only [if_pos hm]
    exact ⟨.refl _ _, trivial, rfl⟩
  · simp only [if_neg hm, proceed, attempt, QueueCall.timeout]
    cases s.queue.receiveData with
    | none => exact ⟨.refl _ _, rfl, rfl⟩
    | some r => exact ⟨.unblock _ _, rfl, rfl⟩

end QueueSystem

namespace StreamSystem

/-- `sertos_stream_buffer_send` without a wait and `sertos_stream_buffer_send_from_isr` agree. -/
def SendsAgree (s : StreamSystem) (data : List UInt8) : Prop :=
  VariantsAgree StreamBuffer.waitRecv s.kernel (s.enter (.send data noWait)).1.kernel
      (s.sendFromIsr data).1.kernel (s.sendFromIsr data).2.2 ∧
    (s.enter (.send data noWait)).1 =
      { (s.sendFromIsr data).1 with kernel := (s.enter (.send data noWait)).1.kernel } ∧
    (s.enter (.send data noWait)).2 = .returns (s.sendFromIsr data).2.1 []

/-- `sertos_stream_buffer_receive` without a wait and `sertos_stream_buffer_receive_from_isr`
agree. -/
def ReceivesAgree (s : StreamSystem) (maxLength : ℕ) : Prop :=
  VariantsAgree StreamBuffer.waitSend s.kernel (s.enter (.receive maxLength noWait)).1.kernel
      (s.receiveFromIsr maxLength).1.kernel (s.receiveFromIsr maxLength).2.2 ∧
    (s.enter (.receive maxLength noWait)).1 =
      { (s.receiveFromIsr maxLength).1 with
        kernel := (s.enter (.receive maxLength noWait)).1.kernel } ∧
    (s.enter (.receive maxLength noWait)).2 =
      .returns (s.receiveFromIsr maxLength).2.1.length (s.receiveFromIsr maxLength).2.1

/-- Nothing is written into a full buffer. -/
theorem write_of_full {s : StreamSystem} (h : StreamBuffer.freeBytes s.buffer.ringBuf = 0)
    (data : List UInt8) : s.write data = (s, 0) := by
  have hfree : s.buffer.ringBuf.free = 0 := by
    have hle := s.buffer.ringBuf.count_le_capacity
    simp only [StreamBuffer.freeBytes, Queue.freeBytes] at h
    rw [RingBuffer.free]
    split at h <;> omega
  simp [write, RingBuffer.write, hfree]

/-- Something is written into a buffer that is not full. -/
theorem write_pos {s : StreamSystem} (h : StreamBuffer.freeBytes s.buffer.ringBuf ≠ 0)
    {data : List UInt8} (hdata : 0 < data.length) : 0 < (s.write data).2 := by
  simp only [StreamBuffer.freeBytes, Queue.freeBytes] at h
  simp only [write, RingBuffer.write, RingBuffer.free]
  split at h <;> omega

theorem wakeReceiver_agree (s : StreamSystem) (due : Bool) :
    VariantsAgree StreamBuffer.waitRecv s.kernel (notifyUnblockedTask (s.wakeReceiver due)).kernel
      (s.wakeReceiver due).1.kernel
      (higherPrioWoken (s.wakeReceiver due).1.kernel (s.wakeReceiver due).2) := by
  rw [wakeReceiver]
  split
  · exact .unblock _ _
  · have hagree := VariantsAgree.refl StreamBuffer.waitRecv s.kernel
    simpa [notifyUnblockedTask, notifyUnblocked, higherPrioWoken] using hagree

theorem wakeSender_agree (s : StreamSystem) (bytes : ℕ) :
    VariantsAgree StreamBuffer.waitSend s.kernel (notifyUnblockedTask (s.wakeSender bytes)).kernel
      (s.wakeSender bytes).1.kernel
      (higherPrioWoken (s.wakeSender bytes).1.kernel (s.wakeSender bytes).2) := by
  rw [wakeSender]
  split
  · exact .unblock _ _
  · have hagree := VariantsAgree.refl StreamBuffer.waitSend s.kernel
    simpa [notifyUnblockedTask, notifyUnblocked, higherPrioWoken] using hagree

/-- The variant for interrupts has no test for a full buffer: nothing is written, and nobody
woken. -/
theorem sends_agree (s : StreamSystem) (data : List UInt8) : s.SendsAgree data := by
  rw [SendsAgree, enter, sendFromIsr]
  by_cases hvalid : s.buffer.IsValid ∧ 0 < data.length
  · have hvalid' : (StreamCall.send data noWait).ParamsValid s.buffer := hvalid
    simp only [if_pos hvalid, if_pos hvalid', proceed]
    by_cases hfull : StreamBuffer.freeBytes s.buffer.ringBuf = 0
    · rw [if_pos hfull, if_pos trivial, write_of_full hfull]
      simp only [wakeReceiver, lt_self_iff_false, decide_false, Bool.false_eq_true, false_and,
        if_false]
      exact ⟨.refl _ _, trivial, trivial⟩
    · have hdue : decide (0 < (s.write data).2) = true := decide_eq_true (write_pos hfull hvalid.2)
      rw [if_neg hfull, hdue]
      exact ⟨wakeReceiver_agree (s.write data).1 true, rfl, rfl⟩
  · have hvalid' : ¬ (StreamCall.send data noWait).ParamsValid s.buffer := hvalid
    simp only [if_neg hvalid, if_neg hvalid']
    exact ⟨.refl _ _, trivial, trivial⟩

/-- Without a wait a receive below the trigger level reads what is there, as the variant for
interrupts does. -/
theorem receives_agree (s : StreamSystem) (maxLength : ℕ) : s.ReceivesAgree maxLength := by
  rw [ReceivesAgree, enter, receiveFromIsr]
  by_cases hvalid : s.buffer.IsValid ∧ 0 < maxLength
  · have hvalid' : (StreamCall.receive maxLength noWait).ParamsValid s.buffer := hvalid
    have hproceed : s.proceed (.receive maxLength noWait) = s.receiveData maxLength := by
      simp [proceed]
    simp only [if_pos hvalid, if_pos hvalid', hproceed]
    exact ⟨wakeSender_agree (s.read maxLength).1 (s.read maxLength).2.length, rfl, rfl⟩
  · have hvalid' : ¬ (StreamCall.receive maxLength noWait).ParamsValid s.buffer := hvalid
    simp only [if_neg hvalid, if_neg hvalid']
    exact ⟨.refl _ _, trivial, rfl⟩

end StreamSystem

/-- **The variants for interrupts agree with those for tasks**, whatever the state of the kernel and
of the object: up to the reschedule they do the same and return the same, and in a calm kernel the
flag tells whether the reschedule requests a switch. -/
theorem isr_variants_agree :
    (∀ s i, Sem.GivesAgree s i) ∧
      (∀ (s : QueueSystem) item, s.SendsAgree item) ∧ (∀ s : QueueSystem, s.ReceivesAgree) ∧
      (∀ (s : StreamSystem) data, s.SendsAgree data) ∧
      ∀ (s : StreamSystem) maxLength, s.ReceivesAgree maxLength :=
  ⟨Sem.gives_agree, QueueSystem.sends_agree, QueueSystem.receives_agree, StreamSystem.sends_agree,
    StreamSystem.receives_agree⟩

/-- Task 2, of priority 2, waits for a semaphore while task 1, of priority 1, runs. -/
def takenBySecond : List Action := [.call (.block (.sem 0) waitForever)]

/-- The kernel that `takenBySecond` leaves. -/
def waitingSecond : Kernel :=
  takenBySecond.foldl Action.run (Scheduler.start ([.create (.ofPriority 1) 1,
    .create (.ofPriority 2) 2].foldl Call.run (initWithConfig bss none 0).1) .ok)

/-- That kernel is calm, and a give from an interrupt sets its flag: the give of a task switches to
the task that has waited. -/
theorem isr_variants_agree_woken :
    (∀ W, waitingSecond.Calm W 1) ∧
      (Sem.giveFromIsr (System.init waitingSecond fun _ => ⟨0, 1, semMagicWord⟩) 0).2.2 = true ∧
      (Sem.give (System.init waitingSecond fun _ => ⟨0, 1, semMagicWord⟩) 0).1.kernel =
        switchContext
          (Sem.giveFromIsr (System.init waitingSecond fun _ => ⟨0, 1, semMagicWord⟩) 0).1.kernel ∧
      (Sem.give (System.init waitingSecond fun _ => ⟨0, 1, semMagicWord⟩) 0).1.kernel.currentTcb =
        some 2 := by
  have hpre : Guards Call.BeforeStart Call.run (initWithConfig bss none 0).1
      [.create (.ofPriority 1) 1, .create (.ofPriority 2) 2] := by decide +kernel
  have hrun : Guards (fun k a => Action.Allowed k a ∧ Action.DepthOk k a) Action.run
      (Scheduler.start ([.create (.ofPriority 1) 1, .create (.ofPriority 2) 2].foldl Call.run
        (initWithConfig bss none 0).1) .ok) takenBySecond := by decide +kernel
  have hdeferred : waitingSecond.Deferred :=
    deferred_of_run (by decide) (Trace.of_guards hpre) (Trace.of_guards hrun)
  obtain ⟨c, hcalm⟩ := hdeferred.calm (by decide +kernel)
  obtain rfl : c = 1 := Option.some_inj.1
    ((hcalm (.sem 0)).currentTcb_eq.symm.trans (by decide +kernel))
  have hwoken : (Sem.giveFromIsr (System.init waitingSecond fun _ => ⟨0, 1, semMagicWord⟩) 0).2.2 =
      true := by decide +kernel
  obtain ⟨⟨unblocked, -, -, hagree⟩, -, -⟩ :=
    isr_variants_agree.1 (System.init waitingSecond fun _ => ⟨0, 1, semMagicWord⟩) 0
  have hswitch := (hagree 1 (hcalm (.sem 0))).2
  rw [if_pos hwoken] at hswitch
  exact ⟨hcalm, hwoken, hswitch, by decide +kernel⟩

end Sertos
