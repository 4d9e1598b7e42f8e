import Sertos.StreamData

/-!
# Deleting a stream buffer

`sertos_stream_buffer_delete` clears the magic word and wakes the tasks of both wait lists.  Unlike
the calls of the other objects (`Sertos.Deletion`), those of a stream buffer look at the magic word
again when they go on.  So whatever happens after the deletion, nobody waits, every call that was
waiting returns nothing, and no byte moves.

This is about stream buffers in memory of their callers.  One from the pool is given back before its
waiters look at the magic word, and what is there then is not up to this code.

The steps are those of a stream buffer (`StreamOp`) with any number of producers and consumers.
-/

set_option autoImplicit false

namespace Sertos

open Intrusive Lts Scheduler

open StreamBuffer (waitSend waitRecv Flow)

/-- `sertos_stream_buffer_delete`, on a stream buffer in memory of the caller. -/
def StreamSystem.delete (s : StreamSystem) : StreamSystem × Status :=
  if ¬ s.buffer.IsValid then (s, .errorInvalidParam)
  else
    let k := unblockAll (unblockAll s.kernel waitSend) waitRecv
    ({ s with
      buffer := { s.buffer with magic := 0 }
      kernel := rescheduleIfRunning k }, .ok)

/-- A step of a stream buffer, or its deletion. -/
inductive StreamStep
  | op (a : StreamOp)
  | delete
deriving DecidableEq, Repr

namespace StreamStep

/-- The state change of a step. -/
def run (s : StreamSystem) : StreamStep → StreamSystem
  | .op a => a.run s
  | .delete => s.delete.1

/-- What a step is seen as. -/
def events (s : StreamSystem) : StreamStep → List (Fifo.Event UInt8)
  | .op a => a.events s
  | .delete => []

/-- The steps that can come next: those of `StreamOp.Allowed`, whichever tasks send and receive. -/
def Allowed (s : StreamSystem) : StreamStep → Prop
  | .op (.kernel a) => StreamOp.AllowedSection s a
  | .op (.enter _) => s.currentCall = none
  | .op .resume => ∃ c ∈ s.kernel.currentTcb, ∃ a ∈ s.call c, c ∉ s.waiting a.waitList
  | _ => True

instance (s : StreamSystem) : DecidablePred (Allowed s)
  | .op (.kernel a) => inferInstanceAs (Decidable (StreamOp.AllowedSection s a))
  | .op (.enter _) => inferInstanceAs (Decidable (s.currentCall = none))
  | .op .resume => inferInstanceAs (Decidable
    (∃ c ∈ s.kernel.currentTcb, ∃ a ∈ s.call c, c ∉ s.waiting a.waitList))
  | .op (.dispatch _) | .op (.sendFromIsr _) | .op (.receiveFromIsr _) | .op (.setTriggerLevel _)
  | .op .reset | .delete => .isTrue trivial

/-- One step of a run. -/
abbrev Step : StreamSystem → StreamStep → StreamSystem → Prop := Guarded Allowed run

end StreamStep

namespace StreamSystem

variable {s s' : StreamSystem} {c : TaskId} {a : StreamCall}

/-! ## The wait lists -/

/-- Tasks are taken off the wait lists, and the calls they are in stay the same. -/
structure Eases (s s' : StreamSystem) : Prop where
  kernel : ∀ W, Kernel.Shrinks W s.kernel s'.kernel
  call : s'.call = s.call

namespace Eases

theorem refl (s : StreamSystem) : Eases s s := ⟨fun W => .refl W _, rfl⟩

theorem wakeReceiver (s : StreamSystem) (due : Bool) : Eases s (s.wakeReceiver due).1 := by
  rw [StreamSystem.wakeReceiver]
  split
  · exact ⟨fun W => .unblockHighest, rfl⟩
  · exact refl s

theorem wakeSender (s : StreamSystem) (bytes : ℕ) : Eases s (s.wakeSender bytes).1 := by
  rw [StreamSystem.wakeSender]
  split
  · exact ⟨fun W => .unblockHighest, rfl⟩
  · exact refl s

theorem notifyUnblockedTask {r : StreamSystem × Option TaskId} (h : Eases s r.1) :
    Eases s (notifyUnblockedTask r) :=
  ⟨fun W => (h.kernel W).trans (.notifyUnblocked r.2), h.call⟩

theorem sendData (s : StreamSystem) (data : List UInt8) : Eases s (s.sendData data).1 := by
  have hwake := wakeReceiver (s.write data).1 true
  exact notifyUnblockedTask ⟨hwake.kernel, hwake.call⟩

theorem receiveData (s : StreamSystem) (n : ℕ) : Eases s (s.receiveData n).1 := by
  have hwake := wakeSender (s.read n).1 (s.read n).2.length
  exact notifyUnblockedTask ⟨hwake.kernel, hwake.call⟩

theorem sendFromIsr (s : StreamSystem) (data : List UInt8) : Eases s (s.sendFromIsr data).1 := by
  rw [StreamSystem.sendFromIsr]
  split
  · have hwake := wakeReceiver (s.write data).1 (0 < (s.write data).2)
    exact ⟨hwake.kernel, hwake.call⟩
  · exact refl s

theorem receiveFromIsr (s : StreamSystem) (n : ℕ) : Eases s (s.receiveFromIsr n).1 := by
  rw [StreamSystem.receiveFromIsr]
  split
  · have hwake := wakeSender (s.read n).1 (s.read n).2.length
    exact ⟨hwake.kernel, hwake.call⟩
  · exact refl s

theorem setTriggerLevel (s : StreamSystem) (n : ℕ) : Eases s (s.setTriggerLevel n).1 := by
  rw [StreamSystem.setTriggerLevel]
  split_ifs
  · exact refl s
  · refine notifyUnblockedTask ?_
    have hwake := wakeReceiver { s with buffer := { s.buffer with
      triggerLevelBytes := StreamBuffer.atLeastOne n } } true
    exact ⟨hwake.kernel, hwake.call⟩
  · exact refl s

theorem reset (s : StreamSystem) : Eases s s.reset.1 := by
  rw [StreamSystem.reset]
  split
  · exact refl s
  · exact ⟨fun W => Kernel.Shrinks.unblockAll.trans .rescheduleIfRunning, rfl⟩

theorem delete (s : StreamSystem) : Eases s s.delete.1 := by
  rw [StreamSystem.delete]
  split
  · exact refl s
  · exact ⟨fun W => (Kernel.Shrinks.unblockAll.trans .unblockAll).trans .rescheduleIfRunning, rfl⟩

end Eases

/-- The wait lists are in order, and nobody waits for a deleted stream buffer. -/
structure Listed (s : StreamSystem) : Prop where
  sends : Queued waitSend s
  receives : Queued waitRecv s
  deleted : ¬ s.buffer.IsValid → s.waiting waitSend = [] ∧ s.waiting waitRecv = []

namespace Listed

/-- A step that takes tasks off the lists of a stream buffer that stays as valid as it is. -/
theorem of_eases (h : Listed s) (he : Eases s s') (hmagic : s'.buffer.magic = s.buffer.magic) :
    Listed s' := by
  have hlisted : ∀ W, Queued W s → Queued W s' := fun W hW =>
    ⟨(he.kernel W hW.usable).1, fun t ht => by
      rw [he.call]
      exact hW.pending t ((he.kernel W hW.usable).2 ht)⟩
  refine ⟨hlisted _ h.sends, hlisted _ h.receives, fun hinvalid => ?_⟩
  obtain ⟨hsend, hrecv⟩ := h.deleted (by rwa [StreamBuffer.IsValid, ← hmagic])
  have hsubSend := (he.kernel waitSend h.sends.usable).2
  have hsubRecv := (he.kernel waitRecv h.receives.usable).2
  exact ⟨List.subset_nil.1 (hsend ▸ hsubSend), List.subset_nil.1 (hrecv ▸ hsubRecv)⟩

/-- **The deletion** empties both lists. -/
theorem delete (h : Listed s) : Listed s.delete.1 := by
  have he := Eases.delete s
  by_cases hvalid : s.buffer.IsValid
  · have hlisted : ∀ W, Queued W s → Queued W s.delete.1 := fun W hW =>
      ⟨(he.kernel W hW.usable).1, fun t ht => by
        rw [he.call]
        exact hW.pending t ((he.kernel W hW.usable).2 ht)⟩
    refine ⟨hlisted _ h.sends, hlisted _ h.receives, fun _ => ?_⟩
    have hsends := h.sends.usable.unblockAll
    have hafter : Kernel.Shrinks waitSend (unblockAll s.kernel waitSend) s.delete.1.kernel := by
      rw [StreamSystem.delete, if_neg (not_not.2 hvalid)]
      exact Kernel.Shrinks.unblockAll.trans .rescheduleIfRunning
    have hreceives : ((unblockAll (unblockAll s.kernel waitSend) waitRecv).waitLists
        waitRecv).nodes = [] :=
      (Kernel.Shrinks.unblockAll h.receives.usable).1.unblockAll
    have hafter' : Kernel.Shrinks waitRecv (unblockAll (unblockAll s.kernel waitSend) waitRecv)
        s.delete.1.kernel := by
      rw [StreamSystem.delete, if_neg (not_not.2 hvalid)]
      exact .rescheduleIfRunning
    have hsub := (hafter (Kernel.Shrinks.unblockAll h.sends.usable).1).2
    have hsub' := (hafter' (Kernel.Shrinks.unblockAll
      (Kernel.Shrinks.unblockAll h.receives.usable).1).1).2
    exact ⟨List.subset_nil.1 (hsends ▸ hsub), List.subset_nil.1 (hreceives ▸ hsub')⟩
  · have hsame : s.delete.1 = s := by rw [StreamSystem.delete, if_pos hvalid]
    rw [hsame]
    exact h

/-- A task that is off the lists leaves its call. -/
theorem setCall_none (h : Listed s) (hsend : c ∉ s.waiting waitSend)
    (hrecv : c ∉ s.waiting waitRecv) : Listed (s.setCall c none) :=
  ⟨h.sends.setCall hsend none, h.receives.setCall hrecv none, h.deleted⟩

/-- The caller goes into its wait for a valid stream buffer. -/
theorem wait (h : Listed s) (hvalid : s.buffer.IsValid) (hrun : s.kernel.isRunning = true)
    (hc : s.kernel.currentTcb = some c) (hcall : s.call c = none) : Listed (s.wait c a) :=
  ⟨(h.sends.wait hrun hc hcall).1, (h.receives.wait hrun hc hcall).1,
    fun hinvalid => absurd hvalid hinvalid⟩

/-- **The loop of a call** on a valid stream buffer. -/
theorem proceed (h : Listed s) (hvalid : s.buffer.IsValid) (hcur : s.currentCall = none) :
    Listed (s.proceed a).1 := by
  have hcall : ∀ c, s.kernel.currentTcb = some c → s.call c = none := by
    intro c hc
    rw [currentCall, hc] at hcur
    exact hcur
  have hsend : ∀ data, Listed (s.sendData data).1 := fun data =>
    h.of_eases (.sendData s data) (s.sendData_flow data noWait).magic
  have hreceive : ∀ n, Listed (s.receiveData n).1 := fun n =>
    h.of_eases (.receiveData s n) (s.receiveData_flow n noWait).magic
  cases a with
  | send data timeout =>
    rw [StreamSystem.proceed]
    split_ifs
    · exact h
    · split
      · rename_i c hrun hc
        exact h.wait hvalid hrun hc (hcall c hc)
      · exact h
    · exact hsend data
  | receive n timeout =>
    rw [StreamSystem.proceed]
    split_ifs
    · exact hreceive n
    · split
      · rename_i c hrun hc
        exact h.wait hvalid hrun hc (hcall c hc)
      · exact hreceive n
    · exact hreceive n

theorem enter (h : Listed s) (hcur : s.currentCall = none) : Listed (s.enter a).1 := by
  rw [StreamSystem.enter]
  split_ifs with hparams
  · refine h.proceed ?_ hcur
    cases a with
    | send data timeout => exact hparams.1
    | receive n timeout => exact hparams.1
  · exact h

theorem resume (h : Listed s) (hc : s.kernel.currentTcb = some c) (hcall : s.call c = some a)
    (hoff : c ∉ s.waiting a.waitList) : Listed (s.resume c a).1 := by
  have hnotMem : ∀ W, Queued W s → c ∉ s.waiting W := by
    intro W hW
    by_cases haW : a.waitList = W
    · exact haW ▸ hoff
    · refine hW.notMem_of_call fun b hb => ?_
      obtain rfl := Option.some_inj.1 (hcall.symm.trans hb)
      exact haW
  have hleft := h.setCall_none (hnotMem _ h.sends) (hnotMem _ h.receives)
  have hcur : (s.setCall c none).currentCall = none := by simp [currentCall, hc]
  cases a with
  | send data timeout =>
    simp only [StreamSystem.resume]
    split_ifs with hfails
    · exact hleft
    · exact hleft.proceed (not_not.1 fun hinvalid => hfails (.inr hinvalid)) hcur
  | receive n timeout =>
    simp only [StreamSystem.resume]
    split_ifs with hvalid hstatus
    · exact hleft.of_eases (.receiveData _ n) (receiveData_flow _ n noWait).magic
    · exact hleft.proceed hvalid hcur
    · exact hleft

/-- **Every step keeps the lists in order.** -/
theorem step (h : Listed s) {op : StreamStep} (hop : op.Allowed s) : Listed (op.run s) := by
  cases op with
  | delete => exact h.delete
  | op a =>
    have hmagic := (s.step_flow a).magic
    cases a with
    | kernel b =>
      have hleaves : ∀ W, W = waitSend ∨ W = waitRecv → Queued W s → b.LeavesQueued W s.kernel := by
        intro W hW hqueued
        have hnone : ∀ t, s.call t = none → t ∉ s.waiting W := fun t ht =>
          hqueued.notMem_of_call fun a ha => absurd ha (by simp [ht])
        refine .of_calls hnone ?_ ?_
        · rintro config t rfl
          exact hop
        · rintro V timeout rfl
          obtain ⟨hsend, hrecv, hcur⟩ := hop
          refine ⟨?_, hcur⟩
          rcases hW with rfl | rfl
          · exact hsend.symm
          · exact hrecv.symm
      have hsend := Section.shrinks (hleaves _ (Or.inl rfl) h.sends)
      have hrecv := Section.shrinks (hleaves _ (Or.inr rfl) h.receives)
      refine ⟨h.sends.shrink hsend s.buffer, h.receives.shrink hrecv s.buffer, fun hinvalid => ?_⟩
      obtain ⟨hnil, hnil'⟩ := h.deleted hinvalid
      have hsub := (hsend h.sends.usable).2
      have hsub' := (hrecv h.receives.usable).2
      exact ⟨List.subset_nil.1 (hnil ▸ hsub), List.subset_nil.1 (hnil' ▸ hsub')⟩
    | dispatch t =>
      exact h.of_eases ⟨fun W => .of_eq rfl fun _ _ => rfl, rfl⟩ rfl
    | enter a => exact h.enter hop
    | resume =>
      obtain ⟨c, hc, a, ha, hoff⟩ := hop
      simp only [StreamStep.run, StreamOp.run, Option.mem_def.1 hc, Option.mem_def.1 ha]
      exact h.resume hc ha hoff
    | sendFromIsr data => exact h.of_eases (.sendFromIsr s data) hmagic
    | receiveFromIsr n => exact h.of_eases (.receiveFromIsr s n) hmagic
    | setTriggerLevel n => exact h.of_eases (.setTriggerLevel s n) hmagic
    | reset => exact h.of_eases (.reset s) hmagic

end Listed

/-! ## After the deletion -/

theorem delete_invalid (s : StreamSystem) : ¬ s.delete.1.buffer.IsValid := by
  rw [delete]
  split_ifs with hvalid
  · show ¬ (0 : ℕ) = streamBufferMagicWord
    decide
  · exact hvalid

section Invalid

variable (h : ¬ s.buffer.IsValid)
include h

theorem enter_of_invalid (a : StreamCall) : s.enter a = (s, .returns 0 []) := by
  refine if_neg fun hparams => h ?_
  cases a with
  | send data timeout => exact hparams.1
  | receive n timeout => exact hparams.1

theorem resume_of_invalid (c : TaskId) (a : StreamCall) :
    s.resume c a = (s.setCall c none, .returns 0 []) := by
  cases a with
  | send data timeout => exact if_pos (.inr h)
  | receive n timeout => exact if_pos h

theorem isr_of_invalid (data : List UInt8) (n : ℕ) :
    s.sendFromIsr data = (s, 0, false) ∧ s.receiveFromIsr n = (s, [], false) :=
  ⟨if_neg fun hparams => h hparams.1, if_neg fun hparams => h hparams.1⟩

/-- **No step touches an invalid stream buffer.** -/
theorem step_of_invalid (op : StreamStep) : (op.run s).buffer = s.buffer ∧ op.events s = [] := by
  have hevents : ∀ a : StreamCall, a.events (.returns 0 []) = [] := fun a => by cases a <;> rfl
  cases op with
  | delete =>
    refine ⟨?_, rfl⟩
    rw [StreamStep.run, delete, if_pos h]
  | op a =>
    cases a with
    | kernel b => exact ⟨rfl, rfl⟩
    | dispatch t => exact ⟨rfl, rfl⟩
    | enter a =>
      simp only [StreamStep.run, StreamStep.events, StreamOp.run, StreamOp.events,
        enter_of_invalid h a, hevents, and_self]
    | resume =>
      simp only [StreamStep.run, StreamStep.events, StreamOp.run, StreamOp.events]
      cases s.kernel.currentTcb with
      | none => exact ⟨rfl, rfl⟩
      | some c =>
        cases hcall : s.call c with
        | none => simp only [hcall, and_self]
        | some a => simp only [hcall, resume_of_invalid h c a, hevents, setCall_buffer, and_self]
    | sendFromIsr data =>
      simp only [StreamStep.run, StreamStep.events, StreamOp.run, StreamOp.events,
        (isr_of_invalid h data 0).1, List.take_zero, List.map_nil, and_self]
    | receiveFromIsr n =>
      simp only [StreamStep.run, StreamStep.events, StreamOp.run, StreamOp.events,
        (isr_of_invalid h [] n).2, List.map_nil, and_self]
    | setTriggerLevel n =>
      refine ⟨?_, rfl⟩
      rw [StreamStep.run, StreamOp.run, setTriggerLevel, if_pos h]
    | reset =>
      rw [StreamStep.run, StreamStep.events, StreamOp.run, StreamOp.events, reset, if_pos h]
      exact ⟨rfl, if_neg (by simp)⟩

/-- Nor does any run. -/
theorem run_of_invalid {ops : List StreamStep} (hrun : Trace StreamStep.Step s ops s') :
    s'.buffer = s.buffer ∧ (outputs StreamStep.run StreamStep.events s ops).flatten = [] := by
  obtain ⟨hbuffer, htrace⟩ := hrun.simulation_flatten (I := fun t => t.buffer = s.buffer)
    (S := fun _ _ _ => False) (p := fun _ => ()) (o := StreamStep.events) (fun t op hI _ => by
      obtain ⟨hsame, hnone⟩ := step_of_invalid (s := t) (by rwa [hI]) op
      rw [hnone]
      exact ⟨hsame.trans hI, .nil ()⟩) rfl
  refine ⟨hbuffer, ?_⟩
  cases hevents : (outputs StreamStep.run StreamStep.events s ops).flatten with
  | nil => rfl
  | cons e es =>
    rw [hevents] at htrace
    obtain ⟨-, hfalse, -⟩ := Trace.cons_iff.1 htrace
    exact hfalse.elim

end Invalid

theorem Listed.init {x : StreamBuffer} (hx : x.IsValid) (mem : Kernel) (config : Option Config)
    (idleStack : ℕ) : Listed (StreamSystem.init (initWithConfig mem config idleStack).1 x) := by
  have hempty : ∀ W, (StreamSystem.init (initWithConfig mem config idleStack).1 x).waiting W = [] :=
    fun W => (Kernel.usable_initWithConfig mem config idleStack W).1
  have hqueued : ∀ W, Queued W (StreamSystem.init (initWithConfig mem config idleStack).1 x) := by
    intro W
    refine ⟨(Kernel.usable_initWithConfig mem config idleStack W).2, fun t ht => ?_⟩
    rw [hempty] at ht
    exact absurd ht List.not_mem_nil
  exact ⟨hqueued _, hqueued _, fun hinvalid => absurd hx hinvalid⟩

/-- **Deletion is noticed.**  In every run, from the deletion of a stream buffer in memory of its
caller on: nobody waits for it, no step changes it or is seen to move a byte, a call that was
waiting returns nothing when it goes on, and so does every later call. -/
theorem delete_noticed {storage : ℕ → UInt8} {storageSize trigger : ℕ} {x : StreamBuffer}
    (hcreate : StreamBuffer.createStatic storage storageSize trigger = (some x, .ok))
    (mem : Kernel) (config : Option Config) (idleStack : ℕ) {before after : List StreamStep}
    (h : Trace StreamStep.Step (StreamSystem.init (initWithConfig mem config idleStack).1 x)
      (before ++ .delete :: after) s) :
    ∃ t, Trace StreamStep.Step (StreamSystem.init (initWithConfig mem config idleStack).1 x)
        before t ∧ s.buffer = t.delete.1.buffer ∧
      (outputs StreamStep.run StreamStep.events t (.delete :: after)).flatten = [] ∧
      s.waiting waitSend = [] ∧ s.waiting waitRecv = [] ∧
      (∀ c a, s.call c = some a → s.resume c a = (s.setCall c none, .returns 0 [])) ∧
      (∀ a, s.enter a = (s, .returns 0 [])) ∧
      ∀ data n, s.sendFromIsr data = (s, 0, false) ∧ s.receiveFromIsr n = (s, [], false) := by
  obtain ⟨r, -, -, rfl⟩ := StreamBuffer.createStatic_cases hcreate
  have hlisted : Listed s := by
    have hvalid : StreamBuffer.IsValid ⟨r, StreamBuffer.atLeastOne trigger, true,
      streamBufferMagicWord⟩ := rfl
    refine h.invariant (fun s op s' hs hstep => ?_) (.init hvalid mem config idleStack)
    obtain ⟨hop, rfl⟩ := hstep
    exact hs.step hop
  obtain ⟨t, hbefore, hafter⟩ := Trace.append_iff.1 h
  obtain ⟨u, ⟨-, rfl⟩, hafter⟩ := Trace.cons_iff.1 hafter
  obtain ⟨hbuffer, hevents⟩ := run_of_invalid t.delete_invalid hafter
  have hinvalid : ¬ s.buffer.IsValid := by
    rw [hbuffer]
    exact t.delete_invalid
  obtain ⟨hsend, hrecv⟩ := hlisted.deleted hinvalid
  exact ⟨t, hbefore, hbuffer, hevents, hsend, hrecv, fun c a _ => resume_of_invalid hinvalid c a,
    enter_of_invalid hinvalid, isr_of_invalid hinvalid⟩

/-- Task 2 waits to receive. -/
def waitToReceive : List StreamStep :=
  [.op (.kernel (.critical (.create (.ofPriority 1) 1))),
    .op (.kernel (.critical (.create (.ofPriority 2) 2))), .op (.kernel (.start .ok)),
    .op (.sendFromIsr [7]), .op (.enter (.receive 2 waitForever))]

theorem delete_noticed_receiver :
    ∃ s, Trace StreamStep.Step (StreamSystem.init (initWithConfig bss none 0).1 threeBytes)
        (waitToReceive ++ [.delete]) s ∧ s.call 2 = some (.receive 2 waitForever) ∧
      s.kernel.currentTcb = some 2 ∧ s.waiting waitRecv = [] ∧
      (s.resume 2 (.receive 2 waitForever)).2 = .returns 0 [] := by
  have hcreate : StreamBuffer.createStatic (fun _ => 0) 4 2 = (some threeBytes, .ok) := rfl
  have hrun : Trace StreamStep.Step (StreamSystem.init (initWithConfig bss none 0).1 threeBytes)
      (waitToReceive ++ [StreamStep.delete]) _ := Trace.of_guards (by decide +kernel)
  have hcall : ((waitToReceive ++ [StreamStep.delete]).foldl StreamStep.run
      (StreamSystem.init (initWithConfig bss none 0).1 threeBytes)).call 2 =
        some (.receive 2 waitForever) := by decide +kernel
  obtain ⟨-, -, -, -, -, hrecv, hresume, -⟩ := delete_noticed hcreate bss none 0 hrun
  exact ⟨_, hrun, hcall, by decide +kernel, hrecv, by rw [hresume 2 _ hcall]⟩

end StreamSystem

end Sertos
