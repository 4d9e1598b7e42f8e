import Sertos.StreamBuffer
import Sertos.QueueData
import Sertos.Waiting

/-!
# Producer and consumer of a stream buffer

Runs of the functions of one stream buffer with one producer and one consumer task, any number of
interrupts, changes of the trigger level and resets by anybody, ticks, and any scheduling.

The invariant, `Flowing`, is that of a threshold: a consumer that waits finds fewer bytes stored
than the trigger level, a producer that waits finds the buffer full, and the trigger level is at
least one and at most the capacity.  So the two never wait at the same time.  Since each side is one
task, a single wake-up always empties a wait list (`Flowing.unblock`).
-/

set_option autoImplicit false

namespace Sertos

open Intrusive Lts Scheduler

/-- One step of a run on a stream buffer. -/
inductive StreamOp
  /-- A critical section of the scheduler. -/
  | kernel (a : Section)
  /-- The processor is given to `t`. -/
  | dispatch (t : TaskId)
  /-- A call, up to its blocking point. -/
  | enter (a : StreamCall)
  /-- The current task comes back from its wait. -/
  | resume
  | sendFromIsr (data : List UInt8)
  | receiveFromIsr (maxLength : ℕ)
  | setTriggerLevel (triggerLevelBytes : ℕ)
  | reset
deriving DecidableEq, Repr

/-- The task that makes the call: `p` is the producer and `q` the consumer. -/
def StreamCall.caller (p q : TaskId) : StreamCall → TaskId
  | .send _ _ => p
  | .receive _ _ => q

namespace StreamSystem

/-- The tasks on a wait list. -/
def waiting (s : StreamSystem) (W : WaitList) : List TaskId := (s.kernel.waitLists W).nodes

/-- The call in which the current task waits. -/
def currentCall (s : StreamSystem) : Option StreamCall := s.kernel.currentTcb.bind s.call

/-- The system after the scheduler has been initialised and a stream buffer has been created. -/
def init (k : Kernel) (x : StreamBuffer) : StreamSystem := ⟨k, x, fun _ => none⟩

end StreamSystem

namespace StreamOp

/-- The state change of a step. -/
def run (s : StreamSystem) : StreamOp → StreamSystem
  | .kernel a => { s with kernel := a.run s.kernel }
  | .dispatch t => { s with kernel := { s.kernel with currentTcb := some t } }
  | .enter a => (s.enter a).1
  | .resume => match s.kernel.currentTcb with
    | some c => match s.call c with
      | some a => (s.resume c a).1
      | none => s
    | none => s
  | .sendFromIsr data => (s.sendFromIsr data).1
  | .receiveFromIsr maxLength => (s.receiveFromIsr maxLength).1
  | .setTriggerLevel n => (s.setTriggerLevel n).1
  | .reset => s.reset.1

/-- The scheduler's sections: those that block or wake do so on the wait lists of other objects, a
task makes calls of its own only when it is not in one, and so is the task whose control block is
set up. -/
def AllowedSection (s : StreamSystem) : Section → Prop
  | .critical (.create _ t) => s.call t = none
  | .critical (.block W _) =>
    W ≠ StreamBuffer.waitSend ∧ W ≠ StreamBuffer.waitRecv ∧ s.currentCall = none
  | .critical (.unblock W) => W ≠ StreamBuffer.waitSend ∧ W ≠ StreamBuffer.waitRecv
  | .critical .yield | .critical (.delay _) => s.currentCall = none
  | _ => True

/-- The steps that can come next, for the producer `p` and the consumer `q`.  A task in its wait
goes on only when it has been taken off the wait list. -/
def Allowed (p q : TaskId) (s : StreamSystem) : StreamOp → Prop
  | .kernel a => AllowedSection s a
  | .enter a => s.currentCall = none ∧ ∀ c ∈ s.kernel.currentTcb, c = a.caller p q
  | .resume => ∃ c ∈ s.kernel.currentTcb, ∃ a ∈ s.call c, c ∉ s.waiting a.waitList
  | .dispatch _ | .sendFromIsr _ | .receiveFromIsr _ | .setTriggerLevel _ | .reset => True

instance (s : StreamSystem) : DecidablePred (AllowedSection s)
  | .critical (.create _ t) => inferInstanceAs (Decidable (s.call t = none))
  | .critical (.block W _) => inferInstanceAs (Decidable
    (W ≠ StreamBuffer.waitSend ∧ W ≠ StreamBuffer.waitRecv ∧ s.currentCall = none))
  | .critical (.unblock W) => inferInstanceAs (Decidable
    (W ≠ StreamBuffer.waitSend ∧ W ≠ StreamBuffer.waitRecv))
  | .critical .yield | .critical (.delay _) => inferInstanceAs (Decidable (s.currentCall = none))
  | .critical (.start _) | .critical .tick | .critical .reschedule | .critical .lock
  | .critical .unlock | .start _ | .switchContext | .performSwitch => .isTrue trivial

instance (p q : TaskId) (s : StreamSystem) : DecidablePred (Allowed p q s)
  | .kernel a => inferInstanceAs (Decidable (AllowedSection s a))
  | .enter a => inferInstanceAs (Decidable
    (s.currentCall = none ∧ ∀ c ∈ s.kernel.currentTcb, c = a.caller p q))
  | .resume => inferInstanceAs (Decidable
    (∃ c ∈ s.kernel.currentTcb, ∃ a ∈ s.call c, c ∉ s.waiting a.waitList))
  | .dispatch _ | .sendFromIsr _ | .receiveFromIsr _ | .setTriggerLevel _ | .reset =>
    .isTrue trivial

/-- One step of a run. -/
abbrev Step (p q : TaskId) : StreamSystem → StreamOp → StreamSystem → Prop :=
  Guarded (StreamOp.Allowed p q) StreamOp.run

end StreamOp

namespace StreamSystem

open StreamBuffer (waitSend waitRecv)

variable {s : StreamSystem} {p q c t : TaskId} {k : Kernel} {x : StreamBuffer} {a : StreamCall}
  {W : WaitList}

/-! ## The invariant -/

/-- The trigger level can be reached, a consumer that waits finds fewer bytes than that, and a
producer that waits finds no room. -/
structure Level (sending receiving : List TaskId) (x : StreamBuffer) : Prop where
  valid : x.IsValid
  trigger_pos : 1 ≤ x.triggerLevelBytes
  trigger_le : x.triggerLevelBytes ≤ x.ringBuf.capacity
  below : receiving ≠ [] → x.ringBuf.count < x.triggerLevelBytes
  full : sending ≠ [] → x.ringBuf.count = x.ringBuf.capacity

/-- The wait list is in order, and the tasks on it are in calls that wait on it. -/
structure Queued (W : WaitList) (s : StreamSystem) : Prop where
  usable : s.kernel.Usable W
  pending : ∀ t ∈ s.waiting W, ∃ a, s.call t = some a ∧ a.waitList = W

/-- What holds between the steps of a run with the producer `p` and the consumer `q`. -/
structure Flowing (p q : TaskId) (s : StreamSystem) : Prop where
  sends : Queued waitSend s
  receives : Queued waitRecv s
  caller : ∀ t a, s.call t = some a → t = a.caller p q
  level : Level (s.waiting waitSend) (s.waiting waitRecv) s.buffer

/-! ## Bytes -/

namespace Level

variable {S R S' R' : List TaskId}

theorem mono (h : Level S R x) (hS : S' ⊆ S) (hR : R' ⊆ R) : Level S' R' x := by
  refine ⟨h.valid, h.trigger_pos, h.trigger_le, fun hne => h.below ?_, fun hne => h.full ?_⟩
  · rintro rfl
    exact hne (List.subset_nil.1 hR)
  · rintro rfl
    exact hne (List.subset_nil.1 hS)

/-- Writing leaves a full buffer full. -/
theorem write (h : Level S R x) (data : List UInt8) :
    Level S [] { x with ringBuf := (x.ringBuf.write data).1 } := by
  refine ⟨h.valid, h.trigger_pos, ?_, fun hne => absurd rfl hne, fun hne => ?_⟩
  · rw [RingBuffer.capacity_write]
    exact h.trigger_le
  · have hfull := h.full hne
    rw [RingBuffer.count_write, RingBuffer.capacity_write, RingBuffer.free]
    omega

/-- Reading leaves the number of bytes below the trigger level if it was there. -/
theorem read (h : Level S R x) (n : ℕ) :
    Level [] R { x with ringBuf := (x.ringBuf.read n).1 } := by
  refine ⟨h.valid, h.trigger_pos, h.trigger_le, fun hne => ?_, fun hne => absurd rfl hne⟩
  rw [RingBuffer.count_read]
  exact Nat.lt_of_le_of_lt (Nat.sub_le _ _) (h.below hne)

end Level

/-! ## Lists -/

@[simp] theorem waiting_setCall (b : Option StreamCall) : (s.setCall c b).waiting W = s.waiting W :=
  rfl

namespace Queued

theorem shrink (h : Queued W s) (hk : Kernel.Shrinks W s.kernel k) (x : StreamBuffer) :
    Queued W { s with kernel := k, buffer := x } := by
  obtain ⟨husable, hsub⟩ := hk h.usable
  exact ⟨husable, fun t ht => h.pending t (hsub ht)⟩

theorem notMem_of_call (h : Queued W s) (hc : ∀ a, s.call c = some a → a.waitList ≠ W) :
    c ∉ s.waiting W := by
  intro hm
  obtain ⟨a, ha, haW⟩ := h.pending c hm
  exact hc a ha haW

/-- A task that is not on the list leaves its call, or goes into one that waits elsewhere. -/
theorem setCall (h : Queued W s) (hc : c ∉ s.waiting W) (b : Option StreamCall) :
    Queued W (s.setCall c b) := by
  refine ⟨h.usable, fun t ht => ?_⟩
  have htc : t ≠ c := fun e => hc (e ▸ ht)
  rw [setCall_call_of_ne s c b htc]
  exact h.pending t ht

/-- A task outside calls is queued on the list of its call, and on no other. -/
theorem wait (h : Queued W s) (hrun : s.kernel.isRunning = true)
    (hc : s.kernel.currentTcb = some c) (hcall : s.call c = none) :
    Queued W (s.wait c a) ∧ (a.waitList ≠ W → (s.wait c a).waiting W ⊆ s.waiting W) := by
  have hoff : c ∉ s.waiting W := h.notMem_of_call fun b hb => absurd hb (by simp [hcall])
  have hkernel : (waitListBlock s.kernel a.waitList a.timeout).1 =
      switchContext (waitListBlockSection s.kernel c a.waitList a.timeout) := by
    simp only [waitListBlock, hrun, hc]
  rw [StreamSystem.wait, hkernel]
  by_cases haW : a.waitList = W
  · obtain ⟨husable, hmem⟩ := h.usable.block hoff a.timeout
    rw [haW]
    obtain ⟨husable', hsub⟩ := Kernel.Shrinks.switchContext husable
    refine ⟨⟨husable', fun t ht => ?_⟩, fun hne => absurd rfl hne⟩
    by_cases htc : t = c
    · exact ⟨a, by rw [htc, setCall_call_same], haW⟩
    · rw [setCall_call_of_ne _ c _ htc]
      exact h.pending t (((hmem t).1 (hsub ht)).resolve_right htc)
  · have hshrink := (Kernel.Shrinks.block (Ne.symm haW) hoff a.timeout).trans .switchContext
    have hsub := (hshrink h.usable).2
    exact ⟨(h.shrink hshrink s.buffer).setCall (fun hm => hoff (hsub hm)) (some a), fun _ => hsub⟩

/-- A wake-up empties a list on which there is at most one task. -/
theorem unblock (h : Queued W s) (hone : ∀ t ∈ s.waiting W, t = p) :
    ((waitListUnblockHighest s.kernel W).1.waitLists W).nodes = [] := by
  cases hW : (s.kernel.waitLists W).nodes with
  | nil => rw [waitListUnblockHighest_nil hW, hW]
  | cons t rest =>
    have hall : ∀ u ∈ t :: rest, u = p := fun u hu => hone u (by rw [waiting, hW]; exact hu)
    have hnodup := h.usable.nodup
    rw [hW, List.nodup_cons] at hnodup
    rw [h.usable.unblock hW]
    refine List.eq_nil_iff_forall_not_mem.2 fun u hu => hnodup.1 ?_
    rw [hall t List.mem_cons_self, ← hall u (List.mem_cons_of_mem _ hu)]
    exact hu

end Queued

namespace Flowing

theorem only_producer (h : Flowing p q s) : ∀ t ∈ s.waiting waitSend, t = p := by
  intro t ht
  obtain ⟨a, ha, haW⟩ := h.sends.pending t ht
  rw [h.caller t a ha]
  cases a with
  | send data timeout => rfl
  | receive maxLength timeout => exact absurd haW (by simp [StreamCall.waitList, waitSend, waitRecv])

theorem only_consumer (h : Flowing p q s) : ∀ t ∈ s.waiting waitRecv, t = q := by
  intro t ht
  obtain ⟨a, ha, haW⟩ := h.receives.pending t ht
  rw [h.caller t a ha]
  cases a with
  | send data timeout => exact absurd haW (by simp [StreamCall.waitList, waitSend, waitRecv])
  | receive maxLength timeout => rfl

/-- A step that takes tasks off the lists and changes the bytes. -/
theorem of_shrinks (h : Flowing p q s) (hk : ∀ W, Kernel.Shrinks W s.kernel k)
    (hlevel : Level (k.waitLists waitSend).nodes (k.waitLists waitRecv).nodes x) :
    Flowing p q { s with kernel := k, buffer := x } :=
  ⟨h.sends.shrink (hk _) x, h.receives.shrink (hk _) x, h.caller, hlevel⟩

/-- A step that only takes tasks off the lists. -/
theorem of_kernel (h : Flowing p q s) (hk : ∀ W, Kernel.Shrinks W s.kernel k) :
    Flowing p q { s with kernel := k } :=
  h.of_shrinks hk (h.level.mono (hk _ h.sends.usable).2 (hk _ h.receives.usable).2)

theorem notifyUnblockedTask {r : StreamSystem × Option TaskId} (h : Flowing p q r.1) :
    Flowing p q (notifyUnblockedTask r) :=
  h.of_kernel fun _ => .notifyUnblocked _

/-- **Wake-up of the consumer.**  Whatever has happened to the bytes and the trigger level, the
consumer does not wait afterwards if the level is reached. -/
theorem wakeReceiver (h : Flowing p q s) (hx : Level (s.waiting waitSend) [] x) {due : Bool}
    (hdue : due = false → s.waiting waitRecv ≠ [] → x.ringBuf.count < x.triggerLevelBytes) :
    Flowing p q (StreamSystem.wakeReceiver { s with buffer := x } due).1 := by
  rw [StreamSystem.wakeReceiver]
  split_ifs with hwake
  · have hnil := h.receives.unblock h.only_consumer
    refine h.of_shrinks (fun _ => .unblockHighest) ?_
    rw [hnil]
    exact hx.mono (Kernel.Shrinks.unblockHighest h.sends.usable).2 (List.Subset.refl _)
  · refine h.of_shrinks (fun W => .refl W _) ⟨hx.valid, hx.trigger_pos, hx.trigger_le, ?_, hx.full⟩
    intro hne
    cases due with
    | false => exact hdue rfl hne
    | true => exact not_le.1 fun hle => hwake ⟨rfl, hle⟩

/-- **Wake-up of the producer.** -/
theorem wakeSender (h : Flowing p q s) (hx : Level [] (s.waiting waitRecv) x) {bytes : ℕ}
    (hbytes : bytes = 0 → s.waiting waitSend ≠ [] → x.ringBuf.count = x.ringBuf.capacity) :
    Flowing p q (StreamSystem.wakeSender { s with buffer := x } bytes).1 := by
  rw [StreamSystem.wakeSender]
  split_ifs with hwake
  · have hnil := h.sends.unblock h.only_producer
    refine h.of_shrinks (fun _ => .unblockHighest) ?_
    rw [hnil]
    exact hx.mono (List.Subset.refl _) (Kernel.Shrinks.unblockHighest h.receives.usable).2
  · refine h.of_shrinks (fun W => .refl W _) ⟨hx.valid, hx.trigger_pos, hx.trigger_le, hx.below, ?_⟩
    exact hbytes (by omega)

end Flowing

/-! ## The functions -/

namespace Flowing

theorem sendData (h : Flowing p q s) (data : List UInt8) : Flowing p q (s.sendData data).1 :=
  (h.wakeReceiver (h.level.write data) fun e => absurd e (by simp)).notifyUnblockedTask

/-- Bytes that are not read stay. -/
theorem read_none (h : Flowing p q s) {n : ℕ} (hn : (s.buffer.ringBuf.read n).2.length = 0)
    (hne : s.waiting waitSend ≠ []) :
    (s.buffer.ringBuf.read n).1.count = (s.buffer.ringBuf.read n).1.capacity := by
  have hfull := h.level.full hne
  rw [RingBuffer.length_read] at hn
  rw [RingBuffer.count_read, RingBuffer.capacity_read]
  omega

theorem receiveData (h : Flowing p q s) (n : ℕ) : Flowing p q (s.receiveData n).1 :=
  (h.wakeSender (h.level.read n) fun e hne => h.read_none e hne).notifyUnblockedTask

theorem sendFromIsr (h : Flowing p q s) (data : List UInt8) :
    Flowing p q (s.sendFromIsr data).1 := by
  rw [StreamSystem.sendFromIsr]
  split_ifs
  · refine h.wakeReceiver (h.level.write data) fun hdue hne => ?_
    -- nothing was written, so nothing has changed
    have hzero : min s.buffer.ringBuf.free data.length = 0 := by
      rw [Nat.min_comm]
      exact Nat.eq_zero_of_not_pos (of_decide_eq_false hdue)
    rw [RingBuffer.count_write, hzero]
    exact h.level.below hne
  · exact h

theorem receiveFromIsr (h : Flowing p q s) (n : ℕ) : Flowing p q (s.receiveFromIsr n).1 := by
  rw [StreamSystem.receiveFromIsr]
  split_ifs
  · exact h.wakeSender (h.level.read n) fun e hne => h.read_none e hne
  · exact h

theorem setTriggerLevel (h : Flowing p q s) (n : ℕ) : Flowing p q (s.setTriggerLevel n).1 := by
  rw [StreamSystem.setTriggerLevel, if_neg (not_not.2 h.level.valid)]
  split_ifs with hcap
  · exact h
  · refine (h.wakeReceiver ?_ fun e => absurd e (by simp)).notifyUnblockedTask
    have hpos : 1 ≤ StreamBuffer.atLeastOne n := by
      rw [StreamBuffer.atLeastOne]
      split <;> omega
    exact ⟨h.level.valid, hpos, not_lt.1 hcap, fun hne => absurd rfl hne, h.level.full⟩

theorem reset (h : Flowing p q s) : Flowing p q s.reset.1 := by
  have hnil := h.sends.usable.unblockAll
  have hdrained : Flowing p q { s with
      kernel := unblockAll s.kernel waitSend
      buffer := { s.buffer with ringBuf := s.buffer.ringBuf.clear } } := by
    refine h.of_shrinks (fun _ => .unblockAll) ?_
    rw [hnil]
    refine ⟨h.level.valid, h.level.trigger_pos, h.level.trigger_le, fun _ => ?_,
      fun hne => absurd rfl hne⟩
    rw [RingBuffer.count_clear]
    exact h.level.trigger_pos
  rw [StreamSystem.reset, if_neg (not_not.2 h.level.valid)]
  exact hdrained.of_kernel fun W => .rescheduleIfRunning

/-- A task that is off its wait list leaves its call. -/
theorem setCall_none (h : Flowing p q s) (hsend : c ∉ s.waiting waitSend)
    (hrecv : c ∉ s.waiting waitRecv) : Flowing p q (s.setCall c none) := by
  refine ⟨h.sends.setCall hsend none, h.receives.setCall hrecv none, fun t a ha => ?_, h.level⟩
  by_cases htc : t = c
  · rw [htc, setCall_call_same] at ha
    exact absurd ha (by simp)
  · rw [setCall_call_of_ne s c none htc] at ha
    exact h.caller t a ha

/-- **The caller goes into its wait** where the test of its loop fails. -/
theorem wait (h : Flowing p q s) (hrun : s.kernel.isRunning = true)
    (hc : s.kernel.currentTcb = some c) (hcall : s.call c = none) (hcaller : c = a.caller p q)
    (hsend : a.waitList = waitSend → s.buffer.ringBuf.count = s.buffer.ringBuf.capacity)
    (hrecv : a.waitList = waitRecv → s.buffer.ringBuf.count < s.buffer.triggerLevelBytes) :
    Flowing p q (s.wait c a) := by
  obtain ⟨hsends, hsendSub⟩ := h.sends.wait (a := a) hrun hc hcall
  obtain ⟨hreceives, hrecvSub⟩ := h.receives.wait (a := a) hrun hc hcall
  refine ⟨hsends, hreceives, fun t b hb => ?_, ?_⟩
  · by_cases htc : t = c
    · rw [htc, StreamSystem.wait, setCall_call_same] at hb
      rw [← Option.some_inj.1 hb, htc]
      exact hcaller
    · rw [StreamSystem.wait, setCall_call_of_ne _ c _ htc] at hb
      exact h.caller t b hb
  · refine ⟨h.level.valid, h.level.trigger_pos, h.level.trigger_le, fun hne => ?_, fun hne => ?_⟩
    · by_cases haW : a.waitList = waitRecv
      · exact hrecv haW
      · exact (h.level.mono (List.Subset.refl _) (hrecvSub haW)).below hne
    · by_cases haW : a.waitList = waitSend
      · exact hsend haW
      · exact (h.level.mono (hsendSub haW) (List.Subset.refl _)).full hne

/-- **The loop of a call.** -/
theorem proceed (h : Flowing p q s) (hcur : s.currentCall = none)
    (hcaller : ∀ c ∈ s.kernel.currentTcb, c = a.caller p q) : Flowing p q (s.proceed a).1 := by
  have hcall : ∀ c, s.kernel.currentTcb = some c → s.call c = none := by
    intro c hc
    rw [currentCall, hc] at hcur
    exact hcur
  cases a with
  | send data timeout =>
    rw [StreamSystem.proceed]
    split_ifs with hfree hwait
    · exact h
    · split
      · rename_i c hrun hc
        have hfull : s.buffer.ringBuf.count = s.buffer.ringBuf.capacity := by
          have hle := s.buffer.ringBuf.count_le_capacity
          rw [StreamBuffer.freeBytes, Queue.freeBytes_eq, RingBuffer.free] at hfree
          omega
        exact h.wait hrun hc (hcall c hc) (hcaller c hc) (fun _ => hfull) fun e =>
          absurd e (by simp [StreamCall.waitList, waitSend, waitRecv])
      · exact h
    · exact h.sendData data
  | receive maxLength timeout =>
    rw [StreamSystem.proceed]
    split_ifs with hcount hwait
    · exact h.receiveData maxLength
    · split
      · rename_i c hrun hc
        exact h.wait hrun hc (hcall c hc) (hcaller c hc)
          (fun e => absurd e (by simp [StreamCall.waitList, waitSend, waitRecv])) fun _ => hcount
      · exact h.receiveData maxLength
    · exact h.receiveData maxLength

theorem resume (h : Flowing p q s) (hc : s.kernel.currentTcb = some c) (hcall : s.call c = some a)
    (hoff : c ∉ s.waiting a.waitList) : Flowing p q (s.resume c a).1 := by
  have hnotMem : ∀ W, Queued W s → c ∉ s.waiting W := by
    intro W hW
    by_cases haW : a.waitList = W
    · exact haW ▸ hoff
    · refine hW.notMem_of_call fun b hb => ?_
      obtain rfl := Option.some_inj.1 (hcall.symm.trans hb)
      exact haW
  have hleft := h.setCall_none (hnotMem _ h.sends) (hnotMem _ h.receives)
  have hproceed : Flowing p q ((s.setCall c none).proceed a).1 := by
    refine hleft.proceed (by simp [currentCall, hc]) fun d hd => ?_
    obtain rfl := Option.some_inj.1 (hc.symm.trans hd)
    exact h.caller c a hcall
  cases a with
  | send data timeout =>
    simp only [StreamSystem.resume]
    split_ifs
    · exact hleft
    · exact hproceed
  | receive maxLength timeout =>
    simp only [StreamSystem.resume]
    split_ifs
    · exact hleft.receiveData maxLength
    · exact hproceed
    · exact hleft

/-- **Every step keeps the stream flowing.** -/
theorem step (h : Flowing p q s) {op : StreamOp} (hop : op.Allowed p q s) :
    Flowing p q (op.run s) := by
  cases op with
  | kernel b =>
    have hleaves : ∀ W, W = waitSend ∨ W = waitRecv → Queued W s → b.LeavesQueued W s.kernel := by
      intro W hW hqueued
      have hnone : ∀ t, s.call t = none → t ∉ s.waiting W := fun t ht =>
        hqueued.notMem_of_call fun a ha => absurd ha (by simp [ht])
      refine .of_calls hnone ?_ ?_
      · rintro config t rfl
        exact hop
      · rintro V timeout rfl
        obtain ⟨hsend, hrecv, hcur⟩ := hop
        refine ⟨?_, hcur⟩
        rcases hW with rfl | rfl
        · exact hsend.symm
        · exact hrecv.symm
    have hsend := Section.shrinks (hleaves _ (Or.inl rfl) h.sends)
    have hrecv := Section.shrinks (hleaves _ (Or.inr rfl) h.receives)
    exact ⟨h.sends.shrink hsend s.buffer, h.receives.shrink hrecv s.buffer, h.caller,
      h.level.mono (hsend h.sends.usable).2 (hrecv h.receives.usable).2⟩
  | dispatch t =>
    have hshrink : ∀ W, Kernel.Shrinks W s.kernel { s.kernel with currentTcb := some t } :=
      fun W => .of_eq rfl fun _ _ => rfl
    exact h.of_kernel hshrink
  | enter a =>
    rw [StreamOp.run, enter]
    split_ifs
    · exact h.proceed hop.1 hop.2
    · exact h
  | resume =>
    obtain ⟨c, hc, a, ha, hoff⟩ := hop
    rw [StreamOp.run, Option.mem_def.1 hc]
    simp only [Option.mem_def.1 ha]
    exact h.resume hc ha hoff
  | sendFromIsr data => exact h.sendFromIsr data
  | receiveFromIsr n => exact h.receiveFromIsr n
  | setTriggerLevel n => exact h.setTriggerLevel n
  | reset => exact h.reset

end Flowing

/-! ## Runs -/

end StreamSystem

namespace StreamBuffer

variable {x : StreamBuffer}

/-- The stream buffer was set up by one of the two functions that create stream buffers. -/
def Created (x : StreamBuffer) : Prop :=
  (∃ storage storageSize trigger, createStatic storage storageSize trigger = (some x, .ok)) ∨
  ∃ w controlBlock malloc bufferSize trigger,
    create w controlBlock malloc bufferSize trigger = some (some x, .ok)

/-- What a successful `sertos_stream_buffer_create_static` comes to. -/
theorem createStatic_cases {storage : ℕ → UInt8} {storageSize trigger : ℕ}
    (h : createStatic storage storageSize trigger = (some x, .ok)) :
    ∃ r, atLeastOne trigger ≤ r.capacity ∧ RingBuffer.init storage storageSize = some r ∧
      x = ⟨r, atLeastOne trigger, true, streamBufferMagicWord⟩ := by
  rw [createStatic] at h
  split_ifs at h with hsize
  · exact absurd h (by simp)
  · cases hinit : RingBuffer.init storage storageSize with
    | none => simp [hinit] at h
    | some r =>
      simp only [hinit] at h
      split_ifs at h with hcap
      · exact absurd h (by simp)
      · simp only [Prod.mk.injEq, Option.some.injEq, and_true] at h
        exact ⟨r, not_lt.1 hcap, rfl, h.symm⟩

theorem createStatic_level {storage : ℕ → UInt8} {storageSize trigger : ℕ}
    (h : createStatic storage storageSize trigger = (some x, .ok)) :
    StreamSystem.Level [] [] x := by
  obtain ⟨r, hcap, -, rfl⟩ := createStatic_cases h
  have hpos : 1 ≤ atLeastOne trigger := by
    rw [atLeastOne]
    split <;> omega
  exact ⟨rfl, hpos, hcap, fun hne => absurd rfl hne, fun hne => absurd rfl hne⟩

/-- What a successful `sertos_stream_buffer_create` comes to. -/
theorem create_cases {w bufferSize trigger : ℕ} {controlBlock : Bool}
    {malloc : ℕ → Option (ℕ → UInt8)}
    (h : create w controlBlock malloc bufferSize trigger = some (some x, .ok)) :
    ∃ power storage y, Queue.nextPowerOfTwo w ((bufferSize + 1) % 2 ^ w) = some power ∧
      createStatic storage power trigger = (some y, .ok) ∧
      x = { y with isStaticallyAllocated := false } := by
  rw [create] at h
  by_cases hparam : bufferSize = 0
  · rw [if_pos hparam] at h
    exact absurd h (by simp)
  · rw [if_neg hparam] at h
    obtain ⟨power, hpower, h⟩ := Option.map_eq_some_iff.1 h
    cases controlBlock with
    | false => exact absurd h (by simp)
    | true =>
      cases hmalloc : malloc power with
      | none => simp [hmalloc] at h
      | some storage =>
        simp only [hmalloc, if_true] at h
        split at h
        · next y hcreate =>
          simp only [Prod.mk.injEq, Option.some.injEq, and_true] at h
          exact ⟨power, storage, y, hpower, hcreate, h.symm⟩
        · next hne =>
          exact absurd h (hne x)

theorem Created.level (h : x.Created) : StreamSystem.Level [] [] x := by
  rcases h with ⟨storage, storageSize, trigger, h⟩ | ⟨w, controlBlock, malloc, bufferSize, trigger, h⟩
  · exact createStatic_level h
  · obtain ⟨power, storage, y, -, hcreate, rfl⟩ := create_cases h
    obtain ⟨hvalid, hpos, hle, hbelow, hfull⟩ := createStatic_level hcreate
    exact ⟨hvalid, hpos, hle, hbelow, hfull⟩

end StreamBuffer

namespace StreamSystem

open StreamBuffer (waitSend waitRecv)

variable {p q : TaskId} {x : StreamBuffer}

theorem Flowing.init (hx : x.Created) (mem : Kernel) (config : Option Config) (idleStack : ℕ) :
    Flowing p q (StreamSystem.init (initWithConfig mem config idleStack).1 x) := by
  have hempty : ∀ W, (StreamSystem.init (initWithConfig mem config idleStack).1 x).waiting W = [] :=
    fun W => (Kernel.usable_initWithConfig mem config idleStack W).1
  have hqueued : ∀ W, Queued W (StreamSystem.init (initWithConfig mem config idleStack).1 x) := by
    intro W
    refine ⟨(Kernel.usable_initWithConfig mem config idleStack W).2, fun t ht => ?_⟩
    rw [hempty] at ht
    exact absurd ht List.not_mem_nil
  refine ⟨hqueued _, hqueued _, fun t a ha => absurd ha (by simp [StreamSystem.init]), ?_⟩
  rw [hempty, hempty]
  exact hx.level

/-- **Producer and consumer never wait for each other.**  In every run, whatever happens to the
trigger level and the bytes, a consumer waits only below the trigger level, a producer only when the
buffer is full, and never both. -/
theorem producer_consumer_progress (hx : x.Created) (mem : Kernel) (config : Option Config)
    (idleStack : ℕ) {ops : List StreamOp} {s : StreamSystem}
    (h : Trace (StreamOp.Step p q)
      (StreamSystem.init (initWithConfig mem config idleStack).1 x) ops s) :
    1 ≤ s.buffer.triggerLevelBytes ∧
    s.buffer.triggerLevelBytes ≤ s.buffer.ringBuf.capacity ∧
    (s.waiting waitRecv ≠ [] → s.buffer.ringBuf.count < s.buffer.triggerLevelBytes) ∧
    (s.waiting waitSend ≠ [] → s.buffer.ringBuf.count = s.buffer.ringBuf.capacity) ∧
    (∀ t ∈ s.waiting waitSend, t = p) ∧ (∀ t ∈ s.waiting waitRecv, t = q) ∧
    ¬ (p ∈ s.waiting waitSend ∧ q ∈ s.waiting waitRecv) := by
  have hflow : Flowing p q s := by
    refine h.invariant (fun s op s' hs hstep => ?_) (.init hx mem config idleStack)
    obtain ⟨hop, rfl⟩ := hstep
    exact hs.step hop
  refine ⟨hflow.level.trigger_pos, hflow.level.trigger_le, hflow.level.below, hflow.level.full,
    hflow.only_producer, hflow.only_consumer, ?_⟩
  rintro ⟨hp, hq⟩
  have hfull := hflow.level.full (List.ne_nil_of_mem hp)
  have hbelow := hflow.level.below (List.ne_nil_of_mem hq)
  have hle := hflow.level.trigger_le
  omega

/-- A stream buffer for three bytes that wakes its consumer at two. -/
def threeBytes : StreamBuffer :=
  { ringBuf := ((RingBuffer.init (fun _ => 0) 4).get (by decide))
    triggerLevelBytes := 2
    isStaticallyAllocated := true
    magic := streamBufferMagicWord }

/-- The producer, task 1, fills the buffer and waits to send one more byte; the consumer, task 2,
reads two bytes, which wakes it.  The trigger level is raised to three, and the consumer waits with
two bytes stored. -/
def sendAndReceive : List StreamOp :=
  [.kernel (.critical (.create (.ofPriority 2) 1)), .kernel (.critical (.create (.ofPriority 1) 2)),
    .kernel (.start .ok), .enter (.send [1, 2, 3] waitForever), .enter (.send [4] waitForever),
    .enter (.receive 2 noWait), .resume, .setTriggerLevel 3, .kernel (.critical (.delay 5)),
    .kernel .switchContext, .enter (.receive 1 9), .kernel (.critical .tick)]

theorem producer_consumer_progress_run :
    StreamBuffer.createStatic (fun _ => 0) 4 2 = (some threeBytes, .ok) ∧
    ∃ s, Trace (StreamOp.Step 1 2) (StreamSystem.init (initWithConfig bss none 0).1 threeBytes)
        sendAndReceive s ∧ s.waiting waitRecv = [2] ∧ s.buffer.ringBuf.contents = [3, 4] ∧
      s.buffer.ringBuf.count < s.buffer.triggerLevelBytes := by
  have hcreate : StreamBuffer.createStatic (fun _ => 0) 4 2 = (some threeBytes, .ok) := rfl
  have hrun : Trace (StreamOp.Step 1 2)
      (StreamSystem.init (initWithConfig bss none 0).1 threeBytes) sendAndReceive _ :=
    Trace.of_guards (by decide +kernel)
  have hwaiting : (sendAndReceive.foldl StreamOp.run
      (StreamSystem.init (initWithConfig bss none 0).1 threeBytes)).waiting waitRecv = [2] := by
    decide +kernel
  obtain ⟨-, -, hbelow, -⟩ :=
    producer_consumer_progress (.inl ⟨_, _, _, hcreate⟩) bss none 0 hrun
  exact ⟨hcreate, _, hrun, hwaiting, by decide +kernel, hbelow (by rw [hwaiting]; simp)⟩

end StreamSystem

end Sertos
