import Sertos.StreamWakeUps

/-!
# The stream buffer is a bounded FIFO of bytes

What the callers of one stream buffer see of it, in any interleaving of the calls of any number of
tasks and interrupts: the bytes a send says it has taken, and the bytes a receive hands out.  These
are the events of the bounded FIFO of `Lib.Fifo`, one for each byte, and a call that waits is seen
only when it comes back (`StreamCall.events`).

The functions that look at the buffer without changing it are here too.
-/

set_option autoImplicit false

namespace Sertos

open Intrusive Lts Scheduler

namespace StreamBuffer

/-- `sertos_stream_buffer_bytes_available`. -/
def bytesAvailable (x : StreamBuffer) : ℕ := if ¬ x.IsValid then 0 else x.ringBuf.count

/-- `sertos_stream_buffer_spaces_available`. -/
def spacesAvailable (x : StreamBuffer) : ℕ := if ¬ x.IsValid then 0 else freeBytes x.ringBuf

/-- `sertos_stream_buffer_is_empty`. -/
def isEmpty (x : StreamBuffer) : Bool := if ¬ x.IsValid then true else x.ringBuf.count = 0

/-- `sertos_stream_buffer_is_full`. -/
def isFull (x : StreamBuffer) : Bool :=
  if ¬ x.IsValid then false else x.ringBuf.count = x.ringBuf.capacity

end StreamBuffer

/-- What a call that has come to `reply` is seen as. -/
def StreamCall.events (reply : StreamReply) : StreamCall → List (Fifo.Event UInt8)
  | .send data _ => match reply with
    | .waits => []
    | .returns bytes _ => (data.take bytes).map .accepted
  | .receive _ _ => match reply with
    | .waits => []
    | .returns _ data => data.map .delivered

/-- What a step is seen as. -/
def StreamOp.events (s : StreamSystem) : StreamOp → List (Fifo.Event UInt8)
  | .enter a => a.events (s.enter a).2
  | .resume => match s.kernel.currentTcb with
    | some c => match s.call c with
      | some a => a.events (s.resume c a).2
      | none => []
    | none => []
  | .sendFromIsr data => (data.take (s.sendFromIsr data).2.1).map .accepted
  | .receiveFromIsr maxLength => (s.receiveFromIsr maxLength).2.1.map .delivered
  | .reset => if s.reset.2 = .ok then [.cleared] else []
  | .kernel _ | .dispatch _ | .setTriggerLevel _ => []

namespace StreamBuffer

variable {x y z : StreamBuffer} {es fs : List (Fifo.Event UInt8)}

/-- From `x` to `y` the buffer has seen `es`. -/
structure Flow (es : List (Fifo.Event UInt8)) (x y : StreamBuffer) : Prop where
  magic : y.magic = x.magic
  capacity : y.ringBuf.capacity = x.ringBuf.capacity
  bytes : Trace (Fifo.Step x.ringBuf.capacity) x.ringBuf.contents es y.ringBuf.contents
  trigger : 1 ≤ x.triggerLevelBytes ∧ x.triggerLevelBytes ≤ x.ringBuf.capacity →
    1 ≤ y.triggerLevelBytes ∧ y.triggerLevelBytes ≤ y.ringBuf.capacity

namespace Flow

theorem refl (x : StreamBuffer) : Flow [] x x := ⟨rfl, rfl, .nil _, id⟩

/-- **Writing** is seen as the bytes that fit in. -/
theorem write (x : StreamBuffer) (data : List UInt8) :
    Flow ((data.take (x.ringBuf.write data).2).map .accepted) x
      { x with ringBuf := (x.ringBuf.write data).1 } := by
  have hcap := RingBuffer.capacity_write data (r := x.ringBuf)
  refine ⟨rfl, hcap, ?_, fun h => by rw [hcap]; exact h⟩
  have htake : data.take (x.ringBuf.write data).2 = data.take x.ringBuf.free := by
    rw [RingBuffer.write, Nat.min_comm]
    exact List.take_eq_take_iff.2 (by omega)
  rw [htake, RingBuffer.contents_write]
  refine Fifo.accepted_all _ ?_
  have hle := x.ringBuf.count_le_capacity
  rw [RingBuffer.length_contents, List.length_take, RingBuffer.free]
  omega

/-- **Reading** is seen as the bytes that are there. -/
theorem read (x : StreamBuffer) (n : ℕ) :
    Flow ((x.ringBuf.read n).2.map .delivered) x { x with ringBuf := (x.ringBuf.read n).1 } := by
  refine ⟨rfl, rfl, ?_, id⟩
  have htrace : Trace (Fifo.Step x.ringBuf.capacity)
      (x.ringBuf.contents.take n ++ x.ringBuf.contents.drop n)
      ((x.ringBuf.contents.take n).map .delivered) (x.ringBuf.contents.drop n) :=
    Fifo.delivered_all _
  rwa [List.take_append_drop, ← RingBuffer.read_snd, ← RingBuffer.contents_read] at htrace

theorem clear (x : StreamBuffer) :
    Flow [.cleared] x { x with ringBuf := x.ringBuf.clear } := by
  refine ⟨rfl, rfl, ?_, id⟩
  rw [RingBuffer.contents_clear]
  exact .single (.cleared _)

theorem setTriggerLevel {n : ℕ} (h : ¬ x.ringBuf.capacity < atLeastOne n) :
    Flow [] x { x with triggerLevelBytes := atLeastOne n } := by
  refine ⟨rfl, rfl, .nil _, fun _ => ⟨?_, not_lt.1 h⟩⟩
  dsimp only
  rw [atLeastOne]
  split <;> omega

end Flow

end StreamBuffer

namespace StreamSystem

open StreamBuffer (Flow waitSend waitRecv)

variable {s : StreamSystem} {c : TaskId} {a : StreamCall}

/-! ## The functions -/

@[simp] theorem wakeReceiver_buffer (due : Bool) :
    (s.wakeReceiver due).1.buffer = s.buffer := by
  rw [wakeReceiver]
  split <;> rfl

@[simp] theorem wakeSender_buffer (bytes : ℕ) : (s.wakeSender bytes).1.buffer = s.buffer := by
  rw [wakeSender]
  split <;> rfl

@[simp] theorem notifyUnblockedTask_buffer (r : StreamSystem × Option TaskId) :
    (notifyUnblockedTask r).buffer = r.1.buffer := rfl

theorem sendData_flow (s : StreamSystem) (data : List UInt8) (timeout : ℕ) :
    Flow ((StreamCall.send data timeout).events (s.sendData data).2) s.buffer
      (s.sendData data).1.buffer := by
  rw [sendData, notifyUnblockedTask_buffer, wakeReceiver_buffer]
  exact .write s.buffer data

theorem receiveData_flow (s : StreamSystem) (n timeout : ℕ) :
    Flow ((StreamCall.receive n timeout).events (s.receiveData n).2) s.buffer
      (s.receiveData n).1.buffer := by
  rw [receiveData, notifyUnblockedTask_buffer, wakeSender_buffer]
  exact .read s.buffer n

/-- **The loop of a call.** -/
theorem proceed_flow (s : StreamSystem) (a : StreamCall) :
    Flow (a.events (s.proceed a).2) s.buffer (s.proceed a).1.buffer := by
  cases a with
  | send data timeout =>
    rw [proceed]
    split_ifs with hfree hwait
    · exact .refl s.buffer
    · split
      · exact .refl s.buffer
      · exact .refl s.buffer
    · exact s.sendData_flow data timeout
  | receive n timeout =>
    rw [proceed]
    split_ifs with hcount hwait
    · exact s.receiveData_flow n timeout
    · split
      · exact .refl s.buffer
      · exact s.receiveData_flow n timeout
    · exact s.receiveData_flow n timeout

theorem enter_flow (s : StreamSystem) (a : StreamCall) :
    Flow (a.events (s.enter a).2) s.buffer (s.enter a).1.buffer := by
  rw [enter]
  split_ifs with hparams
  · exact s.proceed_flow a
  · cases a with
    | send data timeout => exact .refl s.buffer
    | receive n timeout => exact .refl s.buffer

theorem resume_flow (s : StreamSystem) (c : TaskId) (a : StreamCall) :
    Flow (a.events (s.resume c a).2) s.buffer (s.resume c a).1.buffer := by
  cases a with
  | send data timeout =>
    simp only [resume]
    split_ifs with hfails
    · exact .refl s.buffer
    · exact (s.setCall c none).proceed_flow (.send data timeout)
  | receive n timeout =>
    simp only [resume]
    split_ifs with hvalid hstatus
    · exact (s.setCall c none).receiveData_flow n timeout
    · exact (s.setCall c none).proceed_flow (.receive n timeout)
    · exact .refl s.buffer

theorem sendFromIsr_flow (s : StreamSystem) (data : List UInt8) :
    Flow ((data.take (s.sendFromIsr data).2.1).map .accepted) s.buffer
      (s.sendFromIsr data).1.buffer := by
  rw [sendFromIsr]
  split_ifs
  · rw [wakeReceiver_buffer]
    exact .write s.buffer data
  · exact .refl s.buffer

theorem receiveFromIsr_flow (s : StreamSystem) (n : ℕ) :
    Flow ((s.receiveFromIsr n).2.1.map .delivered) s.buffer (s.receiveFromIsr n).1.buffer := by
  rw [receiveFromIsr]
  split_ifs
  · rw [wakeSender_buffer]
    exact .read s.buffer n
  · exact .refl s.buffer

theorem setTriggerLevel_flow (s : StreamSystem) (n : ℕ) :
    Flow [] s.buffer (s.setTriggerLevel n).1.buffer := by
  rw [setTriggerLevel]
  split_ifs with hvalid hcap
  · exact .refl s.buffer
  · rw [notifyUnblockedTask_buffer, wakeReceiver_buffer]
    exact .setTriggerLevel hcap
  · exact .refl s.buffer

theorem reset_flow (s : StreamSystem) :
    Flow (if s.reset.2 = .ok then [.cleared] else []) s.buffer s.reset.1.buffer := by
  by_cases hvalid : s.buffer.IsValid
  · rw [reset, if_neg (not_not.2 hvalid), if_pos rfl]
    exact .clear s.buffer
  · rw [reset, if_pos hvalid, if_neg (by simp)]
    exact .refl s.buffer

/-- **One step** is seen as steps of the bounded FIFO. -/
theorem step_flow (s : StreamSystem) (op : StreamOp) :
    Flow (op.events s) s.buffer (op.run s).buffer := by
  cases op with
  | kernel b => exact .refl s.buffer
  | dispatch t => exact .refl s.buffer
  | enter a => exact s.enter_flow a
  | resume =>
    simp only [StreamOp.events, StreamOp.run]
    cases s.kernel.currentTcb with
    | none => exact .refl s.buffer
    | some c =>
      cases hcall : s.call c with
      | none =>
        simp only [hcall]
        exact .refl s.buffer
      | some a =>
        simp only [hcall]
        exact s.resume_flow c a
  | sendFromIsr data => exact s.sendFromIsr_flow data
  | receiveFromIsr n => exact s.receiveFromIsr_flow n
  | setTriggerLevel n => exact s.setTriggerLevel_flow n
  | reset => exact s.reset_flow

/-! ## Runs -/

/-- What holds of a stream buffer whose steps were seen as `es`. -/
structure Streams (es : List (Fifo.Event UInt8)) (s : StreamSystem) : Prop where
  /-- The steps were those of a bounded FIFO. -/
  fifo : Trace (Fifo.Step s.buffer.ringBuf.capacity) [] es s.buffer.ringBuf.contents
  /-- The bytes are the ones that were accepted since the last reset and not received yet. -/
  order : (Fifo.history es).accepted = (Fifo.history es).delivered ++ s.buffer.ringBuf.contents
  bytesAvailable : s.buffer.bytesAvailable = s.buffer.ringBuf.contents.length
  total : s.buffer.bytesAvailable + s.buffer.spacesAvailable = s.buffer.ringBuf.capacity
  isEmpty : s.buffer.isEmpty = true ↔ s.buffer.ringBuf.contents = []
  isFull : s.buffer.isFull = true ↔ s.buffer.spacesAvailable = 0
  /-- Some number of bytes is enough for the next receive. -/
  trigger : 1 ≤ s.buffer.triggerLevelBytes ∧
    s.buffer.triggerLevelBytes ≤ s.buffer.ringBuf.capacity
  /-- A send takes as many bytes as there is room for, and does not wait if there is some. -/
  send : ∀ data timeout, data ≠ [] → 0 < s.buffer.spacesAvailable ∨ timeout = noWait →
    (s.enter (.send data timeout)).2 = .returns (min data.length s.buffer.spacesAvailable) []
  /-- A receive reads as many bytes as there are, and does not wait if the level is reached. -/
  receive : ∀ n timeout, 0 < n →
    s.buffer.triggerLevelBytes ≤ s.buffer.bytesAvailable ∨ timeout = noWait →
    (s.enter (.receive n timeout)).2 =
      .returns (min n s.buffer.bytesAvailable) (s.buffer.ringBuf.contents.take n)

section Enter

variable (hvalid : s.buffer.IsValid)
include hvalid

theorem bytesAvailable_eq : s.buffer.bytesAvailable = s.buffer.ringBuf.count :=
  if_neg (not_not.2 hvalid)

theorem spacesAvailable_eq : s.buffer.spacesAvailable = s.buffer.ringBuf.free := by
  rw [StreamBuffer.spacesAvailable, if_neg (not_not.2 hvalid), StreamBuffer.freeBytes,
    Queue.freeBytes_eq]

theorem enter_send {data : List UInt8} {timeout : ℕ} (hdata : data ≠ [])
    (h : 0 < s.buffer.spacesAvailable ∨ timeout = noWait) :
    (s.enter (.send data timeout)).2 = .returns (min data.length s.buffer.spacesAvailable) [] := by
  have hparams : (StreamCall.send data timeout).ParamsValid s.buffer :=
    ⟨hvalid, List.length_pos_iff.2 hdata⟩
  rw [enter, if_pos hparams, proceed, StreamBuffer.freeBytes, Queue.freeBytes_eq]
  rw [spacesAvailable_eq hvalid] at h ⊢
  split_ifs with hfree hwait
  · simp [hfree]
  · exact absurd (h.resolve_right hwait) (by omega)
  · rfl

theorem enter_receive {n timeout : ℕ} (hn : 0 < n)
    (h : s.buffer.triggerLevelBytes ≤ s.buffer.bytesAvailable ∨ timeout = noWait) :
    (s.enter (.receive n timeout)).2 =
      .returns (min n s.buffer.bytesAvailable) (s.buffer.ringBuf.contents.take n) := by
  have hparams : (StreamCall.receive n timeout).ParamsValid s.buffer := ⟨hvalid, hn⟩
  have hread : (s.receiveData n).2 =
      .returns (min n s.buffer.bytesAvailable) (s.buffer.ringBuf.contents.take n) := by
    rw [bytesAvailable_eq hvalid, ← RingBuffer.length_read, ← RingBuffer.read_snd]
    rfl
  rw [bytesAvailable_eq hvalid] at h
  rw [enter, if_pos hparams, proceed]
  split_ifs with hcount hwait
  · exact hread
  · exact absurd (h.resolve_right hwait) (by omega)
  · exact hread

end Enter

end StreamSystem

namespace StreamBuffer

theorem Created.contents {x : StreamBuffer} (h : x.Created) : x.ringBuf.contents = [] := by
  rcases h with ⟨storage, storageSize, trigger, h⟩ | ⟨w, controlBlock, malloc, bufferSize, trigger, h⟩
  · obtain ⟨r, -, hinit, rfl⟩ := createStatic_cases h
    exact (RingBuffer.init_spec hinit).1
  · obtain ⟨power, storage, y, -, hcreate, rfl⟩ := create_cases h
    obtain ⟨r, -, hinit, rfl⟩ := createStatic_cases hcreate
    exact (RingBuffer.init_spec hinit).1

end StreamBuffer

namespace StreamSystem

/-- **The stream buffer refines a bounded FIFO of bytes,** in every interleaving of its functions
with anything the kernel does.  Nothing is asked of the callers: any number of tasks may send and
receive. -/
theorem refines_byteFifo {k : Kernel} {x : StreamBuffer} (hcreated : x.Created)
    {ops : List StreamOp} {s : StreamSystem}
    (h : Trace (Guarded (fun _ _ => True) StreamOp.run) (StreamSystem.init k x) ops s) :
    s.buffer.ringBuf.capacity = x.ringBuf.capacity ∧
      Streams (outputs StreamOp.run (fun s op => op.events s) (StreamSystem.init k x) ops).flatten
        s := by
  have hlevel := hcreated.level
  obtain ⟨⟨hcap, hmagic, htrigger⟩, htrace⟩ := h.simulation_flatten
    (I := fun s => s.buffer.ringBuf.capacity = x.ringBuf.capacity ∧ s.buffer.magic = x.magic ∧
      1 ≤ s.buffer.triggerLevelBytes ∧ s.buffer.triggerLevelBytes ≤ s.buffer.ringBuf.capacity)
    (S := Fifo.Step x.ringBuf.capacity) (p := fun s => s.buffer.ringBuf.contents)
    (o := fun s op => op.events s) (fun s op hI _ => by
      obtain ⟨hcap, hmagic, htrigger⟩ := hI
      have hflow := s.step_flow op
      exact ⟨⟨hflow.capacity.trans hcap, hflow.magic.trans hmagic, hflow.trigger htrigger⟩,
        hcap ▸ hflow.bytes⟩)
    ⟨rfl, rfl, hlevel.trigger_pos, hlevel.trigger_le⟩
  have hempty : (StreamSystem.init k x).buffer.ringBuf.contents = [] := hcreated.contents
  rw [hempty] at htrace
  have hvalid : s.buffer.IsValid := hmagic.trans hlevel.valid
  have hbytes := bytesAvailable_eq hvalid
  have hspaces := spacesAvailable_eq hvalid
  have hle := s.buffer.ringBuf.count_le_capacity
  rw [RingBuffer.free] at hspaces
  refine ⟨hcap, hcap ▸ htrace, Fifo.order htrace, by rw [hbytes, RingBuffer.length_contents],
    by omega, ?_, ?_, htrigger, fun data timeout hdata => enter_send hvalid hdata,
    fun n timeout hn => enter_receive hvalid hn⟩
  · rw [StreamBuffer.isEmpty, if_neg (not_not.2 hvalid), decide_eq_true_iff,
      ← List.length_eq_zero_iff, RingBuffer.length_contents]
  · rw [StreamBuffer.isFull, if_neg (not_not.2 hvalid), decide_eq_true_iff]
    omega

/-- Two bytes are sent, one of them is received, and of the next four three fit in, the last of
which wraps around; then the level is raised, and a receive that does not wait gets all. -/
def partialSends : List StreamOp :=
  [.enter (.send [1, 2] noWait), .receiveFromIsr 1, .sendFromIsr [3, 4, 5, 6], .setTriggerLevel 3,
    .enter (.receive 2 noWait)]

theorem refines_byteFifo_wrapped :
    StreamBuffer.createStatic (fun _ => 0) 4 2 = (some threeBytes, .ok) ∧
    ∃ s, Trace (Guarded (fun _ _ => True) StreamOp.run) (StreamSystem.init bss threeBytes)
        partialSends s ∧
      (outputs StreamOp.run (fun s op => op.events s) (StreamSystem.init bss threeBytes)
        partialSends).flatten = [.accepted 1, .accepted 2, .delivered 1, .accepted 3, .accepted 4,
          .delivered 2, .delivered 3] ∧
      Streams (outputs StreamOp.run (fun s op => op.events s) (StreamSystem.init bss threeBytes)
        partialSends).flatten s := by
  have hcreate : StreamBuffer.createStatic (fun _ => 0) 4 2 = (some threeBytes, .ok) := rfl
  have hrun : Trace (Guarded (fun _ _ => True) StreamOp.run) (StreamSystem.init bss threeBytes)
      partialSends _ := Trace.of_guards (by decide +kernel)
  obtain ⟨-, hstreams⟩ := refines_byteFifo (.inl ⟨_, _, _, hcreate⟩) hrun
  exact ⟨hcreate, _, hrun, by decide +kernel, hstreams⟩

end StreamSystem

end Sertos
