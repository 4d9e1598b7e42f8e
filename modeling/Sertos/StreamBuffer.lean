import Sertos.Queue

/-!
# Stream buffers

The functions of `sertos_stream_buffer.c`: a stream of bytes from one producer to one consumer, in
the same ring buffer as that of the queues.  A receiver waits until the number of stored bytes has
reached the trigger level, which can be changed while it waits; a sender waits until there is room
for a byte.  Both take or write as much as there is.

As for the queues, a call is cut where it waits: `StreamSystem.proceed` is its loop up to that
point, and `StreamSystem.resume` is how it goes on.  Unlike the queues' calls it looks at the magic
word again then, and a receive whose time is up still reads what is there.
-/

set_option autoImplicit false

namespace Sertos

open Intrusive Scheduler

/-- `SERTOS_STREAM_BUFFER_MAGIC_WORD`. -/
def streamBufferMagicWord : ℕ := 0x53545242

/-- `SertosStreamBuffer`, without its wait lists. -/
structure StreamBuffer where
  ringBuf : RingBuffer UInt8
  triggerLevelBytes : ℕ
  isStaticallyAllocated : Bool
  magic : ℕ

namespace StreamBuffer

/-- `is_valid_handle`. -/
def IsValid (x : StreamBuffer) : Prop := x.magic = streamBufferMagicWord

instance (x : StreamBuffer) : Decidable x.IsValid :=
  inferInstanceAs (Decidable (x.magic = streamBufferMagicWord))

/-- `stream_buffer_free_bytes`, which is `queue_free_bytes` again. -/
def freeBytes (r : RingBuffer UInt8) : ℕ := Queue.freeBytes r

/-- A trigger level of zero means one. -/
def atLeastOne (level : ℕ) : ℕ := if level = 0 then 1 else level

/-- `sertos_stream_buffer_create_static`. -/
def createStatic (storage : ℕ → UInt8) (storageSize triggerLevelBytes : ℕ) :
    Option StreamBuffer × Status :=
  if storageSize < 2 then (none, .errorInvalidParam)
  else match RingBuffer.init storage storageSize with
    | none => (none, .errorInvalidParam)
    | some r =>
      if r.capacity < atLeastOne triggerLevelBytes then (none, .errorInvalidParam)
      else
        (some
          { ringBuf := r
            triggerLevelBytes := atLeastOne triggerLevelBytes
            isStaticallyAllocated := true
            magic := streamBufferMagicWord }, .ok)

/-- `sertos_stream_buffer_create`, with the memory as for `Queue.create`; its `next_power_of_two` is
that of the queues again. -/
def create (w : ℕ) (controlBlock : Bool) (malloc : ℕ → Option (ℕ → UInt8))
    (bufferSize triggerLevelBytes : ℕ) : Option (Option StreamBuffer × Status) :=
  if bufferSize = 0 then some (none, .errorInvalidParam)
  else
    let neededBytes := (bufferSize + 1) % 2 ^ w
    (Queue.nextPowerOfTwo w neededBytes).map fun powerCapacity =>
      if controlBlock then
        match malloc powerCapacity with
        | none => (none, .errorNoMemory)
        | some storage => match createStatic storage powerCapacity triggerLevelBytes with
          | (some x, .ok) => (some { x with isStaticallyAllocated := false }, .ok)
          | r => r
      else (none, .errorNoMemory)

/-- `wait_send`. -/
def waitSend : WaitList := .other 2

/-- `wait_recv`. -/
def waitRecv : WaitList := .other 3

end StreamBuffer

/-- A call that can wait, with its arguments. -/
inductive StreamCall
  | send (data : List UInt8) (timeout : ℕ)
  | receive (maxLength timeout : ℕ)
deriving DecidableEq, Repr

namespace StreamCall

def timeout : StreamCall → ℕ
  | .send _ timeout | .receive _ timeout => timeout

/-- The list the call waits on. -/
def waitList : StreamCall → WaitList
  | .send _ _ => StreamBuffer.waitSend
  | .receive _ _ => StreamBuffer.waitRecv

/-- `is_send_params_valid` and `is_recv_params_valid`. -/
def ParamsValid (x : StreamBuffer) : StreamCall → Prop
  | .send data _ => x.IsValid ∧ 0 < data.length
  | .receive maxLength _ => x.IsValid ∧ 0 < maxLength

instance (x : StreamBuffer) : DecidablePred (ParamsValid x)
  | .send data _ => inferInstanceAs (Decidable (x.IsValid ∧ 0 < data.length))
  | .receive maxLength _ => inferInstanceAs (Decidable (x.IsValid ∧ 0 < maxLength))

end StreamCall

/-- What a call has come to. -/
inductive StreamReply
  /-- The caller is in its wait. -/
  | waits
  /-- The call has returned a number of bytes, and has written `data` to its caller. -/
  | returns (bytes : ℕ) (data : List UInt8)
deriving DecidableEq, Repr

/-- The kernel and one stream buffer. -/
structure StreamSystem where
  kernel : Kernel
  buffer : StreamBuffer
  /-- The call a task is waiting in, if it is. -/
  call : TaskId → Option StreamCall

namespace StreamSystem

/-- Notes the call in which a task waits. -/
def setCall (s : StreamSystem) (t : TaskId) (a : Option StreamCall) : StreamSystem :=
  { s with call := Function.update s.call t a }

section SetCall

variable (s : StreamSystem) (t : TaskId) (a : Option StreamCall)

@[simp] theorem setCall_kernel : (s.setCall t a).kernel = s.kernel := rfl
@[simp] theorem setCall_buffer : (s.setCall t a).buffer = s.buffer := rfl
@[simp] theorem setCall_call_same : (s.setCall t a).call t = a := by simp [setCall]

theorem setCall_call_of_ne {u : TaskId} (h : u ≠ t) : (s.setCall t a).call u = s.call u := by
  simp [setCall, h]

end SetCall

/-- Wakes the receiver if the stored bytes have reached the trigger level; `due` is what the caller
tests besides. -/
def wakeReceiver (s : StreamSystem) (due : Bool) : StreamSystem × Option TaskId :=
  if due ∧ s.buffer.triggerLevelBytes ≤ s.buffer.ringBuf.count then
    let r := waitListUnblockHighest s.kernel StreamBuffer.waitRecv
    ({ s with kernel := r.1 }, r.2)
  else (s, none)

/-- Wakes the sender if bytes were read. -/
def wakeSender (s : StreamSystem) (bytes : ℕ) : StreamSystem × Option TaskId :=
  if 0 < bytes then
    let r := waitListUnblockHighest s.kernel StreamBuffer.waitSend
    ({ s with kernel := r.1 }, r.2)
  else (s, none)

/-- `ring_buffer_write` on the buffer, and the number of bytes written. -/
def write (s : StreamSystem) (data : List UInt8) : StreamSystem × ℕ :=
  let r := s.buffer.ringBuf.write data
  ({ s with buffer := { s.buffer with ringBuf := r.1 } }, r.2)

/-- `ring_buffer_read` on the buffer, and the bytes read. -/
def read (s : StreamSystem) (maxLength : ℕ) : StreamSystem × List UInt8 :=
  let r := s.buffer.ringBuf.read maxLength
  ({ s with buffer := { s.buffer with ringBuf := r.1 } }, r.2)

/-- `notify_unblocked_task`. -/
def notifyUnblockedTask (r : StreamSystem × Option TaskId) : StreamSystem :=
  { r.1 with kernel := notifyUnblocked r.1.kernel r.2 }

/-- The end of `sertos_stream_buffer_send`, behind its loop. -/
def sendData (s : StreamSystem) (data : List UInt8) : StreamSystem × StreamReply :=
  let r := s.write data
  (notifyUnblockedTask (wakeReceiver r.1 true), .returns r.2 [])

/-- The end of `sertos_stream_buffer_receive`, behind its loop. -/
def receiveData (s : StreamSystem) (maxLength : ℕ) : StreamSystem × StreamReply :=
  let r := s.read maxLength
  (notifyUnblockedTask (wakeSender r.1 r.2.length), .returns r.2.length r.2)

/-- The caller goes into its wait. -/
def wait (s : StreamSystem) (c : TaskId) (a : StreamCall) : StreamSystem :=
  ({ s with kernel := (waitListBlock s.kernel a.waitList a.timeout).1 } : StreamSystem).setCall c
    (some a)

/-- The loop of a call, up to the next point where the call waits or returns.  Without a running
scheduler `sertos_scheduler_wait_list_block` returns an error at once: the send gives up, the
receive reads what is there. -/
def proceed (s : StreamSystem) : StreamCall → StreamSystem × StreamReply
  | .send data timeout =>
    if StreamBuffer.freeBytes s.buffer.ringBuf = 0 then
      if timeout = noWait then (s, .returns 0 [])
      else match s.kernel.isRunning, s.kernel.currentTcb with
        | true, some c => (s.wait c (.send data timeout), .waits)
        | _, _ => (s, .returns 0 [])
    else s.sendData data
  | .receive maxLength timeout =>
    if s.buffer.ringBuf.count < s.buffer.triggerLevelBytes then
      if timeout = noWait then s.receiveData maxLength
      else match s.kernel.isRunning, s.kernel.currentTcb with
        | true, some c => (s.wait c (.receive maxLength timeout), .waits)
        | _, _ => s.receiveData maxLength
    else s.receiveData maxLength

/-- `sertos_stream_buffer_send` or `sertos_stream_buffer_receive`, up to its blocking point. -/
def enter (s : StreamSystem) (a : StreamCall) : StreamSystem × StreamReply :=
  if a.ParamsValid s.buffer then s.proceed a else (s, .returns 0 [])

/-- The call `a` of the task `c` goes on when `c` runs again. -/
def resume (s : StreamSystem) (c : TaskId) (a : StreamCall) : StreamSystem × StreamReply :=
  let status := waitListBlockStatus s.kernel c a.timeout
  let s := s.setCall c none
  match a with
  | .send _ _ =>
    if status ≠ .ok ∨ ¬ s.buffer.IsValid then (s, .returns 0 []) else s.proceed a
  | .receive maxLength _ =>
    if ¬ s.buffer.IsValid then (s, .returns 0 [])
    else if status ≠ .ok then s.receiveData maxLength
    else s.proceed a

/-- `sertos_stream_buffer_send_from_isr`. -/
def sendFromIsr (s : StreamSystem) (data : List UInt8) : StreamSystem × ℕ × Bool :=
  if s.buffer.IsValid ∧ 0 < data.length then
    let r := s.write data
    let q := wakeReceiver r.1 (0 < r.2)
    (q.1, r.2, higherPrioWoken q.1.kernel q.2)
  else (s, 0, false)

/-- `sertos_stream_buffer_receive_from_isr`, with the bytes it writes to its caller. -/
def receiveFromIsr (s : StreamSystem) (maxLength : ℕ) : StreamSystem × List UInt8 × Bool :=
  if s.buffer.IsValid ∧ 0 < maxLength then
    let r := s.read maxLength
    let q := wakeSender r.1 r.2.length
    (q.1, r.2, higherPrioWoken q.1.kernel q.2)
  else (s, [], false)

/-- `sertos_stream_buffer_set_trigger_level`. -/
def setTriggerLevel (s : StreamSystem) (triggerLevelBytes : ℕ) : StreamSystem × Status :=
  if ¬ s.buffer.IsValid then (s, .errorInvalidParam)
  else if s.buffer.ringBuf.capacity < StreamBuffer.atLeastOne triggerLevelBytes then
    (s, .errorInvalidParam)
  else
    let s := { s with buffer := { s.buffer with
      triggerLevelBytes := StreamBuffer.atLeastOne triggerLevelBytes } }
    (notifyUnblockedTask (wakeReceiver s true), .ok)

/-- `sertos_stream_buffer_reset`. -/
def reset (s : StreamSystem) : StreamSystem × Status :=
  if ¬ s.buffer.IsValid then (s, .errorInvalidParam)
  else
    let k := unblockAll s.kernel StreamBuffer.waitSend
    ({ s with
      buffer := { s.buffer with ringBuf := s.buffer.ringBuf.clear }
      kernel := rescheduleIfRunning k }, .ok)

end StreamSystem

end Sertos
