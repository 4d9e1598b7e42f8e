import Sertos.Mutex
import Sertos.Lib.RingBuffer

/-!
# Message queues

The functions of `sertos_queue.c`.  A queue keeps its items as bytes in a ring buffer, a submodule
taken at its documented behaviour (`RingBuffer`); its two wait lists are lists of the kernel,
`Queue.waitSend` and `Queue.waitRecv`.

What a call does to the queue itself, inside its critical section, is `sendData`, `receiveData` and
`peekData`; they need no kernel.  `sertos_queue_send`, `sertos_queue_receive` and
`sertos_queue_peek` are one loop around them: test, and if the test fails wait and start again.
`QueueSystem.proceed` is that loop up to the point where the caller waits or the call returns, and
`QueueSystem.resume` is what the caller does when it runs again.
-/

set_option autoImplicit false

namespace Sertos

open Intrusive Scheduler

/-- `SERTOS_QUEUE_MAGIC_WORD`. -/
def queueMagicWord : ℕ := 0x51554555

/-- `SertosQueue`, without its wait lists. -/
structure Queue where
  ringBuf : RingBuffer UInt8
  itemSize : ℕ
  maxItems : ℕ
  isStaticallyAllocated : Bool
  magic : ℕ

namespace Queue

/-! ## The bytes -/

/-- `queue_free_bytes`. -/
def freeBytes (r : RingBuffer UInt8) : ℕ := if r.count < r.capacity then r.capacity - r.count else 0

/-- `queue_peek_bytes`. -/
def peekBytes (r : RingBuffer UInt8) (count : ℕ) : List UInt8 :=
  (List.range count).map fun i => r.buffer ((r.tail + i) &&& r.mask)

/-- The rounds of `next_power_of_two`, on a `size_t` of `w` bits.  Once the bit has been shifted out
the loop does not end. -/
def nextPowerOfTwoFrom (w value : ℕ) : ℕ → ℕ → Option ℕ
  | 0, _ => none
  | n + 1, p => if p < value then nextPowerOfTwoFrom w value n (p * 2 % 2 ^ w) else some p

/-- `next_power_of_two`, of which `sertos_stream_buffer.c` has a copy. -/
def nextPowerOfTwo (w value : ℕ) : Option ℕ := nextPowerOfTwoFrom w value (w + 1) 2

/-- `sertos_queue_create_static`; `storage` is what the storage holds. -/
def createStatic (storage : ℕ → UInt8) (storageSize itemSize : ℕ) : Option Queue × Status :=
  if itemSize = 0 ∨ storageSize < 2 then (none, .errorInvalidParam)
  else match RingBuffer.init storage storageSize with
    | none => (none, .errorInvalidParam)
    | some r =>
      (some
        { ringBuf := r
          itemSize := itemSize
          maxItems := r.capacity / itemSize
          isStaticallyAllocated := true
          magic := queueMagicWord }, .ok)

/-- `sertos_queue_create` on a `size_t` of `w` bits.  `controlBlock` says whether there is memory
for the `SertosQueue`, `malloc` what `memory_pool_malloc` returns for the storage.  `none` if the
call does not return. -/
def create (w : ℕ) (controlBlock : Bool) (malloc : ℕ → Option (ℕ → UInt8))
    (itemSize maxItems : ℕ) : Option (Option Queue × Status) :=
  if itemSize = 0 ∨ maxItems = 0 then some (none, .errorInvalidParam)
  else
    let neededBytes := (itemSize * maxItems + 1) % 2 ^ w
    (nextPowerOfTwo w neededBytes).map fun powerCapacity =>
      if controlBlock then
        match malloc powerCapacity with
        | none => (none, .errorNoMemory)
        | some storage => match createStatic storage powerCapacity itemSize with
          | (some x, .ok) => (some { x with isStaticallyAllocated := false }, .ok)
          | r => r
      else (none, .errorNoMemory)

/-- The data step of `sertos_queue_send`, or `none` if the queue is full. -/
def sendData (x : Queue) (item : List UInt8) : Option Queue :=
  if freeBytes x.ringBuf < x.itemSize then none
  else some { x with ringBuf := (x.ringBuf.write (item.take x.itemSize)).1 }

/-- The data step of `sertos_queue_receive`, or `none` if the queue is empty. -/
def receiveData (x : Queue) : Option (Queue × List UInt8) :=
  if x.ringBuf.count < x.itemSize then none
  else
    let r := x.ringBuf.read x.itemSize
    some ({ x with ringBuf := r.1 }, r.2)

/-- The data step of `sertos_queue_peek`, or `none` if the queue is empty. -/
def peekData (x : Queue) : Option (List UInt8) :=
  if x.ringBuf.count < x.itemSize then none else some (peekBytes x.ringBuf x.itemSize)

/-- The data step of `sertos_queue_reset`. -/
def resetData (x : Queue) : Queue := { x with ringBuf := x.ringBuf.clear }

/-- `sertos_queue_get_count`. -/
def getCount (x : Queue) : ℕ :=
  if x.magic ≠ queueMagicWord then 0 else x.ringBuf.count / x.itemSize

/-- `sertos_queue_get_spaces_available`. -/
def getSpacesAvailable (x : Queue) : ℕ :=
  if x.magic ≠ queueMagicWord then 0 else freeBytes x.ringBuf / x.itemSize

/-- `wait_send`. -/
def waitSend : WaitList := .other 0

/-- `wait_recv`. -/
def waitRecv : WaitList := .other 1

end Queue

/-! ## The calls -/

/-- A call that can wait, with its arguments. -/
inductive QueueCall
  | send (item : List UInt8) (timeout : ℕ)
  | receive (timeout : ℕ)
  | peek (timeout : ℕ)
deriving DecidableEq, Repr

namespace QueueCall

def timeout : QueueCall → ℕ
  | .send _ timeout | .receive timeout | .peek timeout => timeout

/-- The list the call waits on. -/
def waitList : QueueCall → WaitList
  | .send _ _ => Queue.waitSend
  | .receive _ | .peek _ => Queue.waitRecv

end QueueCall

/-- What a call has come to. -/
inductive QueueReply
  /-- The caller is in its wait. -/
  | waits
  /-- The call has returned, with the item it has written to its caller. -/
  | returns (status : Status) (item : Option (List UInt8))
deriving DecidableEq, Repr

/-- The kernel and one queue.  The wait lists of all other objects are lists of the kernel. -/
structure QueueSystem where
  kernel : Kernel
  queue : Queue
  /-- The call a task is waiting in, if it is. -/
  call : TaskId → Option QueueCall

namespace QueueSystem

/-- Notes the call in which a task waits. -/
def setCall (s : QueueSystem) (t : TaskId) (a : Option QueueCall) : QueueSystem :=
  { s with call := Function.update s.call t a }

section SetCall

variable (s : QueueSystem) (t : TaskId) (a : Option QueueCall)

@[simp] theorem setCall_kernel : (s.setCall t a).kernel = s.kernel := rfl
@[simp] theorem setCall_queue : (s.setCall t a).queue = s.queue := rfl
@[simp] theorem setCall_call_same : (s.setCall t a).call t = a := by simp [setCall]

theorem setCall_call_of_ne {u : TaskId} (h : u ≠ t) : (s.setCall t a).call u = s.call u := by
  simp [setCall, h]

end SetCall

/-- A call that passes its test: the data step and, except for a peek, the wake-up of the other
side.  `none` if the test fails. -/
def attempt (s : QueueSystem) : QueueCall → Option (QueueSystem × Option (List UInt8))
  | .send item _ => match s.queue.sendData item with
    | none => none
    | some x =>
      let r := waitListUnblockHighest s.kernel Queue.waitRecv
      some ({ s with queue := x, kernel := notifyUnblocked r.1 r.2 }, none)
  | .receive _ => match s.queue.receiveData with
    | none => none
    | some (x, item) =>
      let r := waitListUnblockHighest s.kernel Queue.waitSend
      some ({ s with queue := x, kernel := notifyUnblocked r.1 r.2 }, some item)
  | .peek _ => match s.queue.peekData with
    | none => none
    | some item => some (s, some item)

/-- The loop of a call, up to the next point where the call waits or returns. -/
def proceed (s : QueueSystem) (a : QueueCall) : QueueSystem × QueueReply :=
  match s.attempt a with
  | some (s, item) => (s, .returns .ok item)
  | none =>
    if a.timeout = noWait then (s, .returns .errorTimeout none)
    else match s.kernel.isRunning, s.kernel.currentTcb with
      | true, some c =>
        (({ s with kernel := (waitListBlock s.kernel a.waitList a.timeout).1 } :
          QueueSystem).setCall c (some a), .waits)
      | _, _ => (s, .returns .errorNotInitialized none)

/-- `sertos_queue_send`, `sertos_queue_receive` or `sertos_queue_peek`, up to its blocking point. -/
def enter (s : QueueSystem) (a : QueueCall) : QueueSystem × QueueReply :=
  if s.queue.magic ≠ queueMagicWord then (s, .returns .errorInvalidParam none) else s.proceed a

/-- The call `a` of the task `c` goes on when `c` runs again. -/
def resume (s : QueueSystem) (c : TaskId) (a : QueueCall) : QueueSystem × QueueReply :=
  let status := waitListBlockStatus s.kernel c a.timeout
  if status ≠ .ok then (s.setCall c none, .returns status none)
  else (s.setCall c none).proceed a

/-- `sertos_queue_send_from_isr`. -/
def sendFromIsr (s : QueueSystem) (item : List UInt8) : QueueSystem × Status × Bool :=
  if s.queue.magic ≠ queueMagicWord then (s, .errorInvalidParam, false)
  else match s.queue.sendData item with
    | none => (s, .errorResourceBusy, false)
    | some x =>
      let r := waitListUnblockHighest s.kernel Queue.waitRecv
      ({ s with queue := x, kernel := r.1 }, .ok, higherPrioWoken r.1 r.2)

/-- `sertos_queue_receive_from_isr`, with the item it writes. -/
def receiveFromIsr (s : QueueSystem) : QueueSystem × Status × Option (List UInt8) × Bool :=
  if s.queue.magic ≠ queueMagicWord then (s, .errorInvalidParam, none, false)
  else match s.queue.receiveData with
    | none => (s, .errorResourceBusy, none, false)
    | some (x, item) =>
      let r := waitListUnblockHighest s.kernel Queue.waitSend
      ({ s with queue := x, kernel := r.1 }, .ok, some item, higherPrioWoken r.1 r.2)

/-- `sertos_queue_reset`. -/
def reset (s : QueueSystem) : QueueSystem × Status :=
  if s.queue.magic ≠ queueMagicWord then (s, .errorInvalidParam)
  else ({ s with queue := s.queue.resetData }, .ok)

/-- `sertos_queue_delete`.  What a pool that gets the memory back does with it is not modelled: the
queue keeps the values it had. -/
def delete (s : QueueSystem) : QueueSystem × Status :=
  if s.queue.magic ≠ queueMagicWord then (s, .errorInvalidParam)
  else
    let k := unblockAll (unblockAll s.kernel Queue.waitSend) Queue.waitRecv
    ({ s with
      queue := { s.queue with magic := 0 }
      kernel := rescheduleIfRunning k }, .ok)

end QueueSystem

end Sertos
