import Sertos.Lib.Ownership
import Sertos.Lifecycle
import Sertos.Queue
import Sertos.StreamBuffer
import Sertos.Timer

/-!
# The blocks of the memory pool

The functions that create and delete the six kinds of objects, as far as they concern memory: what
they allocate, what they give back, and which fields of the control block decide about it.  The pool
itself is a git submodule of the repository.  What `memory_pool_malloc` returns is an argument here
— `NULL`, or any block that is not outstanding — and `memory_pool_free` is only watched:
`Pool.misfreed` tells whether it was ever given anything but an outstanding block.

`Application.live` lists the objects whose handles the application holds.  It is not read by the
code; `Application.Balanced` relates it to the blocks that are outstanding.
-/

set_option autoImplicit false

namespace Sertos

/-! ## Memory -/

/-- The address of a control block, a stack or a storage buffer: in the pool, or in memory of the
caller. -/
inductive Addr
  | pool (n : ℕ)
  | caller (n : ℕ)
deriving DecidableEq, Repr

/-- The kinds of objects. -/
inductive ObjectKind
  | task
  | sem
  | mutex
  | queue
  | streamBuffer
  | timer
deriving DecidableEq, Repr

/-- The magic word of the control block. -/
def ObjectKind.magicWord : ObjectKind → ℕ
  | .task => Task.magicWord
  | .sem => semMagicWord
  | .mutex => mutexMagicWord
  | .queue => queueMagicWord
  | .streamBuffer => streamBufferMagicWord
  | .timer => timerMagicWord

/-- Objects of the kind have a stack or a storage buffer. -/
def ObjectKind.hasBuffer : ObjectKind → Bool
  | .task | .queue | .streamBuffer => true
  | .sem | .mutex | .timer => false

/-- The fields of a control block that deletion reads. -/
structure ControlBlock where
  magic : ℕ
  isStaticallyAllocated : Bool
  /-- `stack_base` of a task, `storage_buffer` of a queue or a stream buffer. -/
  buffer : Option Addr
  /-- The state of a task. -/
  state : TaskState
deriving DecidableEq, Repr

/-- The control blocks and the pool. -/
structure Pool where
  control : Addr → ControlBlock
  /-- The blocks that were allocated and not freed. -/
  outstanding : List Addr
  /-- `memory_pool_free` was called with something that is not outstanding. -/
  misfreed : Bool

namespace Pool

/-- `memory_pool_malloc`; `m` is what it returns. -/
def malloc (s : Pool) (m : Option ℕ) : Pool × Option Addr :=
  match m with
  | none => (s, none)
  | some n => ({ s with outstanding := .pool n :: s.outstanding }, some (.pool n))

/-- `memory_pool_free`. -/
def free (s : Pool) (p : Option Addr) : Pool :=
  match p with
  | none => { s with misfreed := true }
  | some a =>
    if a ∈ s.outstanding then { s with outstanding := s.outstanding.erase a }
    else { s with misfreed := true }

/-- Writes a control block. -/
def put (s : Pool) (a : Addr) (b : ControlBlock) : Pool :=
  { s with control := Function.update s.control a b }

/-- `is_statically_allocated = false`. -/
def setDynamic (s : Pool) (a : Addr) : Pool :=
  s.put a { s.control a with isStaticallyAllocated := false }

/-! ## Creation with memory of the caller -/

/-- What an initialised control block holds. -/
def initialised (kind : ObjectKind) (isStatic : Bool) (buffer : Option Addr) : ControlBlock :=
  ⟨kind.magicWord, isStatic, buffer, .ready⟩

/-- The status of `sertos_scheduler_add_ready` for a task of priority `p`. -/
def addReadyStatus (p : ℕ) : Status := if maxPriorities ≤ p then .errorInvalidParam else .ok

/-- `sertos_task_create_static`. -/
def taskCreateStatic (s : Pool) (config : Option TaskConfig) (tcb : Option Addr)
    (outHandle : Bool) : Pool × Status :=
  match tcb, outHandle with
  | some a, true =>
    match config with
    | none => (s, .errorInvalidParam)
    | some config => match config.stackBuffer with
      | none => (s, .errorInvalidParam)
      | some stack => match Task.validateTaskConfig config with
        | .ok => (s.put a (initialised .task true (some (.caller stack))),
            addReadyStatus config.priority)
        | e => (s, e)
  | _, _ => (s, .errorNullPtr)

/-- `sertos_sem_create_counting_static`. -/
def semCreateCountingStatic (s : Pool) (sem : Option Addr) (initialCount maxCount : ℕ)
    (outHandle : Bool) : Pool × Status :=
  match sem, outHandle with
  | some a, true => match (Sem.createCountingStatic initialCount maxCount).2 with
    | .ok => (s.put a (initialised .sem true none), .ok)
    | e => (s, e)
  | _, _ => (s, .errorNullPtr)

/-- `initial_state ? 1U : 0U`. -/
def initialCount (initialState : Bool) : ℕ := if initialState then 1 else 0

/-- `sertos_sem_create_binary_static`. -/
def semCreateBinaryStatic (s : Pool) (sem : Option Addr) (initialState outHandle : Bool) :
    Pool × Status :=
  semCreateCountingStatic s sem (initialCount initialState) 1 outHandle

/-- `sertos_mutex_create_static`. -/
def mutexCreateStatic (s : Pool) (mutex : Option Addr) (outHandle : Bool) : Pool × Status :=
  match mutex, outHandle with
  | some a, true => (s.put a (initialised .mutex true none), .ok)
  | _, _ => (s, .errorNullPtr)

/-- `sertos_queue_create_static`.  Whether it succeeds does not depend on what the storage holds. -/
def queueCreateStatic (s : Pool) (queue storage : Option Addr) (storageSize itemSize : ℕ)
    (outHandle : Bool) : Pool × Status :=
  match queue, storage, outHandle with
  | some a, some b, true => match (Queue.createStatic (fun _ => 0) storageSize itemSize).2 with
    | .ok => (s.put a (initialised .queue true (some b)), .ok)
    | e => (s, e)
  | _, _, _ => (s, .errorNullPtr)

/-- `sertos_stream_buffer_create_static`. -/
def streamBufferCreateStatic (s : Pool) (streamBuf storage : Option Addr)
    (storageSize triggerLevelBytes : ℕ) (outHandle : Bool) : Pool × Status :=
  match streamBuf, storage, outHandle with
  | some a, some b, true =>
    match (StreamBuffer.createStatic (fun _ => 0) storageSize triggerLevelBytes).2 with
    | .ok => (s.put a (initialised .streamBuffer true (some b)), .ok)
    | e => (s, e)
  | _, _, _ => (s, .errorNullPtr)

/-- `sertos_timer_create_static`. -/
def timerCreateStatic (s : Pool) (config : Option TimerConfig) (timer : Option Addr)
    (outHandle : Bool) : Pool × Status :=
  match config, timer, outHandle with
  | some config, some a, true =>
    if config.period = 0 ∨ config.callback = none then (s, .errorInvalidParam)
    else (s.put a (initialised .timer true none), .ok)
  | _, _, _ => (s, .errorNullPtr)

/-! ## Creation with memory of the pool -/

/-- The common shape of the functions that allocate a control block and nothing else. -/
def createOne (s : Pool) (outHandle : Bool) (m : Option ℕ)
    (createStatic : Pool → Option Addr → Pool × Status) : Pool × Status :=
  if outHandle then
    match s.malloc m with
    | (s, none) => (s, .errorNoMemory)
    | (s, some a) => match createStatic s (some a) with
      | (s, .ok) => (s.setDynamic a, .ok)
      | (s, e) => (s.free (some a), e)
  else (s, .errorNullPtr)

/-- The common shape of the functions that allocate a control block and storage. -/
def createTwo (s : Pool) (m₁ m₂ : Option ℕ)
    (createStatic : Pool → Option Addr → Option Addr → Pool × Status) : Pool × Status :=
  match s.malloc m₁ with
  | (s, none) => (s, .errorNoMemory)
  | (s, some a) => match s.malloc m₂ with
    | (s, none) => (s.free (some a), .errorNoMemory)
    | (s, some b) => match createStatic s (some a) (some b) with
      | (s, .ok) => (s.setDynamic a, .ok)
      | (s, e) => ((s.free (some b)).free (some a), e)

/-- `sertos_task_create`. -/
def taskCreate (s : Pool) (config : Option TaskConfig) (outHandle : Bool) (m₁ m₂ : Option ℕ) :
    Pool × Status :=
  match outHandle, config with
  | false, _ => (s, .errorNullPtr)
  | true, none => (s, .errorNullPtr)
  | true, some config => match Task.validateTaskConfig config with
    | .ok => match s.malloc m₁ with
      | (s, none) => (s, .errorNoMemory)
      | (s, some tcb) => match s.malloc m₂ with
        | (s, none) => (s.free (some tcb), .errorNoMemory)
        | (s, some stackBuf) =>
          let s := s.put tcb (initialised .task false (some stackBuf))
          match addReadyStatus config.priority with
          | .ok => (s, .ok)
          | e => ((s.free (some stackBuf)).free (some tcb), e)
    | e => (s, e)

/-- `sertos_sem_create_counting`. -/
def semCreateCounting (s : Pool) (initialCount maxCount : ℕ) (outHandle : Bool) (m : Option ℕ) :
    Pool × Status :=
  createOne s outHandle m fun s sem => semCreateCountingStatic s sem initialCount maxCount outHandle

/-- `sertos_sem_create_binary`. -/
def semCreateBinary (s : Pool) (initialState outHandle : Bool) (m : Option ℕ) : Pool × Status :=
  semCreateCounting s (initialCount initialState) 1 outHandle m

/-- `sertos_mutex_create`. -/
def mutexCreate (s : Pool) (outHandle : Bool) (m : Option ℕ) : Pool × Status :=
  createOne s outHandle m fun s mutex => mutexCreateStatic s mutex outHandle

/-- `sertos_queue_create` on a `size_t` of `w` bits; `none` if it does not return. -/
def queueCreate (w : ℕ) (s : Pool) (itemSize maxItems : ℕ) (outHandle : Bool)
    (m₁ m₂ : Option ℕ) : Option (Pool × Status) :=
  if outHandle then
    if itemSize = 0 ∨ maxItems = 0 then some (s, .errorInvalidParam)
    else
      let neededBytes := (itemSize * maxItems + 1) % 2 ^ w
      (Queue.nextPowerOfTwo w neededBytes).map fun powerCapacity =>
        createTwo s m₁ m₂ fun s queue storage =>
          queueCreateStatic s queue storage powerCapacity itemSize outHandle
  else some (s, .errorNullPtr)

/-- `sertos_stream_buffer_create` on a `size_t` of `w` bits; `none` if it does not return. -/
def streamBufferCreate (w : ℕ) (s : Pool) (bufferSize triggerLevelBytes : ℕ) (outHandle : Bool)
    (m₁ m₂ : Option ℕ) : Option (Pool × Status) :=
  if outHandle then
    if bufferSize = 0 then some (s, .errorInvalidParam)
    else
      let neededBytes := (bufferSize + 1) % 2 ^ w
      (Queue.nextPowerOfTwo w neededBytes).map fun powerCapacity =>
        createTwo s m₁ m₂ fun s streamBuf storage =>
          streamBufferCreateStatic s streamBuf storage powerCapacity triggerLevelBytes outHandle
  else some (s, .errorNullPtr)

/-- `sertos_timer_create`. -/
def timerCreate (s : Pool) (config : Option TimerConfig) (outHandle : Bool) (m : Option ℕ) :
    Pool × Status :=
  createOne s outHandle m fun s timer => timerCreateStatic s config timer outHandle

/-! ## Deletion -/

/-- The common shape of the deletions that clear the magic word. -/
def deleteObject (s : Pool) (kind : ObjectKind) (handle : Option Addr)
    (release : Pool → Addr → Pool) :
    Pool × Status :=
  match handle with
  | none => (s, .errorInvalidParam)
  | some a =>
    if (s.control a).magic ≠ kind.magicWord then (s, .errorInvalidParam)
    else
      let s := s.put a { s.control a with magic := 0 }
      (if (s.control a).isStaticallyAllocated then s else release s a, .ok)

/-- `memory_pool_free(handle)`. -/
def freeOne (s : Pool) (a : Addr) : Pool := s.free (some a)

/-- `memory_pool_free(handle->storage_buffer)`, then `memory_pool_free(handle)`. -/
def freeTwo (s : Pool) (a : Addr) : Pool := (s.free (s.control a).buffer).free (some a)

/-- `sertos_task_delete`; `current` is the current task, for which the handle `NULL` stands. -/
def taskDelete (s : Pool) (current handle : Option Addr) : Pool × Status :=
  match handle.or current with
  | none => (s, .errorInvalidParam)
  | some tcb =>
    if (s.control tcb).magic = Task.magicWord ∧
        Task.isValidTransition (s.control tcb).state .terminated then
      let s := s.put tcb { s.control tcb with state := .terminated }
      (if (s.control tcb).isStaticallyAllocated then s else freeTwo s tcb, .ok)
    else (s, .errorInvalidParam)

/-- `sertos_sem_delete`. -/
def semDelete (s : Pool) (handle : Option Addr) : Pool × Status :=
  deleteObject s .sem handle freeOne

/-- `sertos_mutex_delete`. -/
def mutexDelete (s : Pool) (handle : Option Addr) : Pool × Status :=
  deleteObject s .mutex handle freeOne

/-- `sertos_queue_delete`. -/
def queueDelete (s : Pool) (handle : Option Addr) : Pool × Status :=
  deleteObject s .queue handle freeTwo

/-- `sertos_stream_buffer_delete`. -/
def streamBufferDelete (s : Pool) (handle : Option Addr) : Pool × Status :=
  deleteObject s .streamBuffer handle freeTwo

/-- `sertos_timer_delete`. -/
def timerDelete (s : Pool) (handle : Option Addr) : Pool × Status :=
  deleteObject s .timer handle freeOne

end Pool

end Sertos
