import Sertos.Lib.Trace
import Sertos.Pool

/-!
# The pool balances

Two specifications carry the argument.  A call that creates an object either fails and leaves pool
and control blocks as they were, or has taken exactly the blocks of the new object (`Pool.Creates`).
A call that deletes one either fails and changes nothing, or has given exactly its blocks back
(`Pool.Deletes`); that rests on what creation has left in the control block (`Object.Recorded`).

`pool_balances` puts them together for every run.
-/

set_option autoImplicit false

namespace Sertos

open Lts Ownership

/-! ## Objects -/

/-- An object in memory of the caller, or one whose control block, and buffer if it has one, are in
the pool. -/
inductive Object
  | static (kind : ObjectKind) (n : ℕ)
  | dynamic (kind : ObjectKind) (n : ℕ) (buffer : Option ℕ) (h : buffer.isSome = kind.hasBuffer)
deriving DecidableEq

namespace Object

def kind : Object → ObjectKind
  | .static kind _ | .dynamic kind _ _ _ => kind

/-- The address of the control block. -/
def handle : Object → Addr
  | .static _ n => .caller n
  | .dynamic _ n _ _ => .pool n

/-- The blocks of the pool that belong to the object: its stack or storage buffer, and its control
block. -/
def blocks : Object → List Addr
  | .static _ _ => []
  | .dynamic _ n buffer _ => (buffer.map Addr.pool).toList ++ [.pool n]

/-- The control block tells how to delete the object. -/
def Recorded : Object → ControlBlock → Prop
  | .static kind _, b => b.magic = kind.magicWord ∧ b.isStaticallyAllocated = true
  | .dynamic kind _ buffer _, b => b.magic = kind.magicWord ∧ b.isStaticallyAllocated = false ∧
    b.buffer = buffer.map Addr.pool

variable {o : Object} {b : ControlBlock}

theorem Recorded.magic (h : o.Recorded b) : b.magic = o.kind.magicWord := by
  cases o <;> exact h.1

/-- Whatever happens to its state, a control block says the same about deletion. -/
theorem Recorded.setState (h : o.Recorded b) (state : TaskState) :
    o.Recorded { b with state := state } := by
  cases o <;> exact h

end Object

/-! ## What creation does -/

namespace Pool

variable {s : Pool} {a b : Addr} {n : ℕ} {kind : ObjectKind} {o : Object}

@[simp] theorem put_control (s : Pool) (a : Addr) (b : ControlBlock) :
    (s.put a b).control = Function.update s.control a b := rfl

theorem free_of_mem (h : a ∈ s.outstanding) :
    s.free (some a) = { s with outstanding := s.outstanding.erase a } := by
  simp [free, h]

/-- A block that is given back right away has never been taken. -/
theorem free_malloc (s : Pool) (n : ℕ) : (s.malloc (some n)).1.free (some (.pool n)) = s := by
  simp [malloc, free]

/-- The call fails and changes nothing, or it takes the blocks of its object. -/
def Creates (s : Pool) (object : Option Object) (r : Pool × Status) : Prop :=
  (r.2 ≠ .ok ∧ r.1 = s) ∨ ∃ o b, object = some o ∧ o.Recorded b ∧ r.2 = .ok ∧
    r.1 = { s with
      outstanding := o.blocks ++ s.outstanding
      control := Function.update s.control o.handle b }

/-- The call initialises the control block at `a`, or fails and changes nothing. -/
def Constructs (s : Pool) (kind : ObjectKind) (a : Addr) (buffer : Option Addr)
    (r : Pool × Status) :
    Prop :=
  (r.2 ≠ .ok ∧ r.1 = s) ∨ (r.2 = .ok ∧ r.1 = s.put a (initialised kind true buffer))

theorem Constructs.failed {buffer : Option Addr} {e : Status} (he : e ≠ .ok) :
    s.Constructs kind a buffer (s, e) := Or.inl ⟨he, rfl⟩

theorem Constructs.done {buffer : Option Addr} :
    s.Constructs kind a buffer (s.put a (initialised kind true buffer), .ok) := Or.inr ⟨rfl, rfl⟩

/-! ### Static creation -/

theorem addReadyStatus_of_valid {config : TaskConfig}
    (h : Task.validateTaskConfig config = .ok) : addReadyStatus config.priority = .ok := by
  rw [addReadyStatus, if_neg]
  intro hp
  simp only [Task.validateTaskConfig, hp, if_true] at h
  split at h <;> simp at h

theorem taskCreateStatic_constructs (s : Pool) (config : Option TaskConfig) (a : Addr)
    (outHandle : Bool) :
    s.Constructs .task a ((config.bind TaskConfig.stackBuffer).map .caller)
      (taskCreateStatic s config (some a) outHandle) := by
  cases outHandle with
  | false => exact .failed (by simp)
  | true =>
    cases config with
    | none => exact .failed (by simp)
    | some config =>
      simp only [taskCreateStatic, Option.bind_some]
      cases config.stackBuffer with
      | none => exact .failed (by simp)
      | some stack =>
        simp only [Option.map_some]
        split
        · next hv =>
          rw [addReadyStatus_of_valid hv]
          exact .done
        · next hne => exact .failed hne

theorem semCreateCountingStatic_constructs (s : Pool) (a : Addr) (initialCount maxCount : ℕ)
    (outHandle : Bool) :
    s.Constructs .sem a none
      (semCreateCountingStatic s (some a) initialCount maxCount outHandle) := by
  cases outHandle with
  | false => exact .failed (by simp)
  | true =>
    simp only [semCreateCountingStatic]
    split
    · exact .done
    · next hne => exact .failed hne

theorem mutexCreateStatic_constructs (s : Pool) (a : Addr) (outHandle : Bool) :
    s.Constructs .mutex a none (mutexCreateStatic s (some a) outHandle) := by
  cases outHandle with
  | false => exact .failed (by simp)
  | true => exact .done

theorem queueCreateStatic_constructs (s : Pool) (a : Addr) (storage : Option Addr)
    (storageSize itemSize : ℕ) (outHandle : Bool) :
    s.Constructs .queue a storage
      (queueCreateStatic s (some a) storage storageSize itemSize outHandle) := by
  cases storage with
  | none => exact .failed (by simp)
  | some b =>
    cases outHandle with
    | false => exact .failed (by simp)
    | true =>
      simp only [queueCreateStatic]
      split
      · exact .done
      · next hne => exact .failed hne

theorem streamBufferCreateStatic_constructs (s : Pool) (a : Addr) (storage : Option Addr)
    (storageSize triggerLevelBytes : ℕ) (outHandle : Bool) :
    s.Constructs .streamBuffer a storage
      (streamBufferCreateStatic s (some a) storage storageSize triggerLevelBytes outHandle) := by
  cases storage with
  | none => exact .failed (by simp)
  | some b =>
    cases outHandle with
    | false => exact .failed (by simp)
    | true =>
      simp only [streamBufferCreateStatic]
      split
      · exact .done
      · next hne => exact .failed hne

theorem timerCreateStatic_constructs (s : Pool) (config : Option TimerConfig) (a : Addr)
    (outHandle : Bool) :
    s.Constructs .timer a none (timerCreateStatic s config (some a) outHandle) := by
  cases config with
  | none => exact .failed (by simp)
  | some config =>
    cases outHandle with
    | false => exact .failed (by simp)
    | true =>
      simp only [timerCreateStatic]
      split
      · exact .failed (by simp)
      · exact .done

/-- A static creation, for a pointer of the caller that may be `NULL`. -/
theorem creates_of_constructs {f : Option Addr → Pool × Status} (p : Option ℕ)
    (hnull : (f none).2 ≠ .ok ∧ (f none).1 = s)
    (h : ∀ n, ∃ buffer, s.Constructs kind (.caller n) buffer (f (some (.caller n)))) :
    s.Creates (p.map (.static kind)) (f (p.map .caller)) := by
  cases p with
  | none => exact Or.inl hnull
  | some n =>
    obtain ⟨buffer, hfail | ⟨hok, e⟩⟩ := h n
    · exact Or.inl hfail
    · exact Or.inr ⟨_, initialised kind true buffer, rfl, ⟨rfl, rfl⟩, hok, e⟩

/-! ### Dynamic creation -/

theorem setDynamic_put (s : Pool) (a : Addr) (buffer : Option Addr) :
    (s.put a (initialised kind true buffer)).setDynamic a =
      s.put a (initialised kind false buffer) := by
  simp [setDynamic, put, initialised]

theorem createOne_creates {createStatic : Pool → Option Addr → Pool × Status}
    (hk : (none : Option ℕ).isSome = kind.hasBuffer)
    (h : ∀ s a, Constructs s kind a none (createStatic s (some a))) (s : Pool) (outHandle : Bool)
    (m : Option ℕ) :
    s.Creates (m.map fun n => .dynamic kind n none hk) (createOne s outHandle m createStatic) := by
  cases outHandle with
  | false => exact Or.inl ⟨by simp [createOne], rfl⟩
  | true =>
    cases m with
    | none => exact Or.inl ⟨by simp [createOne, malloc], rfl⟩
    | some n =>
      have hfree := free_malloc s n
      simp only [createOne, if_true, malloc] at hfree ⊢
      generalize hs : ({ s with outstanding := .pool n :: s.outstanding } : Pool) = s₁ at hfree ⊢
      have hc := h s₁ (.pool n)
      generalize createStatic s₁ (some (.pool n)) = r at hc ⊢
      obtain ⟨s₂, status⟩ := r
      rcases hc with ⟨hne, rfl⟩ | ⟨rfl, rfl⟩
      · refine Or.inl ?_
        cases status with
        | ok => exact absurd rfl hne
        | _ => exact ⟨hne, hfree⟩
      · refine Or.inr ⟨_, initialised kind false none, rfl, ⟨rfl, rfl, rfl⟩, rfl, ?_⟩
        show (s₁.put _ _).setDynamic _ = _
        rw [setDynamic_put, ← hs]
        rfl

/-- The object for two blocks, if both were allocated. -/
def twoBlocks (kind : ObjectKind) (hk : ∀ b : ℕ, (some b).isSome = kind.hasBuffer)
    (m₁ m₂ : Option ℕ) : Option Object :=
  match m₁, m₂ with
  | some n, some b => some (.dynamic kind n (some b) (hk b))
  | _, _ => none

/-- Two blocks that are given back, the second first, have never been taken. -/
theorem free_malloc_malloc (s : Pool) (n b : ℕ) :
    ((((s.malloc (some n)).1.malloc (some b)).1.free (some (.pool b))).free (some (.pool n))) = s := by
  rw [free_malloc, free_malloc]

theorem createTwo_creates {createStatic : Pool → Option Addr → Option Addr → Pool × Status}
    (hk : ∀ b : ℕ, (some b).isSome = kind.hasBuffer)
    (h : ∀ s a b, Constructs s kind a (some b) (createStatic s (some a) (some b))) (s : Pool)
    (m₁ m₂ : Option ℕ) :
    s.Creates (twoBlocks kind hk m₁ m₂) (createTwo s m₁ m₂ createStatic) := by
  cases m₁ with
  | none => exact Or.inl ⟨by simp [createTwo, malloc], rfl⟩
  | some n =>
    cases m₂ with
    | none => exact Or.inl ⟨by simp [createTwo, malloc], free_malloc s n⟩
    | some b =>
      have hfree := free_malloc_malloc s n b
      simp only [createTwo, malloc] at hfree ⊢
      generalize hs : ({ s with outstanding := .pool b :: .pool n :: s.outstanding } : Pool) = s₁
        at hfree ⊢
      have hc := h s₁ (.pool n) (.pool b)
      generalize createStatic s₁ (some (.pool n)) (some (.pool b)) = r at hc ⊢
      obtain ⟨s₂, status⟩ := r
      rcases hc with ⟨hne, rfl⟩ | ⟨rfl, rfl⟩
      · refine Or.inl ?_
        cases status with
        | ok => exact absurd rfl hne
        | _ => exact ⟨hne, hfree⟩
      · refine Or.inr ⟨_, initialised kind false (some (.pool b)), rfl, ⟨rfl, rfl, rfl⟩, rfl, ?_⟩
        show (s₁.put _ _).setDynamic _ = _
        rw [setDynamic_put, ← hs]
        rfl

theorem taskCreate_creates (s : Pool) (config : Option TaskConfig) (outHandle : Bool)
    (m₁ m₂ : Option ℕ) :
    s.Creates (twoBlocks .task (fun _ => rfl) m₁ m₂) (taskCreate s config outHandle m₁ m₂) := by
  cases outHandle with
  | false => exact Or.inl ⟨by simp [taskCreate], rfl⟩
  | true =>
    cases config with
    | none => exact Or.inl ⟨by simp [taskCreate], rfl⟩
    | some config =>
      simp only [taskCreate]
      split
      · next hv =>
        cases m₁ with
        | none => exact Or.inl ⟨by simp [malloc], rfl⟩
        | some n =>
          cases m₂ with
          | none => exact Or.inl ⟨by simp [malloc], free_malloc s n⟩
          | some b =>
            simp only [malloc, addReadyStatus_of_valid hv]
            exact Or.inr ⟨_, initialised .task false (some (.pool b)), rfl, ⟨rfl, rfl, rfl⟩, rfl, rfl⟩
      · next hne => exact Or.inl ⟨hne, rfl⟩

theorem queueCreate_creates {w : ℕ} {s : Pool} {itemSize maxItems : ℕ} {outHandle : Bool}
    {m₁ m₂ : Option ℕ} {r : Pool × Status}
    (h : queueCreate w s itemSize maxItems outHandle m₁ m₂ = some r) :
    s.Creates (twoBlocks .queue (fun _ => rfl) m₁ m₂) r := by
  simp only [queueCreate] at h
  split at h
  · split at h
    · exact Or.inl (Option.some_inj.1 h ▸ ⟨by simp, rfl⟩)
    · obtain ⟨powerCapacity, -, rfl⟩ := Option.map_eq_some_iff.1 h
      exact createTwo_creates _ (fun s a b => queueCreateStatic_constructs s a (some b) _ _ _) s _ _
  · exact Or.inl (Option.some_inj.1 h ▸ ⟨by simp, rfl⟩)

theorem streamBufferCreate_creates {w : ℕ} {s : Pool} {bufferSize triggerLevelBytes : ℕ}
    {outHandle : Bool} {m₁ m₂ : Option ℕ} {r : Pool × Status}
    (h : streamBufferCreate w s bufferSize triggerLevelBytes outHandle m₁ m₂ = some r) :
    s.Creates (twoBlocks .streamBuffer (fun _ => rfl) m₁ m₂) r := by
  simp only [streamBufferCreate] at h
  split at h
  · split at h
    · exact Or.inl (Option.some_inj.1 h ▸ ⟨by simp, rfl⟩)
    · obtain ⟨powerCapacity, -, rfl⟩ := Option.map_eq_some_iff.1 h
      exact createTwo_creates _ (fun s a b => streamBufferCreateStatic_constructs s a (some b) _ _ _)
        s _ _
  · exact Or.inl (Option.some_inj.1 h ▸ ⟨by simp, rfl⟩)

/-! ## What deletion does -/

/-- The call fails and changes nothing, or it gives the blocks of the object back. -/
def Deletes (s : Pool) (o : Object) (r : Pool × Status) : Prop :=
  (r.2 ≠ .ok ∧ r.1 = s) ∨ (r.2 = .ok ∧ ∃ b, r.1 =
    { s with
      outstanding := s.outstanding.diff o.blocks
      control := Function.update s.control o.handle b })

/-- The blocks of the object are outstanding. -/
def HasBlocks (s : Pool) (o : Object) : Prop := o.blocks.Nodup ∧ ∀ a ∈ o.blocks, a ∈ s.outstanding

/-- How objects of the kind give their blocks back. -/
def release (kind : ObjectKind) : Pool → Addr → Pool := if kind.hasBuffer then freeTwo else freeOne

theorem release_eq {buffer : Option ℕ} {hk : buffer.isSome = kind.hasBuffer}
    (h : s.HasBlocks (.dynamic kind n buffer hk))
    (hb : (s.control (.pool n)).buffer = buffer.map Addr.pool) :
    release kind s (.pool n) =
      { s with outstanding := s.outstanding.diff (Object.dynamic kind n buffer hk).blocks } := by
  obtain ⟨hnd, hmem⟩ := h
  cases buffer with
  | none =>
    rw [release, ← hk, if_neg (by simp), freeOne, free_of_mem (hmem _ (by simp [Object.blocks]))]
    simp [Object.blocks]
  | some m =>
    have hne : Addr.pool n ≠ Addr.pool m := by
      simp only [Object.blocks, Option.map_some, Option.toList_some, List.singleton_append,
        List.nodup_cons, List.mem_singleton] at hnd
      exact fun e => hnd.1 e.symm
    have hm : Addr.pool m ∈ s.outstanding := hmem _ (by simp [Object.blocks])
    have hn : Addr.pool n ∈ s.outstanding.erase (.pool m) :=
      (List.mem_erase_of_ne hne).2 (hmem _ (by simp [Object.blocks]))
    rw [release, ← hk, if_pos (by simp), freeTwo, hb, Option.map_some, free_of_mem hm,
      free_of_mem hn]
    simp [Object.blocks]

/-- The end of every deletion. -/
theorem deletes_put {b : ControlBlock} (h : s.HasBlocks o) (hb : b.isStaticallyAllocated =
      (s.control o.handle).isStaticallyAllocated ∧ b.buffer = (s.control o.handle).buffer)
    (hr : o.Recorded (s.control o.handle)) :
    s.Deletes o (if ((s.put o.handle b).control o.handle).isStaticallyAllocated then s.put o.handle b
      else release o.kind (s.put o.handle b) o.handle, .ok) := by
  refine Or.inr ⟨rfl, b, ?_⟩
  cases o with
  | static k n =>
    have hstatic : ((s.put (.caller n) b).control (.caller n)).isStaticallyAllocated = true := by
      rw [put_control, Function.update_self, hb.1]
      exact hr.2
    simp only [Object.handle, hstatic, if_true]
    rfl
  | dynamic k n buffer hk =>
    have hdynamic : ((s.put (.pool n) b).control (.pool n)).isStaticallyAllocated = false := by
      rw [put_control, Function.update_self, hb.1]
      exact hr.2.1
    have hbuffer : ((s.put (.pool n) b).control (.pool n)).buffer = buffer.map Addr.pool := by
      rw [put_control, Function.update_self, hb.2]
      exact hr.2.2
    have hblocks : (s.put (.pool n) b).HasBlocks (.dynamic k n buffer hk) := h
    simp only [Object.handle, Object.kind, hdynamic, Bool.false_eq_true, if_false,
      release_eq hblocks hbuffer]
    rfl

theorem deleteObject_deletes (h : s.HasBlocks o) (hr : o.Recorded (s.control o.handle)) :
    s.Deletes o (deleteObject s o.kind (some o.handle) (release o.kind)) := by
  rw [deleteObject, if_neg (by rw [hr.magic]; simp)]
  exact deletes_put h ⟨rfl, rfl⟩ hr

theorem taskDelete_deletes {current handle : Option Addr} (h : s.HasBlocks o)
    (hr : o.Recorded (s.control o.handle)) (hkind : o.kind = .task)
    (ho : handle.or current = some o.handle) : s.Deletes o (taskDelete s current handle) := by
  simp only [taskDelete, ho]
  split
  · have hd := deletes_put (b := { s.control o.handle with state := .terminated }) h ⟨rfl, rfl⟩ hr
    rw [hkind] at hd
    exact hd
  · exact Or.inl ⟨by simp, rfl⟩

end Pool

/-! ## Runs -/

/-- A call that creates or deletes an object, or what the rest of the system does to memory. -/
inductive PoolOp
  | taskCreateStatic (config : Option TaskConfig) (tcb : Option ℕ) (outHandle : Bool)
  | taskCreate (config : Option TaskConfig) (outHandle : Bool) (m₁ m₂ : Option ℕ)
  | taskDelete (current handle : Option Addr)
  | semCreateCountingStatic (sem : Option ℕ) (initialCount maxCount : ℕ) (outHandle : Bool)
  | semCreateBinaryStatic (sem : Option ℕ) (initialState outHandle : Bool)
  | semCreateCounting (initialCount maxCount : ℕ) (outHandle : Bool) (m : Option ℕ)
  | semCreateBinary (initialState outHandle : Bool) (m : Option ℕ)
  | semDelete (handle : Option Addr)
  | mutexCreateStatic (mutex : Option ℕ) (outHandle : Bool)
  | mutexCreate (outHandle : Bool) (m : Option ℕ)
  | mutexDelete (handle : Option Addr)
  | queueCreateStatic (queue storage : Option ℕ) (storageSize itemSize : ℕ) (outHandle : Bool)
  | queueCreate (itemSize maxItems : ℕ) (outHandle : Bool) (m₁ m₂ : Option ℕ)
  | queueDelete (handle : Option Addr)
  | streamBufferCreateStatic (streamBuf storage : Option ℕ) (storageSize triggerLevelBytes : ℕ)
      (outHandle : Bool)
  | streamBufferCreate (bufferSize triggerLevelBytes : ℕ) (outHandle : Bool) (m₁ m₂ : Option ℕ)
  | streamBufferDelete (handle : Option Addr)
  | timerCreateStatic (config : Option TimerConfig) (timer : Option ℕ) (outHandle : Bool)
  | timerCreate (config : Option TimerConfig) (outHandle : Bool) (m : Option ℕ)
  | timerDelete (handle : Option Addr)
  /-- The scheduler changes the state of a task. -/
  | setState (t : Addr) (state : TaskState)
  /-- Memory that belongs to no live object changes. -/
  | scribble (a : Addr) (b : ControlBlock)
deriving DecidableEq, Repr

/-- The pool, and the objects whose handles the application holds. -/
structure Application where
  pool : Pool
  live : List Object

namespace PoolOp

/-- The call; `none` if it does not return. -/
def exec (w : ℕ) (s : Pool) : PoolOp → Option (Pool × Status)
  | .taskCreateStatic config tcb out => some (s.taskCreateStatic config (tcb.map .caller) out)
  | .taskCreate config out m₁ m₂ => some (s.taskCreate config out m₁ m₂)
  | .taskDelete current handle => some (s.taskDelete current handle)
  | .semCreateCountingStatic sem initial max out =>
    some (s.semCreateCountingStatic (sem.map .caller) initial max out)
  | .semCreateBinaryStatic sem initial out =>
    some (s.semCreateBinaryStatic (sem.map .caller) initial out)
  | .semCreateCounting initial max out m => some (s.semCreateCounting initial max out m)
  | .semCreateBinary initial out m => some (s.semCreateBinary initial out m)
  | .semDelete handle => some (s.semDelete handle)
  | .mutexCreateStatic mutex out => some (s.mutexCreateStatic (mutex.map .caller) out)
  | .mutexCreate out m => some (s.mutexCreate out m)
  | .mutexDelete handle => some (s.mutexDelete handle)
  | .queueCreateStatic queue storage size itemSize out =>
    some (s.queueCreateStatic (queue.map .caller) (storage.map .caller) size itemSize out)
  | .queueCreate itemSize maxItems out m₁ m₂ => s.queueCreate w itemSize maxItems out m₁ m₂
  | .queueDelete handle => some (s.queueDelete handle)
  | .streamBufferCreateStatic streamBuf storage size trigger out =>
    some (s.streamBufferCreateStatic (streamBuf.map .caller) (storage.map .caller) size trigger out)
  | .streamBufferCreate size trigger out m₁ m₂ => s.streamBufferCreate w size trigger out m₁ m₂
  | .streamBufferDelete handle => some (s.streamBufferDelete handle)
  | .timerCreateStatic config timer out =>
    some (s.timerCreateStatic config (timer.map .caller) out)
  | .timerCreate config out m => some (s.timerCreate config out m)
  | .timerDelete handle => some (s.timerDelete handle)
  | .setState t state => some (s.put t { s.control t with state := state }, .ok)
  | .scribble a b => some (s.put a b, .ok)

/-- The object the call creates, if it succeeds. -/
def object : PoolOp → Option Object
  | .taskCreateStatic _ tcb _ => tcb.map (.static .task)
  | .taskCreate _ _ m₁ m₂ => Pool.twoBlocks .task (fun _ => rfl) m₁ m₂
  | .semCreateCountingStatic sem _ _ _ | .semCreateBinaryStatic sem _ _ => sem.map (.static .sem)
  | .semCreateCounting _ _ _ m | .semCreateBinary _ _ m => m.map fun n => .dynamic .sem n none rfl
  | .mutexCreateStatic mutex _ => mutex.map (.static .mutex)
  | .mutexCreate _ m => m.map fun n => .dynamic .mutex n none rfl
  | .queueCreateStatic queue _ _ _ _ => queue.map (.static .queue)
  | .queueCreate _ _ _ m₁ m₂ => Pool.twoBlocks .queue (fun _ => rfl) m₁ m₂
  | .streamBufferCreateStatic streamBuf _ _ _ _ => streamBuf.map (.static .streamBuffer)
  | .streamBufferCreate _ _ _ m₁ m₂ => Pool.twoBlocks .streamBuffer (fun _ => rfl) m₁ m₂
  | .timerCreateStatic _ timer _ => timer.map (.static .timer)
  | .timerCreate _ _ m => m.map fun n => .dynamic .timer n none rfl
  | _ => none

/-- The kind and the handle of the object the call deletes; `NULL` deletes the current task. -/
def target : PoolOp → Option (ObjectKind × Addr)
  | .taskDelete current handle => (handle.or current).map (.task, ·)
  | .semDelete handle => handle.map (.sem, ·)
  | .mutexDelete handle => handle.map (.mutex, ·)
  | .queueDelete handle => handle.map (.queue, ·)
  | .streamBufferDelete handle => handle.map (.streamBuffer, ·)
  | .timerDelete handle => handle.map (.timer, ·)
  | _ => none

/-- The call creates an object. -/
def IsCreate : PoolOp → Prop
  | .taskDelete _ _ | .semDelete _ | .mutexDelete _ | .queueDelete _ | .streamBufferDelete _
  | .timerDelete _ | .setState _ _ | .scribble _ _ => False
  | _ => True

/-- The blocks `memory_pool_malloc` returns to the call. -/
def mallocs : PoolOp → List ℕ
  | .taskCreate _ _ m₁ m₂ | .queueCreate _ _ _ m₁ m₂ | .streamBufferCreate _ _ _ m₁ m₂ =>
    m₂.toList ++ m₁.toList
  | .semCreateCounting _ _ _ m | .semCreateBinary _ _ m | .mutexCreate _ m | .timerCreate _ _ m =>
    m.toList
  | _ => []

/-- The objects the application holds after a call that returned `status`. -/
def update (op : PoolOp) (status : Status) (live : List Object) : List Object :=
  if status = .ok then
    match op.object, op.target with
    | some o, _ => o :: live.filter fun u => u.handle ≠ o.handle
    | none, some (_, a) => live.filter fun u => u.handle ≠ a
    | none, none => live
  else live

/-- The state change of a step. -/
def run (w : ℕ) (x : Application) (op : PoolOp) : Application :=
  match op.exec w x.pool with
  | none => x
  | some r => ⟨r.1, op.update r.2 x.live⟩

/-- Memory that belongs to a live object is not written. -/
def Spares (live : List Object) : PoolOp → Prop
  | .scribble a _ => ∀ o ∈ live, o.handle ≠ a
  | _ => True

instance (live : List Object) : DecidablePred (Spares live)
  | .scribble a _ => inferInstanceAs (Decidable (∀ o ∈ live, o.handle ≠ a))
  | .taskCreateStatic _ _ _ | .taskCreate _ _ _ _ | .taskDelete _ _
  | .semCreateCountingStatic _ _ _ _ | .semCreateBinaryStatic _ _ _ | .semCreateCounting _ _ _ _
  | .semCreateBinary _ _ _ | .semDelete _ | .mutexCreateStatic _ _ | .mutexCreate _ _ | .mutexDelete _
  | .queueCreateStatic _ _ _ _ _ | .queueCreate _ _ _ _ _ | .queueDelete _
  | .streamBufferCreateStatic _ _ _ _ _ | .streamBufferCreate _ _ _ _ _ | .streamBufferDelete _
  | .timerCreateStatic _ _ _ | .timerCreate _ _ _ | .timerDelete _ | .setState _ _ =>
    .isTrue trivial

/-- The call returns, `memory_pool_malloc` returns blocks that are not outstanding, and a handle
that is not `NULL` is that of a live object of the right kind. -/
def Allowed (w : ℕ) (x : Application) (op : PoolOp) : Prop :=
  (op.exec w x.pool).isSome ∧ op.mallocs.Nodup ∧
    (∀ n ∈ op.mallocs, Addr.pool n ∉ x.pool.outstanding) ∧
    (∀ d ∈ op.target, ∃ o ∈ x.live, o.kind = d.1 ∧ o.handle = d.2) ∧ op.Spares x.live

instance (w : ℕ) (x : Application) (op : PoolOp) : Decidable (op.Allowed w x) := by
  unfold Allowed
  infer_instance

/-- One step of a run. -/
abbrev Step (w : ℕ) : Application → PoolOp → Application → Prop := Guarded (Allowed w) (run w)

/-- Every creation meets its specification. -/
theorem creates {w : ℕ} {s : Pool} {op : PoolOp} {r : Pool × Status} (h : op.exec w s = some r)
    (hop : op.IsCreate) : s.Creates op.object r := by
  cases op with
  | taskCreateStatic config tcb out =>
    obtain rfl := Option.some_inj.1 h
    exact Pool.creates_of_constructs (f := fun p => s.taskCreateStatic config p out) tcb
      ⟨by simp [Pool.taskCreateStatic], rfl⟩
      fun n => ⟨_, Pool.taskCreateStatic_constructs s config (.caller n) out⟩
  | taskCreate config out m₁ m₂ =>
    obtain rfl := Option.some_inj.1 h
    exact Pool.taskCreate_creates s config out m₁ m₂
  | semCreateCountingStatic sem initial max out =>
    obtain rfl := Option.some_inj.1 h
    exact Pool.creates_of_constructs (f := fun p => s.semCreateCountingStatic p initial max out) sem
      ⟨by simp [Pool.semCreateCountingStatic], rfl⟩
      fun n => ⟨_, Pool.semCreateCountingStatic_constructs s (.caller n) initial max out⟩
  | semCreateBinaryStatic sem initial out =>
    obtain rfl := Option.some_inj.1 h
    exact Pool.creates_of_constructs (f := fun p => s.semCreateBinaryStatic p initial out) sem
      ⟨by simp [Pool.semCreateBinaryStatic, Pool.semCreateCountingStatic], rfl⟩
      fun n => ⟨_, Pool.semCreateCountingStatic_constructs s (.caller n) _ 1 out⟩
  | semCreateCounting initial max out m =>
    obtain rfl := Option.some_inj.1 h
    exact Pool.createOne_creates _ (fun s a =>
      Pool.semCreateCountingStatic_constructs s a initial max out) s out m
  | semCreateBinary initial out m =>
    obtain rfl := Option.some_inj.1 h
    exact Pool.createOne_creates _ (fun s a =>
      Pool.semCreateCountingStatic_constructs s a _ 1 out) s out m
  | mutexCreateStatic mutex out =>
    obtain rfl := Option.some_inj.1 h
    exact Pool.creates_of_constructs (f := fun p => s.mutexCreateStatic p out) mutex
      ⟨by simp [Pool.mutexCreateStatic], rfl⟩
      fun n => ⟨_, Pool.mutexCreateStatic_constructs s (.caller n) out⟩
  | mutexCreate out m =>
    obtain rfl := Option.some_inj.1 h
    exact Pool.createOne_creates _ (fun s a => Pool.mutexCreateStatic_constructs s a out) s out m
  | queueCreateStatic queue storage size itemSize out =>
    obtain rfl := Option.some_inj.1 h
    exact Pool.creates_of_constructs
      (f := fun p => s.queueCreateStatic p (storage.map .caller) size itemSize out) queue
      ⟨by simp [Pool.queueCreateStatic], rfl⟩
      fun n => ⟨_, Pool.queueCreateStatic_constructs s (.caller n) _ size itemSize out⟩
  | queueCreate itemSize maxItems out m₁ m₂ => exact Pool.queueCreate_creates h
  | streamBufferCreateStatic streamBuf storage size trigger out =>
    obtain rfl := Option.some_inj.1 h
    exact Pool.creates_of_constructs
      (f := fun p => s.streamBufferCreateStatic p (storage.map .caller) size trigger out) streamBuf
      ⟨by simp [Pool.streamBufferCreateStatic], rfl⟩
      fun n => ⟨_, Pool.streamBufferCreateStatic_constructs s (.caller n) _ size trigger out⟩
  | streamBufferCreate size trigger out m₁ m₂ => exact Pool.streamBufferCreate_creates h
  | timerCreateStatic config timer out =>
    obtain rfl := Option.some_inj.1 h
    refine Pool.creates_of_constructs (f := fun p => s.timerCreateStatic config p out) timer ?_
      fun n => ⟨_, Pool.timerCreateStatic_constructs s config (.caller n) out⟩
    cases config <;> exact ⟨by simp [Pool.timerCreateStatic], rfl⟩
  | timerCreate config out m =>
    obtain rfl := Option.some_inj.1 h
    exact Pool.createOne_creates _ (fun s a => Pool.timerCreateStatic_constructs s config a out) s out
      m
  | _ => exact hop.elim

/-- Every deletion of a live object meets its specification. -/
theorem deletes {w : ℕ} {s : Pool} {op : PoolOp} {r : Pool × Status} {o : Object}
    (h : op.exec w s = some r) (ht : op.target = some (o.kind, o.handle)) (ho : s.HasBlocks o)
    (hr : o.Recorded (s.control o.handle)) : s.Deletes o r := by
  have hobject : ∀ {kind : ObjectKind} {handle : Option Addr},
      handle.map (fun a => (kind, a)) = some (o.kind, o.handle) →
        s.Deletes o (s.deleteObject kind handle (Pool.release kind)) := by
    intro kind handle hmap
    obtain ⟨a, rfl, e⟩ := Option.map_eq_some_iff.1 hmap
    obtain ⟨rfl, rfl⟩ := Prod.mk.inj e
    exact Pool.deleteObject_deletes ho hr
  cases op with
  | taskDelete current handle =>
    obtain rfl := Option.some_inj.1 h
    obtain ⟨a, ha, e⟩ := Option.map_eq_some_iff.1 ht
    obtain ⟨hk, rfl⟩ := Prod.mk.inj e
    exact Pool.taskDelete_deletes ho hr hk.symm ha
  | semDelete handle => exact Option.some_inj.1 h ▸ hobject ht
  | mutexDelete handle => exact Option.some_inj.1 h ▸ hobject ht
  | queueDelete handle => exact Option.some_inj.1 h ▸ hobject ht
  | streamBufferDelete handle => exact Option.some_inj.1 h ▸ hobject ht
  | timerDelete handle => exact Option.some_inj.1 h ▸ hobject ht
  | _ => exact absurd ht (by simp [target])

/-- Without a handle a deletion fails. -/
theorem null_deletes {w : ℕ} {s : Pool} {op : PoolOp} {r : Pool × Status}
    (h : op.exec w s = some r) (ht : op.target = none) (hop : ¬ op.IsCreate)
    (hset : ∀ t state, op ≠ .setState t state) (hscribble : ∀ a b, op ≠ .scribble a b) :
    r = (s, .errorInvalidParam) := by
  cases op with
  | taskDelete current handle =>
    have hnone : handle.or current = none := Option.map_eq_none_iff.1 ht
    rw [← Option.some_inj.1 h, Pool.taskDelete, hnone]
  | semDelete handle =>
    rw [← Option.some_inj.1 h, Option.map_eq_none_iff.1 ht, Pool.semDelete, Pool.deleteObject]
  | mutexDelete handle =>
    rw [← Option.some_inj.1 h, Option.map_eq_none_iff.1 ht, Pool.mutexDelete, Pool.deleteObject]
  | queueDelete handle =>
    rw [← Option.some_inj.1 h, Option.map_eq_none_iff.1 ht, Pool.queueDelete, Pool.deleteObject]
  | streamBufferDelete handle =>
    rw [← Option.some_inj.1 h, Option.map_eq_none_iff.1 ht, Pool.streamBufferDelete,
      Pool.deleteObject]
  | timerDelete handle =>
    rw [← Option.some_inj.1 h, Option.map_eq_none_iff.1 ht, Pool.timerDelete, Pool.deleteObject]
  | setState t state => exact absurd rfl (hset t state)
  | scribble a b => exact absurd rfl (hscribble a b)
  | _ => exact absurd trivial hop

/-- The blocks of a new object are the ones that were allocated for it. -/
theorem blocks_of_object {op : PoolOp} {o : Object} (h : op.object = some o) :
    o.blocks = op.mallocs.map .pool := by
  have hone : ∀ {kind : ObjectKind} {m : Option ℕ} {hk : (none : Option ℕ).isSome = kind.hasBuffer},
      (m.map fun n => Object.dynamic kind n none hk) = some o →
        o.blocks = m.toList.map Addr.pool := by
    intro kind m hk hm
    obtain ⟨n, rfl, rfl⟩ := Option.map_eq_some_iff.1 hm
    rfl
  have htwo : ∀ {kind : ObjectKind} {hk : ∀ b : ℕ, (some b).isSome = kind.hasBuffer}
      {m₁ m₂ : Option ℕ}, Pool.twoBlocks kind hk m₁ m₂ = some o →
        o.blocks = (m₂.toList ++ m₁.toList).map Addr.pool := by
    intro kind hk m₁ m₂ hm
    cases m₁ with
    | none => exact absurd hm (by simp [Pool.twoBlocks])
    | some n =>
      cases m₂ with
      | none => exact absurd hm (by simp [Pool.twoBlocks])
      | some b =>
        obtain rfl := Option.some_inj.1 hm
        rfl
  have hstatic : ∀ {kind : ObjectKind} {p : Option ℕ}, p.map (Object.static kind) = some o →
      o.blocks = [] := by
    intro kind p hp
    obtain ⟨n, -, rfl⟩ := Option.map_eq_some_iff.1 hp
    rfl
  cases op with
  | taskCreateStatic | semCreateCountingStatic | semCreateBinaryStatic | mutexCreateStatic
  | queueCreateStatic | streamBufferCreateStatic | timerCreateStatic => exact hstatic h
  | taskCreate | queueCreate | streamBufferCreate => exact htwo h
  | semCreateCounting | semCreateBinary | mutexCreate | timerCreate => exact hone h
  | _ => exact absurd h (by simp [object])

end PoolOp

namespace Application

variable {x x' : Application} {w : ℕ} {op : PoolOp} {o : Object} {b : ControlBlock}

/-- The blocks that are outstanding are those of the live objects, whose control blocks tell how to
delete them. -/
structure Balanced (x : Application) : Prop where
  blocks : Ownership.Balanced Object.blocks x.pool.outstanding x.live
  handles : (x.live.map Object.handle).Nodup
  recorded : ∀ o ∈ x.live, o.Recorded (x.pool.control o.handle)
  misfreed : x.pool.misfreed = false

/-- No object exists yet; memory holds anything. -/
def init (control : Addr → ControlBlock) : Application := ⟨⟨control, [], false⟩, []⟩

namespace Balanced

theorem init (control : Addr → ControlBlock) : (init control).Balanced :=
  ⟨.nil, List.nodup_nil, by simp [Application.init], rfl⟩

/-- A change of control blocks that leaves those of live objects alone, but for their states. -/
theorem setControl (h : x.Balanced) {control : Addr → ControlBlock}
    (hc : ∀ o ∈ x.live, ∃ state, control o.handle = { x.pool.control o.handle with state := state }) :
    (⟨{ x.pool with control := control }, x.live⟩ : Application).Balanced := by
  refine { h with recorded := fun o ho => ?_ }
  obtain ⟨state, e⟩ := hc o ho
  show o.Recorded (control o.handle)
  rw [e]
  exact (h.recorded o ho).setState state

/-- The other objects are still described by their control blocks. -/
theorem recorded_filter (h : x.Balanced) {a : Addr} :
    ∀ u ∈ x.live.filter fun u => u.handle ≠ a,
      u.Recorded (Function.update x.pool.control a b u.handle) := by
  intro u hu
  obtain ⟨hmem, hne⟩ := List.mem_filter.1 hu
  rw [Function.update_of_ne (by simpa using hne)]
  exact h.recorded u hmem

/-- The object that is overwritten by a new one has no blocks. -/
theorem blocks_eq_nil (h : x.Balanced) (hfresh : ∀ a ∈ o.blocks, a ∉ x.pool.outstanding)
    {u : Object}
    (hu : u ∈ x.live) (he : u.handle = o.handle) : u.blocks = [] := by
  cases u with
  | static => rfl
  | dynamic k n buffer hk =>
    have hmem : Addr.pool n ∈ x.pool.outstanding :=
      h.blocks.mem_iff.2 ⟨_, hu, by simp [Object.blocks]⟩
    cases o with
    | static => exact absurd he (by simp [Object.handle])
    | dynamic k' n' buffer' hk' =>
      obtain rfl : n = n' := by simpa [Object.handle] using he
      exact absurd hmem (hfresh _ (by simp [Object.blocks]))

/-- A new object. -/
theorem create (h : x.Balanced) (hnd : o.blocks.Nodup)
    (hfresh : ∀ a ∈ o.blocks, a ∉ x.pool.outstanding) (hr : o.Recorded b) :
    (⟨{ x.pool with
        outstanding := o.blocks ++ x.pool.outstanding
        control := Function.update x.pool.control o.handle b },
      o :: x.live.filter fun u => u.handle ≠ o.handle⟩ : Application).Balanced where
  blocks := by
    refine (h.blocks.filter fun u hu hp => ?_).acquire rfl hnd hfresh
    exact h.blocks_eq_nil hfresh hu (by simpa using hp)
  handles := by
    rw [List.map_cons, List.nodup_cons]
    refine ⟨fun hm => ?_, h.handles.sublist (List.filter_sublist.map _)⟩
    obtain ⟨u, hu, he⟩ := List.mem_map.1 hm
    exact absurd he (by simpa using (List.mem_filter.1 hu).2)
  recorded := by
    intro u hu
    rcases List.mem_cons.1 hu with rfl | hu
    · show u.Recorded (Function.update x.pool.control u.handle b u.handle)
      rw [Function.update_self]
      exact hr
    · exact h.recorded_filter u hu
  misfreed := h.misfreed

/-- A live object is the only one with its handle. -/
theorem perm_cons_filter (h : x.Balanced) (ho : o ∈ x.live) :
    x.live.Perm (o :: x.live.filter fun u => u.handle ≠ o.handle) := by
  have hnd := h.handles
  generalize x.live = l at ho hnd
  induction l with
  | nil => exact absurd ho (by simp)
  | cons v l ih =>
    rw [List.map_cons, List.nodup_cons] at hnd
    rcases List.mem_cons.1 ho with rfl | hmem
    · have hrest : l.filter (fun u => u.handle ≠ o.handle) = l := by
        refine List.filter_eq_self.2 fun u hu => ?_
        simpa using fun e : u.handle = o.handle => hnd.1 (e ▸ List.mem_map_of_mem hu)
      rw [List.filter_cons, if_neg (by simp), hrest]
    · have hne : v.handle ≠ o.handle := fun e => hnd.1 (e ▸ List.mem_map_of_mem hmem)
      rw [List.filter_cons, if_pos (by simpa using hne)]
      exact ((ih hmem hnd.2).cons v).trans (List.Perm.swap o v _)

theorem hasBlocks (h : x.Balanced) (ho : o ∈ x.live) : x.pool.HasBlocks o :=
  (h.blocks.congr (h.perm_cons_filter ho)).held

/-- A deleted object. -/
theorem delete (h : x.Balanced) (ho : o ∈ x.live) :
    (⟨{ x.pool with
        outstanding := x.pool.outstanding.diff o.blocks
        control := Function.update x.pool.control o.handle b },
      x.live.filter fun u => u.handle ≠ o.handle⟩ : Application).Balanced where
  blocks := (h.blocks.congr (h.perm_cons_filter ho)).release
  handles := h.handles.sublist (List.filter_sublist.map _)
  recorded := h.recorded_filter
  misfreed := h.misfreed

end Balanced

/-- What a step does: nothing, a creation, a deletion, or a change of memory. -/
theorem step_balanced (h : x.Balanced) (hs : PoolOp.Step w x op x') : x'.Balanced := by
  obtain ⟨⟨hsome, hnd, hfresh, hlive, hspares⟩, rfl⟩ := hs
  obtain ⟨r, hr⟩ := Option.isSome_iff_exists.1 hsome
  have hfail : r.2 ≠ .ok ∧ r.1 = x.pool → (op.run w x).Balanced := by
    rintro ⟨hne, e⟩
    simp only [PoolOp.run, hr, PoolOp.update, hne, if_false, e]
    exact h
  by_cases hcreate : op.IsCreate
  · rcases PoolOp.creates hr hcreate with hf | ⟨o, b, ho, hrec, hok, e⟩
    · exact hfail hf
    · have hblocks := PoolOp.blocks_of_object ho
      have hlive' : op.update r.2 x.live = o :: x.live.filter fun u => u.handle ≠ o.handle := by
        simp only [PoolOp.update, hok, if_true, ho]
      simp only [PoolOp.run, hr, hlive', e]
      refine h.create ?_ (fun a ha => ?_) hrec
      · rw [hblocks]
        exact hnd.map (fun m n e => Addr.pool.inj e)
      · rw [hblocks] at ha
        obtain ⟨n, hn, rfl⟩ := List.mem_map.1 ha
        exact hfresh n hn
  · cases ht : op.target with
    | some d =>
      obtain ⟨o, ho, hk, hd⟩ := hlive d ht
      have ht' : op.target = some (o.kind, o.handle) := by rw [ht, hk, hd]
      rcases PoolOp.deletes hr ht' (h.hasBlocks ho) (h.recorded o ho) with hf | ⟨hok, b, e⟩
      · exact hfail hf
      · have hobject : op.object = none := by
          cases op <;> first | rfl | exact absurd trivial hcreate
        have hlive' : op.update r.2 x.live = x.live.filter fun u => u.handle ≠ o.handle := by
          simp only [PoolOp.update, hok, if_true, hobject, ht']
        simp only [PoolOp.run, hr, hlive', e]
        exact h.delete ho
    | none =>
      by_cases hset : ∃ t state, op = .setState t state
      · obtain ⟨t, state, rfl⟩ := hset
        refine h.setControl fun o _ => ?_
        by_cases hot : o.handle = t
        · exact ⟨state, by rw [hot, Function.update_self]⟩
        · exact ⟨_, by rw [Function.update_of_ne hot]⟩
      · by_cases hscribble : ∃ a b, op = .scribble a b
        · obtain ⟨a, b, rfl⟩ := hscribble
          exact h.setControl fun o ho => ⟨_, by rw [Function.update_of_ne (hspares o ho)]⟩
        · have e := PoolOp.null_deletes hr ht hcreate (fun t state e => hset ⟨t, state, e⟩)
            fun a b e => hscribble ⟨a, b, e⟩
          exact hfail (by rw [e]; exact ⟨by simp, rfl⟩)

end Application

/-- **The pool balances.**  In every run the outstanding blocks are exactly the control blocks of
the live dynamically created objects and their buffers, each once; nothing but an outstanding block
has been freed; and no creation that fails has changed the outstanding blocks. -/
theorem pool_balances {w : ℕ} {control : Addr → ControlBlock} {ops : List PoolOp} {x : Application}
    (hrun : Trace (PoolOp.Step w) (Application.init control) ops x) :
    x.pool.outstanding.Perm (x.live.flatMap Object.blocks) ∧ x.pool.outstanding.Nodup ∧
      x.pool.misfreed = false ∧
      Trace.AllSteps (PoolOp.Step w)
        (fun s op s' => op.IsCreate → ∀ r, op.exec w s.pool = some r → r.2 ≠ .ok →
          s'.pool.outstanding = s.pool.outstanding)
        (Application.init control) ops x := by
  have h := hrun.invariant (fun _ _ _ h hs => Application.step_balanced h hs)
    (Application.Balanced.init control)
  refine ⟨h.blocks.perm, h.blocks.nodup, h.misfreed, ?_⟩
  rintro bs op cs s s' - - ⟨-, rfl⟩ - hcreate r hr hne
  rcases PoolOp.creates hr hcreate with ⟨-, e⟩ | ⟨o, b, -, -, hok, -⟩
  · simp only [PoolOp.run, hr, e]
  · exact absurd hok hne

/-- A run with a static and three dynamic objects, two creations that fail after an allocation, and
deletions. -/
def mixedOps : List PoolOp :=
  [.mutexCreateStatic (some 7) true, .queueCreate 4 3 true (some 0) none,
    .queueCreate 4 3 true (some 0) (some 1), .streamBufferCreate 8 100 true (some 2) (some 3),
    .semCreateBinary true true (some 2), .taskCreate (some (.ofPriority 1)) true (some 4) (some 3),
    .setState (.pool 4) .blocked, .semDelete (some (.pool 2)), .mutexDelete (some (.caller 7)),
    .taskDelete none (some (.pool 4)), .semDelete none]

/-- The state after the run. -/
def afterMixedOps : Application :=
  mixedOps.foldl (PoolOp.run 32) (Application.init fun _ => ⟨0, false, none, .ready⟩)

/-- The queue is left, with its storage. -/
theorem pool_balances_mixed :
    afterMixedOps.pool.outstanding = [.pool 1, .pool 0] ∧
      afterMixedOps.pool.outstanding.Perm (afterMixedOps.live.flatMap Object.blocks) ∧
      afterMixedOps.pool.misfreed = false := by
  have h := pool_balances (Trace.of_guards (by decide +kernel) : Trace (PoolOp.Step 32)
    (Application.init fun _ => ⟨0, false, none, .ready⟩) mixedOps afterMixedOps)
  exact ⟨by decide +kernel, h.1, h.2.2.1⟩

end Sertos
