import Sertos.Queue
import Sertos.Lib.Fifo

/-!
# The message queue is a bounded FIFO of items

A queue stores bytes in a ring whose capacity is in general no multiple of the item size.  Still the
bytes are always a whole number of items: an item is written only if all of it fits in, and read as
a whole, wherever the ring wraps.  `Queue.Holds x items` says which items the bytes of `x` spell
out, and each data step of the queue is a step of the bounded FIFO of `Lib.Fifo` on these items
(`Queue.Holds.step`).
-/

set_option autoImplicit false

namespace Sertos

open Lts

/-- A critical section of a queue function that gets to the data. -/
inductive QueueSection
  | send (item : List UInt8)
  | receive
  | peek
  | sendFromIsr (item : List UInt8)
  | receiveFromIsr
  | reset
deriving DecidableEq, Repr

namespace QueueSection

/-- The state change of the section. -/
def run (x : Queue) : QueueSection → Queue
  | .send item | .sendFromIsr item => (x.sendData item).getD x
  | .receive | .receiveFromIsr => match x.receiveData with
    | some (x', _) => x'
    | none => x
  | .peek => x
  | .reset => x.resetData

/-- What the section is seen as: the item it accepts or returns. -/
def event (x : Queue) : QueueSection → Fifo.Event (List UInt8)
  | .send item | .sendFromIsr item =>
    if (x.sendData item).isSome then .accepted item else .refused
  | .receive | .receiveFromIsr => match x.receiveData with
    | some (_, item) => .delivered item
    | none => .empty
  | .peek => match x.peekData with
    | some item => .peeked item
    | none => .empty
  | .reset => .cleared

/-- An item has the size the queue was created for. -/
def Allowed (x : Queue) : QueueSection → Prop
  | .send item | .sendFromIsr item => item.length = x.itemSize
  | _ => True

instance (x : Queue) : DecidablePred (Allowed x)
  | .send item | .sendFromIsr item => inferInstanceAs (Decidable (item.length = x.itemSize))
  | .receive | .receiveFromIsr | .peek | .reset => .isTrue trivial

/-- One step of an interleaving of data steps. -/
abbrev Step : Queue → QueueSection → Queue → Prop := Guarded Allowed run

end QueueSection

/-- The data step of a call. -/
def QueueCall.dataStep : QueueCall → QueueSection
  | .send item _ => .send item
  | .receive _ => .receive
  | .peek _ => .peek

namespace QueueSystem

/-! ## The calls take these steps -/

variable {s : QueueSystem}

/-- A call that passes its test takes its data step, and one that does not leaves the data. -/
theorem attempt_queue (s : QueueSystem) (a : QueueCall) :
    ((s.attempt a).elim s Prod.fst).queue = a.dataStep.run s.queue := by
  cases a with
  | send item timeout =>
    rw [attempt, QueueCall.dataStep, QueueSection.run]
    cases s.queue.sendData item <;> rfl
  | receive timeout =>
    rw [attempt, QueueCall.dataStep, QueueSection.run]
    cases s.queue.receiveData <;> rfl
  | peek timeout =>
    rw [attempt, QueueCall.dataStep, QueueSection.run]
    cases s.queue.peekData <;> rfl

theorem proceed_queue (s : QueueSystem) (a : QueueCall) :
    (s.proceed a).1.queue = a.dataStep.run s.queue := by
  rw [← attempt_queue, proceed]
  cases s.attempt a with
  | some r => rfl
  | none =>
    dsimp only [Option.elim_none]
    split_ifs
    · rfl
    · split <;> rfl

/-- The data steps of the functions, on a queue that has not been deleted. -/
structure TakesDataSteps (s : QueueSystem) : Prop where
  enter : ∀ a, (s.enter a).1.queue = a.dataStep.run s.queue
  /-- A call that goes on takes its step unless its time is up. -/
  resume : ∀ c a, (s.resume c a).1.queue =
    if Scheduler.waitListBlockStatus s.kernel c a.timeout = .ok then a.dataStep.run s.queue else s.queue
  sendFromIsr : ∀ item, (s.sendFromIsr item).1.queue = (QueueSection.sendFromIsr item).run s.queue
  receiveFromIsr : s.receiveFromIsr.1.queue = QueueSection.receiveFromIsr.run s.queue
  reset : s.reset.1.queue = QueueSection.reset.run s.queue

theorem takesDataSteps (h : s.queue.magic = queueMagicWord) : s.TakesDataSteps where
  enter a := by
    rw [QueueSystem.enter, if_neg (not_not.2 h), proceed_queue]
  resume c a := by
    rw [QueueSystem.resume]
    by_cases hok : Scheduler.waitListBlockStatus s.kernel c a.timeout = .ok
    · simp only [hok, ne_eq, not_true_eq_false, if_false, if_true, proceed_queue]
      rfl
    · simp only [ne_eq, hok, not_false_eq_true, if_true, if_false]
      rfl
  sendFromIsr item := by
    rw [QueueSystem.sendFromIsr, if_neg (not_not.2 h), QueueSection.run]
    cases s.queue.sendData item <;> rfl
  receiveFromIsr := by
    rw [QueueSystem.receiveFromIsr, if_neg (not_not.2 h), QueueSection.run]
    cases s.queue.receiveData <;> rfl
  reset := by
    rw [QueueSystem.reset, if_neg (not_not.2 h)]
    rfl

end QueueSystem

namespace Queue

/-- The queue was set up by one of the two functions that create queues. -/
def Created (x : Queue) : Prop :=
  (∃ storage storageSize itemSize, createStatic storage storageSize itemSize = (some x, .ok)) ∨
  ∃ w controlBlock malloc itemSize maxItems,
    create w controlBlock malloc itemSize maxItems = some (some x, .ok)

/-- The bytes of the queue spell out the items. -/
structure Holds (x : Queue) (items : List (List UInt8)) : Prop where
  magic : x.magic = queueMagicWord
  itemSize_pos : 0 < x.itemSize
  maxItems : x.maxItems = x.ringBuf.capacity / x.itemSize
  size : ∀ item ∈ items, item.length = x.itemSize
  bytes : x.ringBuf.contents = items.flatten

variable {x : Queue} {items : List (List UInt8)} {item : List UInt8}

/-! ## Counting items -/

theorem freeBytes_eq (r : RingBuffer UInt8) : freeBytes r = r.free := by
  have hcount := r.count_le_capacity
  rw [freeBytes, RingBuffer.free]
  split <;> omega

theorem length_flatten_of_length {n : ℕ} (h : ∀ item ∈ items, item.length = n) :
    items.flatten.length = items.length * n := by
  induction items with
  | nil => simp
  | cons item items ih =>
    rw [List.flatten_cons, List.length_append, h item List.mem_cons_self,
      ih fun i hi => h i (List.mem_cons_of_mem _ hi), List.length_cons, Nat.succ_mul, Nat.add_comm]

theorem Holds.count (h : x.Holds items) : x.ringBuf.count = items.length * x.itemSize := by
  rw [← RingBuffer.length_contents, h.bytes, length_flatten_of_length h.size]

theorem Holds.length_le (h : x.Holds items) : items.length ≤ x.maxItems := by
  rw [h.maxItems, Nat.le_div_iff_mul_le h.itemSize_pos, ← h.count]
  exact x.ringBuf.count_le_capacity

/-- There is no room for an item exactly if the queue holds as many as it can. -/
theorem Holds.free_lt_iff (h : x.Holds items) :
    freeBytes x.ringBuf < x.itemSize ↔ items.length = x.maxItems := by
  have hle := h.length_le
  have hcount := h.count
  have hcap := x.ringBuf.count_le_capacity
  have hdiv : x.maxItems < items.length + 1 ↔
      x.ringBuf.capacity < (items.length + 1) * x.itemSize := by
    rw [h.maxItems, Nat.div_lt_iff_lt_mul h.itemSize_pos]
  rw [Nat.succ_mul] at hdiv
  rw [freeBytes_eq, RingBuffer.free]
  omega

/-- There is no item to read exactly if the queue holds none. -/
theorem Holds.count_lt_iff (h : x.Holds items) : x.ringBuf.count < x.itemSize ↔ items = [] := by
  rw [h.count]
  cases items with
  | nil => simpa using h.itemSize_pos
  | cons item items =>
    rw [List.length_cons, Nat.succ_mul]
    simp

theorem Holds.getCount (h : x.Holds items) : x.getCount = items.length := by
  rw [Queue.getCount, if_neg (not_not.2 h.magic), h.count, Nat.mul_div_cancel _ h.itemSize_pos]

theorem Holds.getSpacesAvailable (h : x.Holds items) :
    x.getSpacesAvailable = x.maxItems - items.length := by
  rw [Queue.getSpacesAvailable, if_neg (not_not.2 h.magic), freeBytes_eq, RingBuffer.free, h.count,
    h.maxItems, Nat.mul_comm, Nat.sub_mul_div]

/-! ## The data steps -/

theorem peekBytes_eq {n : ℕ} (h : n ≤ x.ringBuf.count) :
    peekBytes x.ringBuf n = x.ringBuf.contents.take n := by
  rw [RingBuffer.contents, ← List.map_take, List.take_range, Nat.min_eq_left h]
  rfl

theorem sendData_of_full (h : x.Holds items) (hfull : items.length = x.maxItems) :
    x.sendData item = none :=
  if_pos (h.free_lt_iff.2 hfull)

/-- **Sending** appends an item. -/
theorem sendData_of_space (h : x.Holds items) (hspace : items.length < x.maxItems)
    (hitem : item.length = x.itemSize) :
    ∃ x', x.sendData item = some x' ∧ x'.Holds (items ++ [item]) ∧ x'.itemSize = x.itemSize ∧
      x'.maxItems = x.maxItems := by
  have hfree : ¬ freeBytes x.ringBuf < x.itemSize := fun hlt =>
    absurd (h.free_lt_iff.1 hlt) (by omega)
  refine ⟨_, if_neg hfree, ⟨h.magic, h.itemSize_pos, ?_, ?_, ?_⟩, rfl, rfl⟩
  · simp only [RingBuffer.capacity_write]
    exact h.maxItems
  · intro i hi
    rcases List.mem_append.1 hi with hi | hi
    · exact h.size i hi
    · rw [List.mem_singleton.1 hi, hitem]
  · rw [freeBytes_eq] at hfree
    rw [RingBuffer.contents_write, h.bytes, List.flatten_append, List.flatten_singleton,
      ← hitem, List.take_length, List.take_of_length_le (by omega)]

theorem receiveData_of_empty (h : x.Holds []) : x.receiveData = none :=
  if_pos (h.count_lt_iff.2 rfl)

/-- **Receiving** takes the first item. -/
theorem receiveData_of_cons (h : x.Holds (item :: items)) :
    ∃ x', x.receiveData = some (x', item) ∧ x'.Holds items ∧ x'.itemSize = x.itemSize ∧
      x'.maxItems = x.maxItems := by
  have hcount : ¬ x.ringBuf.count < x.itemSize := fun hlt =>
    absurd (h.count_lt_iff.1 hlt) (by simp)
  have hitem := h.size item List.mem_cons_self
  have hread : (x.ringBuf.read x.itemSize).2 = item := by
    rw [RingBuffer.read_snd, h.bytes, List.flatten_cons, ← hitem, List.take_left]
  refine ⟨{ x with ringBuf := (x.ringBuf.read x.itemSize).1 }, ?_,
    ⟨h.magic, h.itemSize_pos, h.maxItems, ?_, ?_⟩, rfl, rfl⟩
  · rw [receiveData, if_neg hcount]
    simp only [hread]
  · exact fun i hi => h.size i (List.mem_cons_of_mem _ hi)
  · rw [RingBuffer.contents_read, h.bytes, List.flatten_cons, ← hitem, List.drop_left]

/-- **Peeking** returns the item that the next receive returns. -/
theorem peekData_eq (x : Queue) : x.peekData = x.receiveData.map Prod.snd := by
  rw [peekData, receiveData]
  split
  · rfl
  · rename_i h
    simp only [Option.map_some, RingBuffer.read_snd]
    rw [peekBytes_eq (not_lt.1 h)]

theorem Holds.resetData (h : x.Holds items) : x.resetData.Holds [] :=
  ⟨h.magic, h.itemSize_pos, h.maxItems, by simp, by simp [Queue.resetData]⟩

/-! ## Runs -/

/-- **One data step** is a step of the bounded FIFO. -/
theorem Holds.step (h : x.Holds items) {a : QueueSection} (ha : a.Allowed x) :
    ∃ items', (a.run x).Holds items' ∧ (a.run x).itemSize = x.itemSize ∧
      (a.run x).maxItems = x.maxItems ∧ Fifo.Step x.maxItems items (a.event x) items' := by
  -- the two ways to send, and the two ways to receive, have the same data step
  have hsend : ∀ item : List UInt8, item.length = x.itemSize →
      ∃ items', (QueueSection.run x (.send item)).Holds items' ∧
        (QueueSection.run x (.send item)).itemSize = x.itemSize ∧
        (QueueSection.run x (.send item)).maxItems = x.maxItems ∧
        Fifo.Step x.maxItems items (QueueSection.event x (.send item)) items' := by
    intro item hitem
    simp only [QueueSection.run, QueueSection.event]
    rcases h.length_le.eq_or_lt with hfull | hspace
    · simp only [sendData_of_full h hfull, Option.getD_none, Option.isSome_none,
        Bool.false_eq_true, if_false]
      exact ⟨items, h, trivial, trivial, .refused hfull⟩
    · obtain ⟨x', hx', hholds, hsize, hmax⟩ := sendData_of_space h hspace hitem
      simp only [hx', Option.getD_some, Option.isSome_some, if_true]
      exact ⟨items ++ [item], hholds, hsize, hmax, .accepted item hspace⟩
  have hreceive : ∃ items', (QueueSection.run x .receive).Holds items' ∧
      (QueueSection.run x .receive).itemSize = x.itemSize ∧
      (QueueSection.run x .receive).maxItems = x.maxItems ∧
      Fifo.Step x.maxItems items (QueueSection.event x .receive) items' := by
    simp only [QueueSection.run, QueueSection.event]
    cases items with
    | nil =>
      simp only [receiveData_of_empty h]
      exact ⟨[], h, trivial, trivial, .empty⟩
    | cons item items =>
      obtain ⟨x', hx', hholds, hsize, hmax⟩ := receiveData_of_cons h
      simp only [hx']
      exact ⟨items, hholds, hsize, hmax, .delivered item items⟩
  cases a with
  | send item => exact hsend item ha
  | sendFromIsr item => exact hsend item ha
  | receive => exact hreceive
  | receiveFromIsr => exact hreceive
  | reset => exact ⟨[], h.resetData, rfl, rfl, .cleared items⟩
  | peek =>
    refine ⟨items, h, rfl, rfl, ?_⟩
    rw [QueueSection.event, peekData_eq]
    cases items with
    | nil =>
      rw [receiveData_of_empty h]
      exact .empty
    | cons item items =>
      obtain ⟨x', hx', -, -, -⟩ := receiveData_of_cons h
      rw [hx']
      exact .peeked item items

section NoWait

variable (h : x.Holds items) (k : Kernel) (calls : TaskId → Option QueueCall)
include h

/-- What a call that does not wait comes to. -/
theorem Holds.enter_noWait {a : QueueCall} (ha : a.timeout = noWait) :
    QueueSystem.enter ⟨k, x, calls⟩ a = match QueueSystem.attempt ⟨k, x, calls⟩ a with
      | some (s, item) => (s, .returns .ok item)
      | none => (⟨k, x, calls⟩, .returns .errorTimeout none) := by
  rw [QueueSystem.enter, if_neg (not_not.2 h.magic)]
  cases hattempt : QueueSystem.attempt ⟨k, x, calls⟩ a <;>
    simp only [QueueSystem.proceed, hattempt, if_pos ha]

theorem Holds.send_noWait (item : List UInt8) :
    (QueueSystem.enter ⟨k, x, calls⟩ (.send item noWait)).2 = .returns .errorTimeout none ↔
      items.length = x.maxItems := by
  rw [← h.free_lt_iff, h.enter_noWait k calls rfl, QueueSystem.attempt, sendData]
  by_cases hfree : freeBytes x.ringBuf < x.itemSize <;> simp [hfree]

theorem Holds.receive_noWait :
    (QueueSystem.enter ⟨k, x, calls⟩ (.receive noWait)).2 = .returns .errorTimeout none ↔
      items = [] := by
  rw [← h.count_lt_iff, h.enter_noWait k calls rfl, QueueSystem.attempt, receiveData]
  by_cases hcount : x.ringBuf.count < x.itemSize <;> simp [hcount]

theorem Holds.peek_noWait :
    (QueueSystem.enter ⟨k, x, calls⟩ (.peek noWait)).1 = ⟨k, x, calls⟩ := by
  rw [h.enter_noWait k calls rfl, QueueSystem.attempt]
  cases x.peekData <;> rfl

end NoWait

/-- What a successful `sertos_queue_create_static` comes to. -/
theorem createStatic_cases {storage : ℕ → UInt8} {storageSize itemSize : ℕ}
    (h : createStatic storage storageSize itemSize = (some x, .ok)) :
    ∃ r, 0 < itemSize ∧ RingBuffer.init storage storageSize = some r ∧
      x = ⟨r, itemSize, r.capacity / itemSize, true, queueMagicWord⟩ := by
  rw [createStatic] at h
  split_ifs at h with hparam
  · exact absurd h (by simp)
  · cases hinit : RingBuffer.init storage storageSize with
    | none => simp [hinit] at h
    | some r =>
      simp only [hinit, Prod.mk.injEq, Option.some.injEq, and_true] at h
      exact ⟨r, by omega, rfl, h.symm⟩

theorem createStatic_holds {storage : ℕ → UInt8} {storageSize itemSize : ℕ}
    (h : createStatic storage storageSize itemSize = (some x, .ok)) : x.Holds [] := by
  obtain ⟨r, hpos, hinit, rfl⟩ := createStatic_cases h
  exact ⟨rfl, hpos, rfl, by simp, by simp [(RingBuffer.init_spec hinit).1]⟩

/-- What a successful `sertos_queue_create` comes to. -/
theorem create_cases {w itemSize maxItems : ℕ} {controlBlock : Bool}
    {malloc : ℕ → Option (ℕ → UInt8)}
    (h : create w controlBlock malloc itemSize maxItems = some (some x, .ok)) :
    ∃ power storage y, nextPowerOfTwo w ((itemSize * maxItems + 1) % 2 ^ w) = some power ∧
      createStatic storage power itemSize = (some y, .ok) ∧
      x = { y with isStaticallyAllocated := false } := by
  rw [create] at h
  by_cases hparam : itemSize = 0 ∨ maxItems = 0
  · rw [if_pos hparam] at h
    exact absurd h (by simp)
  · rw [if_neg hparam] at h
    obtain ⟨power, hpower, h⟩ := Option.map_eq_some_iff.1 h
    cases controlBlock with
    | false => exact absurd h (by simp)
    | true =>
      cases hmalloc : malloc power with
      | none => simp [hmalloc] at h
      | some storage =>
        simp only [hmalloc, if_true] at h
        split at h
        · next y hcreate =>
          simp only [Prod.mk.injEq, Option.some.injEq, and_true] at h
          exact ⟨power, storage, y, hpower, hcreate, h.symm⟩
        · next hne =>
          exact absurd h (hne x)

/-- A queue is created empty. -/
theorem Created.holds (h : x.Created) : x.Holds [] := by
  rcases h with ⟨storage, storageSize, itemSize, h⟩ | ⟨w, controlBlock, malloc, itemSize, maxItems, h⟩
  · exact createStatic_holds h
  · obtain ⟨power, storage, y, -, hcreate, rfl⟩ := create_cases h
    obtain ⟨hmagic, hpos, hmax, hsize, hbytes⟩ := createStatic_holds hcreate
    exact ⟨hmagic, hpos, hmax, hsize, hbytes⟩

/-- What holds of a queue that holds `items` after data steps that were seen as `es`. -/
structure Refines (es : List (Fifo.Event (List UInt8))) (x : Queue) (items : List (List UInt8)) :
    Prop where
  /-- The bytes are a whole number of items. -/
  holds : x.Holds items
  /-- The steps were those of a bounded FIFO. -/
  fifo : Trace (Fifo.Step x.maxItems) [] es items
  /-- The items are the ones that were accepted since the last reset and not received yet. -/
  order : (Fifo.history es).accepted = (Fifo.history es).delivered ++ items
  getCount : x.getCount = items.length
  total : x.getCount + x.getSpacesAvailable = x.maxItems
  /-- A send that does not wait fails exactly if there is no space. -/
  send_fails : ∀ k calls item, (QueueSystem.enter ⟨k, x, calls⟩ (.send item noWait)).2 =
    .returns .errorTimeout none ↔ x.getSpacesAvailable = 0
  /-- A receive that does not wait fails exactly if there is no item. -/
  receive_fails : ∀ k calls, (QueueSystem.enter ⟨k, x, calls⟩ (.receive noWait)).2 =
    .returns .errorTimeout none ↔ x.getCount = 0
  /-- A peek returns the item that the next receive would return. -/
  peek_eq : x.peekData = x.receiveData.map Prod.snd
  /-- A peek changes nothing. -/
  peek_unchanged : ∀ k calls, (QueueSystem.enter ⟨k, x, calls⟩ (.peek noWait)).1 = ⟨k, x, calls⟩
  /-- In any kernel the functions of the queue take these data steps. -/
  steps : ∀ k calls, QueueSystem.TakesDataSteps ⟨k, x, calls⟩

/-- **The message queue refines a bounded FIFO of items,** in every interleaving of its data
steps. -/
theorem refines_fifo {x₀ : Queue} (hcreated : x₀.Created) {steps : List QueueSection}
    (h : Trace QueueSection.Step x₀ steps x) :
    x.itemSize = x₀.itemSize ∧ x.maxItems = x₀.maxItems ∧
      ∃ items, Refines (outputs QueueSection.run QueueSection.event x₀ steps) x items := by
  obtain ⟨items, ⟨hholds, hsize, hmax⟩, htrace⟩ := h.exists_simulation
    (A := fun x items => x.Holds items ∧ x.itemSize = x₀.itemSize ∧ x.maxItems = x₀.maxItems)
    (S := Fifo.Step x₀.maxItems) (o := QueueSection.event) (fun x a items hA ha => by
      obtain ⟨hholds, hsize, hmax⟩ := hA
      obtain ⟨items', hholds', hsize', hmax', hstep⟩ := hholds.step ha
      exact ⟨items', ⟨hholds', hsize'.trans hsize, hmax'.trans hmax⟩, hmax ▸ hstep⟩)
    ⟨hcreated.holds, rfl, rfl⟩
  have hle := hholds.length_le
  have hcount := hholds.getCount
  have hspaces := hholds.getSpacesAvailable
  exact ⟨hsize, hmax, items, hholds, hmax ▸ htrace, Fifo.order htrace, hcount, by omega,
    fun k calls item => by rw [hholds.send_noWait]; omega,
    fun k calls => by rw [hholds.receive_noWait, hcount, List.length_eq_zero_iff],
    peekData_eq x, fun k calls => hholds.peek_noWait k calls,
    fun k calls => QueueSystem.takesDataSteps hholds.magic⟩

/-- Two items fill a queue, a third one is refused and sent again after a receive. -/
def fillAndDrain : List QueueSection :=
  [.send [1, 2, 3], .send [4, 5, 6], .send [7, 8, 9], .receive, .sendFromIsr [7, 8, 9], .peek,
    .receiveFromIsr]

/-- A queue for items of three bytes over a storage of eight: the ring has room for seven bytes, so
one byte is never used and the third item wraps around. -/
def threeByteQueue : Queue :=
  { ringBuf := ((RingBuffer.init (fun _ => 0) 8).get (by decide))
    itemSize := 3
    maxItems := 2
    isStaticallyAllocated := true
    magic := queueMagicWord }

theorem refines_fifo_wrapped :
    createStatic (fun _ => 0) 8 3 = (some threeByteQueue, .ok) ∧
    ∃ x items, Trace QueueSection.Step threeByteQueue fillAndDrain x ∧ x.getCount = 1 ∧
      outputs QueueSection.run QueueSection.event threeByteQueue fillAndDrain =
        [.accepted [1, 2, 3], .accepted [4, 5, 6], .refused, .delivered [1, 2, 3],
          .accepted [7, 8, 9], .peeked [4, 5, 6], .delivered [4, 5, 6]] ∧
      Refines (outputs QueueSection.run QueueSection.event threeByteQueue fillAndDrain) x items := by
  have hcreate : createStatic (fun _ => 0) 8 3 = (some threeByteQueue, .ok) := rfl
  have hrun : Trace QueueSection.Step threeByteQueue fillAndDrain _ :=
    Trace.of_guards (by decide +kernel)
  obtain ⟨-, -, items, hrefines⟩ := refines_fifo (.inl ⟨_, _, _, hcreate⟩) hrun
  exact ⟨hcreate, _, items, hrun, by decide +kernel, by decide +kernel, hrefines⟩

end Queue

end Sertos
