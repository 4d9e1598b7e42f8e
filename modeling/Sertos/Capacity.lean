import Mathlib.Order.Bounds.Basic
import Sertos.Pool
import Sertos.QueueData
import Sertos.StreamWakeUps

/-!
# The capacity of created queues and stream buffers

`sertos_queue_create` and `sertos_stream_buffer_create` compute how many bytes of storage they need
in a `size_t`, one more than the contents, since one place of a ring stays unused.  That computation
wraps around.  If it does not, the storage is large enough.  If it does, the storage is a power of
two that fits in a `size_t` all the same, and so at most half of what was asked for: the call
returns `SERTOS_STATUS_OK` for a buffer that is too small (`created_capacity_iff`).  With
`2 ^ w - 1` bytes asked for, a stream buffer holds one.

Between the two, where more than half the range of a `size_t` is needed, there is no power of two to
be found, and the loop that looks for it does not end (`creation_returns_iff`).
-/

set_option autoImplicit false

namespace Sertos

open Scheduler (bss)

namespace Queue

variable {w value n p q : ℕ}

/-! ## `next_power_of_two` -/

/-- The candidate is a power of two below `2 ^ w` until the bit has been shifted out, and zero from
then on. -/
def Candidate (w p : ℕ) : Prop := p = 0 ∨ ∃ i, 1 ≤ i ∧ i < w ∧ p = 2 ^ i

theorem Candidate.shift (h : Candidate w p) : Candidate w (p * 2 % 2 ^ w) := by
  rcases h with rfl | ⟨i, hi, hw, rfl⟩
  · exact .inl (by simp)
  · rcases (show i + 1 ≤ w from hw).eq_or_lt with hlast | hlt
    · left
      rw [← Nat.pow_succ, ← hlast, Nat.mod_self]
    · right
      refine ⟨i + 1, Nat.le_add_left 1 i, hlt, ?_⟩
      rw [← Nat.pow_succ, Nat.mod_eq_of_lt (Nat.pow_lt_pow_right (by decide) hlt)]

theorem nextPowerOfTwoFrom_spec (h : nextPowerOfTwoFrom w value n p = some q)
    (hp : Candidate w p) : value ≤ q ∧ Candidate w q := by
  induction n generalizing p with
  | zero => simp [nextPowerOfTwoFrom] at h
  | succ n ih =>
    rw [nextPowerOfTwoFrom] at h
    split at h
    · exact ih h hp.shift
    · next hle =>
      obtain rfl := Option.some_inj.1 h
      exact ⟨not_lt.1 hle, hp⟩

/-- What the loop ends with is large enough, and takes up at most half the range of a `size_t`. -/
theorem nextPowerOfTwoFrom_two (hw : 2 ≤ w) (h : nextPowerOfTwoFrom w value n 2 = some q) :
    value ≤ q ∧ 2 * q ≤ 2 ^ w := by
  obtain ⟨hle, hq⟩ := nextPowerOfTwoFrom_spec h (.inr ⟨1, le_rfl, hw, rfl⟩)
  refine ⟨hle, ?_⟩
  rcases hq with rfl | ⟨i, -, hi, rfl⟩
  · exact Nat.zero_le _
  · rw [Nat.mul_comm, ← Nat.pow_succ]
    exact Nat.pow_le_pow_right (by decide) hi

/-- What `next_power_of_two` returns is large enough, and takes up at most half the range of a
`size_t`. -/
theorem nextPowerOfTwo_spec (hw : 2 ≤ w) (h : nextPowerOfTwo w value = some q) :
    value ≤ q ∧ 2 * q ≤ 2 ^ w :=
  nextPowerOfTwoFrom_two hw h

/-- As long as the value is at most `2 ^ (w - 1)`, the loop ends before the bit is shifted out, at
the first power that is large enough. -/
theorem nextPowerOfTwoFrom_of_le (hvalue : value ≤ 2 ^ (w - 1)) {i : ℕ} (hi : i < w)
    (hn : w ≤ n + i) : ∃ j, nextPowerOfTwoFrom w value n (2 ^ i) = some (2 ^ j) ∧ i ≤ j ∧
      value ≤ 2 ^ j ∧ ∀ l, i ≤ l → value ≤ 2 ^ l → j ≤ l := by
  induction n generalizing i with
  | zero => omega
  | succ n ih =>
    rw [nextPowerOfTwoFrom]
    split
    · next hlt =>
      have hi' : i + 1 < w := by
        by_contra hlast
        have hpow : 2 ^ (w - 1) ≤ 2 ^ i := Nat.pow_le_pow_right (by decide) (by omega)
        omega
      rw [← Nat.pow_succ, Nat.mod_eq_of_lt (Nat.pow_lt_pow_right (by decide) hi')]
      obtain ⟨j, hj, hij, hle, hleast⟩ := ih hi' (by omega)
      refine ⟨j, hj, by omega, hle, fun l hl hvl => hleast l ?_ hvl⟩
      -- the power just tried was too small
      rcases hl.eq_or_lt with rfl | hl
      · exact absurd hvl (not_le.2 hlt)
      · exact hl
    · next hle => exact ⟨i, rfl, le_rfl, not_lt.1 hle, fun l hl _ => hl⟩

/-- The powers of two `next_power_of_two` has to choose from. -/
def LargePowers (value : ℕ) : Set ℕ := {p | (∃ i, p = 2 ^ i) ∧ max 2 value ≤ p}

theorem nextPowerOfTwo_of_le (hw : 2 ≤ w) (hvalue : value ≤ 2 ^ (w - 1)) :
    ∃ q, nextPowerOfTwo w value = some q ∧ IsLeast (LargePowers value) q := by
  obtain ⟨j, hj, hij, hle, hleast⟩ :=
    nextPowerOfTwoFrom_of_le (n := w + 1) hvalue (i := 1) (by omega) (by omega)
  refine ⟨2 ^ j, hj, ⟨⟨j, rfl⟩, max_le ?_ hle⟩, ?_⟩
  · exact Nat.pow_le_pow_right (n := 2) (by decide) hij
  · rintro _ ⟨⟨l, rfl⟩, hl⟩
    have hl1 : 1 ≤ l := by
      by_contra hzero
      obtain rfl : l = 0 := by omega
      exact absurd ((le_max_left _ _).trans hl) (by decide)
    exact Nat.pow_le_pow_right (by decide) (hleast l hl1 ((le_max_right _ _).trans hl))

/-- **The loop ends exactly if the value is at most half the range of a `size_t`.** -/
theorem nextPowerOfTwo_returns_iff (hw : 2 ≤ w) :
    (∃ n q, nextPowerOfTwoFrom w value n 2 = some q) ↔ value ≤ 2 ^ (w - 1) := by
  constructor
  · rintro ⟨n, q, h⟩
    obtain ⟨hle, hq⟩ := nextPowerOfTwoFrom_two hw h
    have hhalf : 2 ^ w = 2 * 2 ^ (w - 1) := by
      rw [← Nat.pow_succ']
      congr 1
      omega
    omega
  · intro hvalue
    obtain ⟨q, hq, -⟩ := nextPowerOfTwo_of_le hw hvalue
    exact ⟨_, q, hq⟩

theorem nextPowerOfTwo_isSome_iff (hw : 2 ≤ w) :
    (nextPowerOfTwo w value).isSome = true ↔ value ≤ 2 ^ (w - 1) := by
  refine ⟨fun h => ?_, fun hvalue => ?_⟩
  · exact (nextPowerOfTwo_returns_iff hw).1 ⟨_, Option.isSome_iff_exists.1 h⟩
  · obtain ⟨q, hq, -⟩ := nextPowerOfTwo_of_le hw hvalue
    exact Option.isSome_iff_exists.2 ⟨q, hq⟩

/-- **The storage is large enough exactly if the computation of its size does not wrap around.** -/
theorem lt_nextPowerOfTwo_iff (hw : 2 ≤ w) (h : nextPowerOfTwo w ((n + 1) % 2 ^ w) = some q) :
    n < q ↔ n + 1 < 2 ^ w := by
  obtain ⟨hle, hq⟩ := nextPowerOfTwo_spec hw h
  have hpos : 2 ^ 2 ≤ 2 ^ w := Nat.pow_le_pow_right (by decide) hw
  constructor
  · intro hlt
    omega
  · intro hfit
    rw [Nat.mod_eq_of_lt hfit] at hle
    exact hle

/-! ## Queues -/

variable {x : Queue} {items : List (List UInt8)} {itemSize maxItems : ℕ} {controlBlock : Bool}
  {malloc : ℕ → Option (ℕ → UInt8)}

/-- The replies to sends that do not wait, made one after the other. -/
def sendEach (s : QueueSystem) : List (List UInt8) → List QueueReply
  | [] => []
  | item :: items =>
    (s.enter (.send item noWait)).2 :: sendEach (s.enter (.send item noWait)).1 items

/-- `n` sends in a row that do not wait succeed, whatever is sent. -/
def AcceptsItems (x : Queue) (n : ℕ) : Prop :=
  ∀ (k : Kernel) (calls : TaskId → Option QueueCall) (items : List (List UInt8)),
    items.length = n → (∀ item ∈ items, item.length = x.itemSize) →
      ∀ reply ∈ sendEach ⟨k, x, calls⟩ items, reply = .returns .ok none

/-- **One send** that does not wait. -/
theorem Holds.send_of_space (h : x.Holds items) (hspace : items.length < x.maxItems)
    {item : List UInt8} (hitem : item.length = x.itemSize) (k : Kernel)
    (calls : TaskId → Option QueueCall) :
    ∃ k' x', QueueSystem.enter ⟨k, x, calls⟩ (.send item noWait) =
        (⟨k', x', calls⟩, .returns .ok none) ∧ x'.Holds (items ++ [item]) ∧
      x'.itemSize = x.itemSize ∧ x'.maxItems = x.maxItems := by
  obtain ⟨x', hsend, hholds, hsize, hmax⟩ := sendData_of_space h hspace hitem
  have hrun := h.enter_noWait k calls (a := .send item noWait) rfl
  simp only [QueueSystem.attempt, hsend] at hrun
  exact ⟨_, x', hrun, hholds, hsize, hmax⟩

/-- The sends succeed exactly if there is space for all the items. -/
theorem Holds.sendEach_ok_iff (h : x.Holds items) {more : List (List UInt8)}
    (hmore : ∀ item ∈ more, item.length = x.itemSize) (k : Kernel)
    (calls : TaskId → Option QueueCall) :
    (∀ reply ∈ sendEach ⟨k, x, calls⟩ more, reply = .returns .ok none) ↔
      items.length + more.length ≤ x.maxItems := by
  induction more generalizing x items k with
  | nil => simpa [sendEach] using h.length_le
  | cons item more ih =>
    rw [sendEach, List.forall_mem_cons, List.length_cons]
    rcases h.length_le.eq_or_lt with hfull | hspace
    · have hfails := (h.send_noWait k calls item).2 hfull
      rw [hfails]
      refine ⟨fun hok => absurd hok.1 (by simp), fun hle => ?_⟩
      omega
    · obtain ⟨k', x', hrun, hholds, hsize, hmax⟩ :=
        h.send_of_space hspace (hmore item List.mem_cons_self) k calls
      have hmore' : ∀ item' ∈ more, item'.length = x'.itemSize := fun item' hi =>
        hsize ▸ hmore item' (List.mem_cons_of_mem _ hi)
      rw [hrun, ih hholds hmore' k', hmax, List.length_append, List.length_singleton]
      simp only [true_and]
      omega

/-- An empty queue accepts as many items as its ring has room for. -/
theorem Holds.acceptsItems_iff (h : x.Holds []) :
    x.AcceptsItems n ↔ x.itemSize * n ≤ x.ringBuf.capacity := by
  have hmax : n ≤ x.maxItems ↔ x.itemSize * n ≤ x.ringBuf.capacity := by
    rw [h.maxItems, Nat.le_div_iff_mul_le h.itemSize_pos, Nat.mul_comm]
  rw [← hmax]
  constructor
  · intro hx
    have hall := hx bss (fun _ => none)
      (List.replicate n (List.replicate x.itemSize 0)) (by simp) (by simp)
    rw [h.sendEach_ok_iff (by simp)] at hall
    simpa using hall
  · intro hle k calls more hlength hmore
    rw [h.sendEach_ok_iff hmore k calls, hlength]
    simpa using hle

theorem createStatic_capacity {storage : ℕ → UInt8} {storageSize : ℕ}
    (h : createStatic storage storageSize itemSize = (some x, .ok)) :
    x.itemSize = itemSize ∧ x.ringBuf.capacity + 1 = storageSize := by
  obtain ⟨r, -, hinit, rfl⟩ := createStatic_cases h
  exact ⟨rfl, (RingBuffer.init_spec hinit).2⟩

/-- A created queue has the capacity asked for exactly if its size does not wrap around. -/
theorem create_acceptsItems_iff (hw : 2 ≤ w)
    (h : create w controlBlock malloc itemSize maxItems = some (some x, .ok)) :
    x.AcceptsItems maxItems ↔ itemSize * maxItems + 1 < 2 ^ w := by
  have hholds : x.Holds [] := Created.holds (.inr ⟨w, controlBlock, malloc, itemSize, maxItems, h⟩)
  obtain ⟨power, storage, y, hpower, hcreate, rfl⟩ := create_cases h
  obtain ⟨hsize, hcapacity⟩ := createStatic_capacity hcreate
  rw [hholds.acceptsItems_iff, ← lt_nextPowerOfTwo_iff hw hpower, ← hcapacity, ← hsize,
    Nat.lt_succ_iff]

end Queue

namespace StreamBuffer

variable {w bufferSize trigger n : ℕ} {x : StreamBuffer} {controlBlock : Bool}
  {malloc : ℕ → Option (ℕ → UInt8)}

/-! ## Stream buffers -/

/-- The replies to sends that do not wait, made one after the other. -/
def sendEach (s : StreamSystem) : List (List UInt8) → List StreamReply
  | [] => []
  | data :: more =>
    (s.enter (.send data noWait)).2 :: sendEach (s.enter (.send data noWait)).1 more

/-- Sends that do not wait take all of `n` bytes, in whatever pieces these are sent. -/
def AcceptsBytes (x : StreamBuffer) (n : ℕ) : Prop :=
  ∀ (k : Kernel) (calls : TaskId → Option StreamCall) (pieces : List (List UInt8)),
    (∀ data ∈ pieces, data ≠ []) → pieces.flatten.length = n →
      sendEach ⟨k, x, calls⟩ pieces = pieces.map fun data => .returns data.length []

/-- **One send** that does not wait. -/
theorem enter_send_noWait (hx : x.IsValid) {data : List UInt8} (hdata : data ≠ []) (k : Kernel)
    (calls : TaskId → Option StreamCall) :
    ∃ k' x', StreamSystem.enter ⟨k, x, calls⟩ (.send data noWait) =
        (⟨k', x', calls⟩, .returns (min data.length x.ringBuf.free) []) ∧ x'.IsValid ∧
      x'.ringBuf.capacity = x.ringBuf.capacity ∧
      x'.ringBuf.count = x.ringBuf.count + min x.ringBuf.free data.length := by
  have hvalid : StreamCall.ParamsValid x (.send data noWait) :=
    ⟨hx, List.length_pos_of_ne_nil hdata⟩
  rw [StreamSystem.enter, if_pos hvalid]
  simp only [StreamSystem.proceed, freeBytes, Queue.freeBytes_eq, if_true]
  split
  · next hfull =>
    exact ⟨k, x, by simp [hfull], hx, rfl, by simp [hfull]⟩
  · refine ⟨((⟨k, x, calls⟩ : StreamSystem).sendData data).1.kernel,
      { x with ringBuf := (x.ringBuf.write data).1 }, ?_, hx, RingBuffer.capacity_write _ _,
      RingBuffer.count_write _ _⟩
    simp only [StreamSystem.sendData, StreamSystem.write, StreamSystem.notifyUnblockedTask,
      StreamSystem.wakeReceiver]
    split <;> rfl

/-- Sends take every byte as long as there is room for all of them. -/
theorem sendEach_of_room (hx : x.IsValid) (k : Kernel) (calls : TaskId → Option StreamCall)
    {pieces : List (List UInt8)} (hpieces : ∀ data ∈ pieces, data ≠ [])
    (hroom : x.ringBuf.count + pieces.flatten.length ≤ x.ringBuf.capacity) :
    sendEach ⟨k, x, calls⟩ pieces = pieces.map fun data => .returns data.length [] := by
  induction pieces generalizing x k with
  | nil => rfl
  | cons data more ih =>
    rw [List.flatten_cons, List.length_append] at hroom
    obtain ⟨k', x', hrun, hx', hcapacity, hcount⟩ :=
      enter_send_noWait hx (hpieces data List.mem_cons_self) k calls
    have hfree : data.length ≤ x.ringBuf.free := by
      rw [RingBuffer.free]
      omega
    rw [Nat.min_eq_right hfree] at hcount
    rw [Nat.min_eq_left hfree] at hrun
    rw [sendEach, hrun, List.map_cons, ih hx' k' (fun d hd => hpieces d (List.mem_cons_of_mem _ hd))
      (by omega)]

/-- An empty buffer accepts as many bytes as its ring has room for. -/
theorem acceptsBytes_iff (hx : x.IsValid) (hempty : x.ringBuf.count = 0) :
    x.AcceptsBytes n ↔ n ≤ x.ringBuf.capacity := by
  constructor
  · intro haccepts
    rcases Nat.eq_zero_or_pos n with rfl | hpos
    · exact Nat.zero_le _
    · -- all the bytes in one piece
      have hne : List.replicate n (0 : UInt8) ≠ [] := by simp [hpos.ne']
      have hall := haccepts bss (fun _ => none) [List.replicate n 0] (by simpa using hne) (by simp)
      obtain ⟨k', x', hrun, -⟩ := enter_send_noWait hx hne bss fun _ => none
      simp only [sendEach, hrun, List.map_cons, List.map_nil, List.length_replicate, List.cons.injEq,
        StreamReply.returns.injEq, and_true] at hall
      rw [RingBuffer.free, hempty, Nat.sub_zero] at hall
      omega
  · intro hle k calls pieces hpieces hlength
    exact sendEach_of_room hx k calls hpieces (by omega)

theorem createStatic_capacity {storage : ℕ → UInt8} {storageSize : ℕ}
    (h : createStatic storage storageSize trigger = (some x, .ok)) :
    x.IsValid ∧ x.ringBuf.count = 0 ∧ x.ringBuf.capacity + 1 = storageSize := by
  obtain ⟨r, -, hinit, rfl⟩ := createStatic_cases h
  obtain ⟨hcontents, hcapacity⟩ := RingBuffer.init_spec hinit
  refine ⟨rfl, ?_, hcapacity⟩
  rw [← RingBuffer.length_contents, hcontents, List.length_nil]

/-- A created stream buffer has the capacity asked for exactly if its size does not wrap around. -/
theorem create_acceptsBytes_iff (hw : 2 ≤ w)
    (h : create w controlBlock malloc bufferSize trigger = some (some x, .ok)) :
    x.AcceptsBytes bufferSize ↔ bufferSize + 1 < 2 ^ w := by
  obtain ⟨power, storage, y, hpower, hcreate, rfl⟩ := create_cases h
  obtain ⟨hvalid, hempty, hcapacity⟩ := createStatic_capacity hcreate
  rw [← Queue.lt_nextPowerOfTwo_iff hw hpower, ← hcapacity, Nat.lt_succ_iff]
  exact acceptsBytes_iff hvalid hempty

end StreamBuffer

variable {w : ℕ} {controlBlock : Bool} {malloc : ℕ → Option (ℕ → UInt8)}

/-- **When a created buffer has the capacity asked for.**  A queue accepts `max_items` sends in a
row, and a stream buffer `buffer_size` bytes, exactly if the number of bytes of storage they need is
a `size_t`. -/
theorem created_capacity_iff (hw : 2 ≤ w) :
    (∀ itemSize maxItems x,
      Queue.create w controlBlock malloc itemSize maxItems = some (some x, .ok) →
        (x.AcceptsItems maxItems ↔ itemSize * maxItems + 1 < 2 ^ w)) ∧
    ∀ bufferSize trigger x,
      StreamBuffer.create w controlBlock malloc bufferSize trigger = some (some x, .ok) →
        (x.AcceptsBytes bufferSize ↔ bufferSize + 1 < 2 ^ w) :=
  ⟨fun _ _ _ h => Queue.create_acceptsItems_iff hw h,
    fun _ _ _ h => StreamBuffer.create_acceptsBytes_iff hw h⟩

/-- The queue `sertos_queue_create` leaves over a storage of `size` bytes. -/
def createdQueue (size itemSize : ℕ) (h : (RingBuffer.init (fun _ => (0 : UInt8)) size).isSome) :
    Queue :=
  { ringBuf := (RingBuffer.init (fun _ => 0) size).get h
    itemSize := itemSize
    maxItems := ((RingBuffer.init (fun _ => (0 : UInt8)) size).get h).capacity / itemSize
    isStaticallyAllocated := false
    magic := queueMagicWord }

/-- The stream buffer `sertos_stream_buffer_create` leaves over a storage of `size` bytes. -/
def createdStreamBuffer (size : ℕ) (h : (RingBuffer.init (fun _ => (0 : UInt8)) size).isSome) :
    StreamBuffer :=
  { ringBuf := (RingBuffer.init (fun _ => 0) size).get h
    triggerLevelBytes := 1
    isStaticallyAllocated := false
    magic := streamBufferMagicWord }

/-- Two items of three bytes fit into the eight bytes of storage set aside for them, eight bytes of
a stream into sixteen. -/
theorem created_capacity_iff_small :
    (createdQueue 8 3 (by decide)).AcceptsItems 2 ∧
      (createdStreamBuffer 16 (by decide)).AcceptsBytes 8 := by
  have h := @created_capacity_iff 32 true (fun _ => some fun _ => 0) (by decide)
  exact ⟨(h.1 3 2 _ rfl).2 (by decide), (h.2 8 1 _ rfl).2 (by decide)⟩

/-- **A queue of `2 ^ 16` items of `2 ^ 16` bytes accepts none,** and a stream buffer for
`2 ^ 32 - 1` bytes not that many: both are created over two bytes of storage. -/
theorem created_capacity_wraps :
    (∃ x, Queue.create 32 true (fun _ => some fun _ => 0) (2 ^ 16) (2 ^ 16) = some (some x, .ok) ∧
      ¬ x.AcceptsItems 1 ∧ ¬ x.AcceptsItems (2 ^ 16)) ∧
    ∃ x, StreamBuffer.create 32 true (fun _ => some fun _ => 0) (2 ^ 32 - 1) 1 =
      some (some x, .ok) ∧ ¬ x.AcceptsBytes (2 ^ 32 - 1) := by
  have hcreate : Queue.create 32 true (fun _ => some fun _ => 0) (2 ^ 16) (2 ^ 16) =
      some (some (createdQueue 2 (2 ^ 16) (by decide)), .ok) := rfl
  have hcreate' : StreamBuffer.create 32 true (fun _ => some fun _ => 0) (2 ^ 32 - 1) 1 =
      some (some (createdStreamBuffer 2 (by decide)), .ok) := rfl
  refine ⟨⟨_, hcreate, ?_, ?_⟩, _, hcreate', ?_⟩
  · have hholds := Queue.Created.holds (.inr ⟨_, _, _, _, _, hcreate⟩)
    rw [hholds.acceptsItems_iff]
    decide
  · rw [Queue.create_acceptsItems_iff (by decide) hcreate]
    decide
  · rw [StreamBuffer.create_acceptsBytes_iff (by decide) hcreate']
    decide

/-! ## When creation returns -/

namespace Pool

variable {s : Pool} {itemSize maxItems bufferSize trigger : ℕ} {outHandle : Bool} {m₁ m₂ : Option ℕ}

theorem queueCreate_returns_iff (hw : 2 ≤ w) :
    (queueCreate w s itemSize maxItems outHandle m₁ m₂).isSome = true ↔
      (outHandle = false ∨ itemSize = 0 ∨ maxItems = 0 ∨
        (itemSize * maxItems + 1) % 2 ^ w ≤ 2 ^ (w - 1)) := by
  rw [queueCreate]
  split_ifs with hout hparam
  · simp [hparam, or_assoc.symm]
  · rw [Option.isSome_map, Queue.nextPowerOfTwo_isSome_iff hw]
    simp [hout, not_or.1 hparam]
  · simp [hout]

theorem streamBufferCreate_returns_iff (hw : 2 ≤ w) :
    (streamBufferCreate w s bufferSize trigger outHandle m₁ m₂).isSome = true ↔
      (outHandle = false ∨ bufferSize = 0 ∨ (bufferSize + 1) % 2 ^ w ≤ 2 ^ (w - 1)) := by
  rw [streamBufferCreate]
  split_ifs with hout hparam
  · simp [hparam]
  · rw [Option.isSome_map, Queue.nextPowerOfTwo_isSome_iff hw]
    simp [hout, hparam]
  · simp [hout]

end Pool

/-- **When `next_power_of_two`, and the functions that call it, return.**  The loop ends, with the
least power of two that is at least two and at least the value, exactly if the value is at most half
the range of a `size_t`.  So `sertos_queue_create` and `sertos_stream_buffer_create` return exactly
if they have something to reject before the loop or the number of bytes they have computed is not
larger than that. -/
theorem creation_returns_iff (hw : 2 ≤ w) :
    (∀ value, (∃ n q, Queue.nextPowerOfTwoFrom w value n 2 = some q ∧
        IsLeast (Queue.LargePowers value) q) ↔ value ≤ 2 ^ (w - 1)) ∧
    (∀ s itemSize maxItems outHandle m₁ m₂,
      (Pool.queueCreate w s itemSize maxItems outHandle m₁ m₂).isSome = true ↔
        (outHandle = false ∨ itemSize = 0 ∨ maxItems = 0 ∨
          (itemSize * maxItems + 1) % 2 ^ w ≤ 2 ^ (w - 1))) ∧
    ∀ s bufferSize trigger outHandle m₁ m₂,
      (Pool.streamBufferCreate w s bufferSize trigger outHandle m₁ m₂).isSome = true ↔
        (outHandle = false ∨ bufferSize = 0 ∨ (bufferSize + 1) % 2 ^ w ≤ 2 ^ (w - 1)) := by
  refine ⟨fun value => ⟨?_, fun hvalue => ?_⟩, fun _ _ _ _ _ _ => Pool.queueCreate_returns_iff hw,
    fun _ _ _ _ _ _ => Pool.streamBufferCreate_returns_iff hw⟩
  · rintro ⟨n, q, h, -⟩
    exact (Queue.nextPowerOfTwo_returns_iff hw).1 ⟨n, q, h⟩
  · obtain ⟨q, hq, hleast⟩ := Queue.nextPowerOfTwo_of_le hw hvalue
    exact ⟨_, q, hq, hleast⟩

/-- A pool without a block. -/
def emptyPool : Pool := ⟨fun _ => ⟨0, false, none, .ready⟩, [], false⟩

/-- A queue of two items of three bytes, which need seven bytes, is created. -/
theorem creation_returns_iff_small :
    (Pool.queueCreate 32 emptyPool 3 2 true (some 0) (some 1)).isSome = true :=
  ((creation_returns_iff (w := 32) (by decide)).2.1 emptyPool 3 2 true (some 0) (some 1)).2
    (by decide)

/-- **A stream buffer for `2 ^ 31` bytes on a `size_t` of 32 bits:** the candidate wraps around to
zero, and the loop goes on for ever. -/
theorem creation_never_returns :
    (∀ n, Queue.nextPowerOfTwoFrom 32 (2 ^ 31 + 1) n 2 = none) ∧
      Pool.streamBufferCreate 32 emptyPool (2 ^ 31) 1 true (some 0) (some 1) = none ∧
      Pool.queueCreate 32 emptyPool (2 ^ 16) (2 ^ 15) true (some 0) (some 1) = none := by
  refine ⟨fun n => ?_, ?_, ?_⟩
  · cases h : Queue.nextPowerOfTwoFrom 32 (2 ^ 31 + 1) n 2 with
    | none => rfl
    | some q =>
      exact absurd ((Queue.nextPowerOfTwo_returns_iff (by decide)).1 ⟨n, q, h⟩) (by decide)
  · rw [← Option.not_isSome_iff_eq_none, Pool.streamBufferCreate_returns_iff (by decide)]
    decide
  · rw [← Option.not_isSome_iff_eq_none, Pool.queueCreate_returns_iff (by decide)]
    decide

end Sertos
