import Mathlib.Data.List.Basic
import Mathlib.Tactic.Common

/-!
# Ring buffers

A FIFO of elements in a circular storage whose size is a power of two, so that an index is wrapped
with a mask.  One place of the storage stays unused: head and tail are equal exactly if the buffer
is empty, and the capacity is the mask.

A `RingBuffer` carries what its indices must satisfy, so there is no ill-formed one.  Its meaning is
the list of its unread elements, `RingBuffer.contents`, oldest first; the lemmas say what each
operation does to that list, and nothing else about head, tail or storage is needed to use them.
-/

set_option autoImplicit false

/-- A ring buffer: elements are written at `head` and read at `tail`. -/
structure RingBuffer (α : Type*) where
  buffer : ℕ → α
  mask : ℕ
  head : ℕ
  tail : ℕ
  isPowerOfTwo : (mask + 1).isPowerOfTwo
  mask_pos : 0 < mask
  head_le : head ≤ mask
  tail_le : tail ≤ mask

namespace RingBuffer

variable {α : Type*}

/-- An empty buffer over the storage `buffer` of the given size, if that is a power of two and at
least two. -/
def init (buffer : ℕ → α) (size : ℕ) : Option (RingBuffer α) :=
  if h : size.isPowerOfTwo ∧ 2 ≤ size then
    some
      { buffer := buffer
        mask := size - 1
        head := 0
        tail := 0
        isPowerOfTwo := by rw [Nat.sub_add_cancel (by omega)]; exact h.1
        mask_pos := by omega
        head_le := Nat.zero_le _
        tail_le := Nat.zero_le _ }
  else none

/-- How many elements fit in. -/
def capacity (r : RingBuffer α) : ℕ := r.mask

/-- How many elements are stored. -/
def count (r : RingBuffer α) : ℕ := (r.head + (r.mask + 1) - r.tail) &&& r.mask

/-- How many more elements fit in. -/
def free (r : RingBuffer α) : ℕ := r.capacity - r.count

/-- Writes one element. -/
def push (r : RingBuffer α) (x : α) : RingBuffer α :=
  { r with
    buffer := Function.update r.buffer r.head x
    head := (r.head + 1) &&& r.mask
    head_le := Nat.and_le_right }

/-- Writes as many of the elements as fit in, and says how many. -/
def write (r : RingBuffer α) (xs : List α) : RingBuffer α × ℕ :=
  ((xs.take r.free).foldl push r, min xs.length r.free)

/-- The element that is stored `i` places behind the tail. -/
def get (r : RingBuffer α) (i : ℕ) : α := r.buffer ((r.tail + i) &&& r.mask)

/-- Reads up to `n` elements. -/
def read (r : RingBuffer α) (n : ℕ) : RingBuffer α × List α :=
  ({ r with
      tail := (r.tail + min n r.count) &&& r.mask
      tail_le := Nat.and_le_right },
    (List.range (min n r.count)).map r.get)

/-- Drops all elements. -/
def clear (r : RingBuffer α) : RingBuffer α :=
  { r with head := 0, tail := 0, head_le := Nat.zero_le _, tail_le := Nat.zero_le _ }

/-- The unread elements, oldest first. -/
def contents (r : RingBuffer α) : List α := (List.range r.count).map r.get

variable {r : RingBuffer α}

/-! ## Indices -/

/-- The mask wraps an index. -/
theorem and_mask (r : RingBuffer α) (x : ℕ) : x &&& r.mask = x % (r.mask + 1) := by
  obtain ⟨k, hk⟩ := r.isPowerOfTwo
  rw [hk, ← Nat.and_two_pow_sub_one_eq_mod, ← hk, Nat.add_sub_cancel]

theorem count_eq (r : RingBuffer α) :
    r.count = if r.tail ≤ r.head then r.head - r.tail else r.head + (r.mask + 1) - r.tail := by
  have hhead := r.head_le
  have htail := r.tail_le
  rw [count, and_mask]
  split
  · rw [show r.head + (r.mask + 1) - r.tail = (r.head - r.tail) + (r.mask + 1) by omega,
      Nat.add_mod_right, Nat.mod_eq_of_lt (by omega)]
  · exact Nat.mod_eq_of_lt (by omega)

theorem count_le_capacity (r : RingBuffer α) : r.count ≤ r.capacity := by
  have hhead := r.head_le
  have htail := r.tail_le
  rw [count_eq, capacity]
  split <;> omega

/-- The head is `count` places behind the tail. -/
theorem head_eq (r : RingBuffer α) : r.head = (r.tail + r.count) % (r.mask + 1) := by
  have hhead := r.head_le
  have htail := r.tail_le
  rw [count_eq]
  split
  · rw [Nat.mod_eq_of_lt (by omega)]
    omega
  · rw [show r.tail + (r.head + (r.mask + 1) - r.tail) = r.head + (r.mask + 1) by omega,
      Nat.add_mod_right, Nat.mod_eq_of_lt (by omega)]

/-- Two places fewer than a whole turn apart are different. -/
theorem index_ne (r : RingBuffer α) {i n : ℕ} (hi : i < n) (hn : n ≤ r.mask) :
    (r.tail + i) % (r.mask + 1) ≠ (r.tail + n) % (r.mask + 1) := by
  intro h
  have hd : r.mask + 1 ∣ (r.tail + n) - (r.tail + i) :=
    Nat.dvd_of_mod_eq_zero (Nat.sub_mod_eq_zero_of_mod_eq h.symm)
  have hle := Nat.le_of_dvd (by omega) hd
  omega

/-! ## Counts -/

@[simp] theorem length_contents (r : RingBuffer α) : r.contents.length = r.count := by
  simp [contents]

@[simp] theorem capacity_push (x : α) : (r.push x).capacity = r.capacity := rfl

/-- A count is determined by how far the head is behind the tail. -/
theorem count_eq_of_head {n : ℕ} (h : r.head = (r.tail + n) % (r.mask + 1)) (hn : n ≤ r.mask) :
    r.count = n := by
  have hcount := r.count_le_capacity
  rw [capacity] at hcount
  rw [r.head_eq] at h
  rcases Nat.lt_trichotomy r.count n with hlt | heq | hgt
  · exact absurd h (r.index_ne hlt hn)
  · exact heq
  · exact absurd h.symm (r.index_ne hgt hcount)

theorem count_push (h : r.count < r.capacity) (x : α) : (r.push x).count = r.count + 1 := by
  refine count_eq_of_head ?_ h
  show (r.head + 1) &&& r.mask = (r.tail + (r.count + 1)) % (r.mask + 1)
  rw [and_mask, r.head_eq, Nat.mod_add_mod, Nat.add_assoc]

theorem count_read (r : RingBuffer α) (n : ℕ) : (r.read n).1.count = r.count - n := by
  have hcount := r.count_le_capacity
  rw [capacity] at hcount
  refine count_eq_of_head ?_ (show r.count - n ≤ r.mask by omega)
  show r.head = (((r.tail + min n r.count) &&& r.mask) + (r.count - n)) % (r.mask + 1)
  rw [and_mask, Nat.mod_add_mod, r.head_eq,
    show r.tail + min n r.count + (r.count - n) = r.tail + r.count by omega]

/-! ## Contents -/

theorem get_push (h : r.count < r.capacity) (x : α) {i : ℕ} (hi : i < r.count) :
    (r.push x).get i = r.get i := by
  have hne : (r.tail + i) &&& r.mask ≠ r.head := by
    rw [and_mask, r.head_eq]
    exact r.index_ne hi (Nat.le_of_lt h)
  exact Function.update_of_ne hne x r.buffer

theorem get_push_count (r : RingBuffer α) (x : α) : (r.push x).get r.count = x := by
  have heq : (r.tail + r.count) &&& r.mask = r.head := by rw [and_mask, ← r.head_eq]
  show Function.update r.buffer r.head x ((r.tail + r.count) &&& r.mask) = x
  rw [heq, Function.update_self]

theorem contents_push (h : r.count < r.capacity) (x : α) :
    (r.push x).contents = r.contents ++ [x] := by
  rw [contents, count_push h, List.range_succ, List.map_append, List.map_singleton, get_push_count,
    contents]
  congr 1
  refine List.map_congr_left fun i hi => ?_
  exact get_push h x (List.mem_range.1 hi)

/-- **Writing** appends what fits in. -/
@[simp] theorem contents_write (r : RingBuffer α) (xs : List α) :
    (r.write xs).1.contents = r.contents ++ xs.take r.free := by
  have hpush : ∀ (ys : List α) (q : RingBuffer α), q.count + ys.length ≤ q.capacity →
      (ys.foldl push q).contents = q.contents ++ ys := by
    intro ys
    induction ys with
    | nil => intro q _; simp
    | cons y ys ih =>
      intro q hq
      rw [List.length_cons] at hq
      have hlt : q.count < q.capacity := by omega
      rw [List.foldl_cons, ih (q.push y) (by rw [count_push hlt, capacity_push]; omega),
        contents_push hlt, List.append_assoc, List.singleton_append]
  refine hpush (xs.take r.free) r ?_
  have hcount := r.count_le_capacity
  have hlen := List.length_take_le r.free xs
  rw [free] at hlen ⊢
  omega

/-- **Reading** returns the oldest elements. -/
theorem read_snd (r : RingBuffer α) (n : ℕ) : (r.read n).2 = r.contents.take n := by
  rw [contents, ← List.map_take, List.take_range]
  rfl

theorem get_read (r : RingBuffer α) (n i : ℕ) :
    (r.read n).1.get i = r.get (min n r.count + i) := by
  show r.buffer ((((r.tail + min n r.count) &&& r.mask) + i) &&& r.mask) =
    r.buffer ((r.tail + (min n r.count + i)) &&& r.mask)
  rw [and_mask, and_mask, and_mask, Nat.mod_add_mod, Nat.add_assoc]

@[simp] theorem contents_read (r : RingBuffer α) (n : ℕ) :
    (r.read n).1.contents = r.contents.drop n := by
  apply List.ext_getElem
  · simp [count_read]
  · intro i h1 h2
    rw [length_contents, count_read] at h1
    simp only [contents, List.getElem_map, List.getElem_range, List.getElem_drop, get_read]
    rw [Nat.min_eq_left (by omega)]

theorem count_write (r : RingBuffer α) (xs : List α) :
    (r.write xs).1.count = r.count + min r.free xs.length := by
  rw [← length_contents, contents_write, List.length_append, length_contents, List.length_take]

theorem length_read (r : RingBuffer α) (n : ℕ) : (r.read n).2.length = min n r.count := by
  rw [read_snd, List.length_take, length_contents]

@[simp] theorem contents_clear (r : RingBuffer α) : r.clear.contents = [] := by
  have hcount : r.clear.count = 0 := count_eq_of_head (by simp [clear]) (Nat.zero_le _)
  rw [contents, hcount]
  rfl

@[simp] theorem capacity_write (r : RingBuffer α) (xs : List α) :
    (r.write xs).1.capacity = r.capacity := by
  have hfold : ∀ (ys : List α) (q : RingBuffer α), (ys.foldl push q).capacity = q.capacity := by
    intro ys
    induction ys with
    | nil => intro q; rfl
    | cons y ys ih => intro q; rw [List.foldl_cons, ih, capacity_push]
  exact hfold _ r

@[simp] theorem capacity_read (r : RingBuffer α) (n : ℕ) : (r.read n).1.capacity = r.capacity := rfl

@[simp] theorem count_clear (r : RingBuffer α) : r.clear.count = 0 := by
  rw [← length_contents, contents_clear, List.length_nil]

/-- A new buffer is empty and has room for all but one of the places. -/
theorem init_spec {buffer : ℕ → α} {size : ℕ} (h : init buffer size = some r) :
    r.contents = [] ∧ r.capacity + 1 = size := by
  rw [init] at h
  split_ifs at h with hsize
  obtain rfl := Option.some_inj.1 h
  refine ⟨?_, Nat.sub_add_cancel (by omega)⟩
  rw [contents, count_eq_of_head (n := 0) (by simp) (Nat.zero_le _)]
  rfl

end RingBuffer
