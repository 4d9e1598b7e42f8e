import Sertos.Lib.Bytes
import Sertos.Lifecycle
import Sertos.RiscV

/-!
# The initial stack frame

`init_tcb_and_stack` fills the stack of a new task with one byte value and has the port put a
context frame at its upper end, from where the first switch to the task loads its registers.
`sertos_task_get_stack_high_water_mark` counts the bytes from the lower end up that still hold that
value.

The end of the stack is rounded down twice, here and by the port, and the check of the
configuration leaves room for a frame of exactly the smallest stack: `initial_frame_fits` says that
it fits at every size, on the POSIX and RISC-V ports.  No frame begins with the fill value, which is
why the count starts at the address of the frame.
-/

set_option autoImplicit false

namespace Sertos

open Bytes

/-- `SERTOS_TASK_STACK_FILL_BYTE`. -/
def stackFillByte : UInt8 := 0xA5

/-! ## The frames of the ports -/

/-- `sertos_port_stack_init` of a port with the context frame `frame`: the memory as it leaves it,
and the address it returns, with zero for `NULL`. -/
def stackInit {w : ℕ} (frame : List UInt8) (mem : Memory w) (stackTop : BitVec w) :
    Memory w × BitVec w :=
  if stackTop = 0 then (mem, 0)
  else
    let topAddr := alignDown stackAlignmentBytes stackTop - BitVec.ofNat w frame.length
    (mem.write topAddr frame, topAddr)

namespace Posix

/-- `PortStackFrame`: sixteen pointers, from `r4` to `psr`. -/
def stackFrame {w : ℕ} (entry param : BitVec w) : List (BitVec w) :=
  [0x04040404, 0x05050505, 0x06060606, 0x07070707, 0x08080808, 0x09090909, 0x10101010, 0x11111111,
    param, 0, 0, 0, 0, 0, entry, 0x01000000]

end Posix

namespace RiscV

/-- `MSTATUS_MPP_MACHINE | MSTATUS_MPIE_ENABLE`, with `MSTATUS_FS_INITIAL` if there is an FPU. -/
def initialMstatus (hasFpu : Bool) : BitVec 32 :=
  if hasFpu then 3 <<< 11 ||| 1 <<< 7 ||| 1 <<< 13 else 3 <<< 11 ||| 1 <<< 7

/-- `RiscV32StackFrame` as `sertos_port_stack_init` fills it: zero but for `mepc` at offset 112,
`mstatus` at offset 116 and `a0` at offset 24. -/
def stackFrame (hasFpu : Bool) (entry param : BitVec 32) : List (BitVec 32) :=
  (((List.replicate (if hasFpu then 64 else 32) 0).set (112 / 4) entry).set (116 / 4)
    (initialMstatus hasFpu)).set (24 / 4) param

end RiscV

/-- The ports, with what the build fixes for them. -/
inductive StackPort
  | posix32 (order : ByteOrder)
  | posix64 (order : ByteOrder)
  | riscV (hasFpu : Bool)
deriving DecidableEq, Repr

namespace StackPort

/-- The width of an address. -/
def width : StackPort → ℕ
  | posix32 _ | riscV _ => 32
  | posix64 _ => 64

/-- The context frame of a new task. -/
def frame : (p : StackPort) → (entry param : BitVec p.width) → List UInt8
  | posix32 order, entry, param => (Posix.stackFrame (w := 32) entry param).flatMap (ofWord order 4)
  | posix64 order, entry, param => (Posix.stackFrame (w := 64) entry param).flatMap (ofWord order 8)
  | riscV hasFpu, entry, param =>
    (RiscV.stackFrame hasFpu entry param).flatMap (ofWord .littleEndian 4)

end StackPort

/-! ## The stack of a task -/

/-- The fields of `SertosTaskControlBlock` that describe the stack, and the magic word. -/
structure TaskStack (w : ℕ) where
  stackPtr : BitVec w
  stackBase : BitVec w
  stackSize : ℕ
  stackLimit : BitVec w
  magic : ℕ
deriving DecidableEq, Repr

namespace Task

/-- What `init_tcb_and_stack` does to the memory and to these fields, for the buffer at `buffer`. -/
def initStack {w : ℕ} (frame : List UInt8) (mem : Memory w) (buffer : BitVec w) (stackSize : ℕ) :
    Memory w × TaskStack w :=
  let stackTop := alignDown stackAlignmentBytes (buffer + BitVec.ofNat w stackSize)
  let r := stackInit frame (mem.write buffer (List.replicate stackSize stackFillByte)) stackTop
  (r.1, ⟨r.2, buffer, stackSize, buffer, magicWord⟩)

/-- The same on one of the ports; `param` is the field of the configuration. -/
def initPortStack (p : StackPort) (mem : Memory p.width) (config : TaskConfig)
    (param : BitVec p.width) : Memory p.width × TaskStack p.width :=
  initStack (p.frame (BitVec.ofNat _ (config.entryFunc.getD 0)) param) mem
    (BitVec.ofNat _ (config.stackBuffer.getD 0)) config.stackSize

/-- The loop of `sertos_task_get_stack_high_water_mark` with `left` bytes to go: how many more it
counts, and the addresses it reads. -/
def countFreeBytes {w : ℕ} (mem : Memory w) (bytePtr : BitVec w) : ℕ → ℕ × List (BitVec w)
  | 0 => (0, [])
  | left + 1 =>
    if mem bytePtr = stackFillByte then
      let r := countFreeBytes mem (bytePtr + 1) left
      (r.1 + 1, bytePtr :: r.2)
    else (0, [bytePtr])

/-- `sertos_task_get_stack_high_water_mark`, and the addresses it reads. -/
def getStackHighWaterMark {w : ℕ} (mem : Memory w) (handle : Option (TaskStack w)) :
    ℕ × List (BitVec w) :=
  match handle with
  | none => (0, [])
  | some s =>
    if s.magic = magicWord then countFreeBytes mem s.stackBase s.stackSize else (0, [])

end Task

/-! ## A frame at the end of a buffer -/

section Room

variable {w : ℕ} {frame : List UInt8} {buffer : BitVec w} {stackSize : ℕ}

/-- What creation knows of a buffer: it is aligned, of at least the smallest size, which is no less
than that of the frame, and ends before the last address. -/
structure Room (frame : List UInt8) (buffer : BitVec w) (stackSize : ℕ) : Prop where
  aligned : buffer.toNat % stackAlignmentBytes = 0
  minimal : minimalStackSize ≤ stackSize
  frame_le : frame.length ≤ minimalStackSize
  noWrap : buffer.toNat + stackSize < 2 ^ w

/-- The address of the frame. -/
def frameAddr (frame : List UInt8) (buffer : BitVec w) (stackSize : ℕ) : BitVec w :=
  alignDown stackAlignmentBytes
      (alignDown stackAlignmentBytes (buffer + BitVec.ofNat w stackSize)) -
    BitVec.ofNat w frame.length

namespace Room

theorem three_lt_width (h : Room frame buffer stackSize) : 3 < w := by
  have hpow : 2 ^ 3 < 2 ^ w := by
    have hmin := h.minimal
    have hno := h.noWrap
    rw [minimalStackSize] at hmin
    omega
  exact (Nat.pow_lt_pow_iff_right (by decide)).1 hpow

theorem toNat_alignDown_stack (h : Room frame buffer stackSize) (a : BitVec w) :
    (alignDown stackAlignmentBytes a).toNat = a.toNat / 8 * 8 :=
  toNat_alignDown h.three_lt_width a

theorem toNat_stackTop (h : Room frame buffer stackSize) :
    (alignDown stackAlignmentBytes (buffer + BitVec.ofNat w stackSize)).toNat =
      (buffer.toNat + stackSize) / 8 * 8 := by
  rw [h.toNat_alignDown_stack, toNat_add_ofNat h.noWrap]

/-- Rounding down a second time changes nothing. -/
theorem toNat_frameAddr (h : Room frame buffer stackSize) :
    (frameAddr frame buffer stackSize).toNat =
      (buffer.toNat + stackSize) / 8 * 8 - frame.length := by
  have hround : (alignDown stackAlignmentBytes
      (alignDown stackAlignmentBytes (buffer + BitVec.ofNat w stackSize))).toNat =
        (buffer.toNat + stackSize) / 8 * 8 := by
    rw [h.toNat_alignDown_stack, h.toNat_stackTop, Nat.mul_div_cancel _ (by decide)]
  have hminimal := h.minimal
  have hframe := h.frame_le
  rw [minimalStackSize] at hminimal hframe
  rw [frameAddr, toNat_sub_ofNat (by omega), hround]

/-- **The frame lies in the buffer.** -/
theorem frame_within (h : Room frame buffer stackSize) :
    buffer.toNat ≤ (frameAddr frame buffer stackSize).toNat ∧
      (frameAddr frame buffer stackSize).toNat + frame.length ≤ buffer.toNat + stackSize := by
  have haligned := h.aligned
  have hminimal := h.minimal
  have hframe := h.frame_le
  rw [stackAlignmentBytes] at haligned
  rw [minimalStackSize] at hminimal hframe
  rw [h.toNat_frameAddr]
  omega

theorem stackTop_ne_zero (h : Room frame buffer stackSize) :
    alignDown stackAlignmentBytes (buffer + BitVec.ofNat w stackSize) ≠ 0 := by
  intro hzero
  have hminimal := h.minimal
  rw [minimalStackSize] at hminimal
  have htop := h.toNat_stackTop
  rw [hzero, show BitVec.toNat (0 : BitVec w) = 0 from BitVec.toNat_zero] at htop
  omega

/-- The memory once the buffer is filled and the frame written. -/
def freshMemory (frame : List UInt8) (before : Memory w) (buffer : BitVec w) (stackSize : ℕ) :
    Memory w :=
  (before.write buffer (List.replicate stackSize stackFillByte)).write
    (frameAddr frame buffer stackSize) frame

theorem initStack_eq (h : Room frame buffer stackSize) (before : Memory w) :
    Task.initStack frame before buffer stackSize =
      (freshMemory frame before buffer stackSize,
        ⟨frameAddr frame buffer stackSize, buffer, stackSize, buffer, Task.magicWord⟩) := by
  rw [Task.initStack, stackInit, if_neg h.stackTop_ne_zero]
  rfl

/-- The frame does not wrap around. -/
theorem frame_fits (h : Room frame buffer stackSize) :
    (frameAddr frame buffer stackSize).toNat + frame.length ≤ 2 ^ w :=
  h.frame_within.2.trans h.noWrap.le

theorem freshMemory_filled (h : Room frame buffer stackSize) (before : Memory w) {x : BitVec w}
    (hlow : buffer.toNat ≤ x.toNat) (hx : x.toNat < (frameAddr frame buffer stackSize).toNat) :
    freshMemory frame before buffer stackSize x = stackFillByte := by
  have hhigh := h.frame_within.2
  rw [freshMemory, Memory.write_of_not_within _ h.frame_fits fun hin => absurd hin.1 (by omega)]
  exact Memory.write_replicate _ ⟨hlow, by omega⟩

theorem freshMemory_outside (h : Room frame buffer stackSize) (before : Memory w) {x : BitVec w}
    (hx : ¬ Within buffer stackSize x) :
    freshMemory frame before buffer stackSize x = before x := by
  obtain ⟨hlow, hhigh⟩ := h.frame_within
  have hframe : ¬ Within (frameAddr frame buffer stackSize) frame.length x := fun hin =>
    hx ⟨hlow.trans hin.1, hin.2.trans_le hhigh⟩
  have hlength : (List.replicate stackSize stackFillByte).length = stackSize :=
    List.length_replicate
  rw [freshMemory, Memory.write_of_not_within _ h.frame_fits hframe,
    Memory.write_of_not_within _ (by rw [hlength]; exact h.noWrap.le) (by rwa [hlength])]

theorem freshMemory_frame (before : Memory w) {x : BitVec w}
    (hx : Within (frameAddr frame buffer stackSize) frame.length x) :
    frame[x.toNat - (frameAddr frame buffer stackSize).toNat]? =
      some (freshMemory frame before buffer stackSize x) :=
  Memory.write_of_within _ hx

end Room

end Room

/-! ## The high-water mark -/

section HighWaterMark

variable {w n k : ℕ} {mem : Memory w} {a x : BitVec w}

theorem toNat_add_one (hfit : a.toNat + (n + 1) < 2 ^ w) : (a + 1).toNat = a.toNat + 1 := by
  have hone := toNat_add_ofNat (a := a) (n := 1) (by omega)
  exact hone

/-- The loop counts the bytes that hold the fill value. -/
theorem le_countFreeBytes (hfit : a.toNat + n < 2 ^ w) (hk : k ≤ n)
    (hfill : ∀ x, Within a k x → mem x = stackFillByte) :
    k ≤ (Task.countFreeBytes mem a n).1 := by
  induction n generalizing a k with
  | zero => exact hk
  | succ n ih =>
    cases k with
    | zero => exact Nat.zero_le _
    | succ k =>
      have hnext := toNat_add_one hfit
      have hfirst : mem a = stackFillByte := hfill a ⟨le_rfl, by omega⟩
      have hrest : k ≤ (Task.countFreeBytes mem (a + 1) n).1 := by
        refine ih (by omega) (by omega) fun x hx => hfill x ?_
        have hlow := hx.1
        have hhigh := hx.2
        exact ⟨by omega, by omega⟩
      rw [Task.countFreeBytes, if_pos hfirst]
      exact Nat.succ_le_succ hrest

/-- It stops at the first byte that does not. -/
theorem countFreeBytes_eq (hfit : a.toNat + n < 2 ^ w) (hk : k < n)
    (hfill : ∀ x, Within a k x → mem x = stackFillByte)
    (hstop : ∀ x, x.toNat = a.toNat + k → mem x ≠ stackFillByte) :
    (Task.countFreeBytes mem a n).1 = k := by
  induction n generalizing a k with
  | zero => exact absurd hk (Nat.not_lt_zero k)
  | succ n ih =>
    rw [Task.countFreeBytes]
    cases k with
    | zero => rw [if_neg (hstop a rfl)]
    | succ k =>
      have hnext := toNat_add_one hfit
      have hfirst : mem a = stackFillByte := hfill a ⟨le_rfl, by omega⟩
      have hrest : (Task.countFreeBytes mem (a + 1) n).1 = k := by
        refine ih (by omega) (by omega) (fun x hx => hfill x ?_) fun x hx => hstop x (by omega)
        have hlow := hx.1
        have hhigh := hx.2
        exact ⟨by omega, by omega⟩
      rw [if_pos hfirst]
      exact congrArg (· + 1) hrest

/-- It reads no byte but the `n` from `a` on. -/
theorem countFreeBytes_reads (hfit : a.toNat + n < 2 ^ w) (mem : Memory w) :
    ∀ x ∈ (Task.countFreeBytes mem a n).2, Within a n x := by
  induction n generalizing a with
  | zero => exact fun x hx => absurd hx List.not_mem_nil
  | succ n ih =>
    have hnext := toNat_add_one hfit
    have hfirst : Within a (n + 1) a := ⟨le_rfl, by omega⟩
    intro x hx
    rw [Task.countFreeBytes] at hx
    split at hx
    · rcases List.mem_cons.1 hx with rfl | hx
      · exact hfirst
      · have hrest := ih (by omega) x hx
        exact ⟨by have := hrest.1; omega, by have := hrest.2; omega⟩
    · rw [List.mem_singleton.1 hx]
      exact hfirst

end HighWaterMark

/-! ## New stacks -/

/-- `x` is an address of the buffer of `size` bytes at `base`. -/
def InBuffer {w : ℕ} (base size : ℕ) (x : BitVec w) : Prop := base ≤ x.toNat ∧ x.toNat < base + size

/-- The stack of a new task, in memory that held `before`: the frame `frame` in the buffer, and
everything below it filled. -/
structure FreshStack {w : ℕ} (frame : List UInt8) (base size : ℕ) (before mem : Memory w)
    (s : TaskStack w) : Prop where
  base_le : base ≤ s.stackPtr.toNat
  frame_le : s.stackPtr.toNat + frame.length ≤ base + size
  stackLimit_le : s.stackLimit ≤ s.stackPtr
  frame_eq : ∀ x, Within s.stackPtr frame.length x →
    frame[x.toNat - s.stackPtr.toNat]? = some (mem x)
  filled : ∀ x, base ≤ x.toNat → x.toNat < s.stackPtr.toNat → mem x = stackFillByte
  outside : ∀ x, ¬ InBuffer base size x → mem x = before x
  highWaterMark : (Task.getStackHighWaterMark mem (some s)).1 = s.stackPtr.toNat - base

/-- What holds of the high-water mark however the stack is used: a task that has written nothing
below `a` leaves it at or above `a`, and it is found without leaving the buffer. -/
structure MarkSound {w : ℕ} (base size : ℕ) (mem : Memory w) (s : TaskStack w) : Prop where
  le_mark : ∀ (a : ℕ) (mem' : Memory w), base ≤ a → a ≤ s.stackPtr.toNat →
    (∀ x, ¬ (a ≤ x.toNat ∧ x.toNat < base + size) → mem' x = mem x) →
    a - base ≤ (Task.getStackHighWaterMark mem' (some s)).1
  reads : ∀ mem' : Memory w, ∀ x ∈ (Task.getStackHighWaterMark mem' (some s)).2,
    InBuffer base size x

section Fresh

variable {w : ℕ} {frame : List UInt8} {buffer : BitVec w} {stackSize : ℕ}

open Room

/-- The count starts at the address of the frame, since a frame does not begin with the fill
value. -/
theorem countFreeBytes_fresh (h : Room frame buffer stackSize) (before : Memory w)
    (hne : frame ≠ []) (hhead : frame.head? ≠ some stackFillByte) :
    (Task.countFreeBytes (freshMemory frame before buffer stackSize) buffer stackSize).1 =
      (frameAddr frame buffer stackSize).toNat - buffer.toNat := by
  obtain ⟨hlow, hhigh⟩ := h.frame_within
  have hpos : 0 < frame.length := List.length_pos_iff.2 hne
  refine countFreeBytes_eq h.noWrap (by omega) (fun x hx => ?_) fun x hx => ?_
  · have hend := hx.2
    exact h.freshMemory_filled before hx.1 (by omega)
  · obtain rfl : x = frameAddr frame buffer stackSize := BitVec.eq_of_toNat_eq (by omega)
    have hwithin : Within (frameAddr frame buffer stackSize) frame.length
        (frameAddr frame buffer stackSize) := ⟨le_rfl, Nat.lt_add_of_pos_right hpos⟩
    have hfirst := freshMemory_frame before hwithin
    rw [Nat.sub_self, ← List.head?_eq_getElem?] at hfirst
    exact fun hfill => hhead (hfirst.trans (congrArg some hfill))

theorem initStack_fresh (h : Room frame buffer stackSize) (before : Memory w) (hne : frame ≠ [])
    (hhead : frame.head? ≠ some stackFillByte) :
    FreshStack frame buffer.toNat stackSize before (Task.initStack frame before buffer stackSize).1
      (Task.initStack frame before buffer stackSize).2 := by
  rw [h.initStack_eq]
  exact
    { base_le := h.frame_within.1
      frame_le := h.frame_within.2
      stackLimit_le := h.frame_within.1
      frame_eq := fun x hx => freshMemory_frame before hx
      filled := fun x hlow hx => h.freshMemory_filled before hlow hx
      outside := fun x hx => h.freshMemory_outside before hx
      highWaterMark := countFreeBytes_fresh h before hne hhead }

/-- What is above the frame may be written to, and what is below `a` is still filled. -/
theorem initStack_markSound (h : Room frame buffer stackSize) (before : Memory w) :
    MarkSound buffer.toNat stackSize (Task.initStack frame before buffer stackSize).1
      (Task.initStack frame before buffer stackSize).2 := by
  rw [h.initStack_eq]
  refine ⟨fun a mem' hbase ha hsame => ?_, fun mem' => countFreeBytes_reads h.noWrap mem'⟩
  have hhigh := h.frame_within.2
  change a ≤ (frameAddr frame buffer stackSize).toNat at ha
  show a - buffer.toNat ≤ (Task.countFreeBytes mem' buffer stackSize).1
  refine le_countFreeBytes h.noWrap (by omega) fun x hx => ?_
  have hend := hx.2
  rw [hsame x (by omega)]
  exact h.freshMemory_filled before hx.1 (by omega)

end Fresh

/-! ## The ports -/

namespace StackPort

/-- The size of the context frame. -/
def frameSize : StackPort → ℕ
  | posix32 _ => 64
  | posix64 _ => 128
  | riscV hasFpu => if hasFpu then 256 else 128

theorem length_frame (p : StackPort) (entry param : BitVec p.width) :
    (p.frame entry param).length = p.frameSize := by
  cases p with
  | posix32 order => exact length_flatMap_ofWord order 4 _
  | posix64 order => exact length_flatMap_ofWord order 8 _
  | riscV hasFpu =>
    rw [frame, length_flatMap_ofWord]
    cases hasFpu <;> rfl

/-- No frame is larger than the smallest stack. -/
theorem frameSize_le (p : StackPort) : p.frameSize ≤ minimalStackSize := by
  cases p with
  | posix32 _ => exact (by decide : 64 ≤ 256)
  | posix64 _ => exact (by decide : 128 ≤ 256)
  | riscV hasFpu => cases hasFpu <;> decide

theorem frameSize_pos (p : StackPort) : 0 < p.frameSize := by
  cases p with
  | posix32 _ => exact (by decide : 0 < 64)
  | posix64 _ => exact (by decide : 0 < 128)
  | riscV hasFpu => cases hasFpu <;> decide

/-- A frame begins with a byte of `r4`'s pattern, or of a cleared `ra`. -/
theorem head_frame (p : StackPort) (entry param : BitVec p.width) :
    (p.frame entry param).head? ≠ some stackFillByte := by
  cases p with
  | posix32 order =>
    have hfirst : (ofWord order 4 (0x04040404 : BitVec 32)).head? ≠ some stackFillByte := by
      cases order <;> decide
    exact fun h => hfirst ((head?_flatMap_ofWord (by decide) order _ _).symm.trans h)
  | posix64 order =>
    have hfirst : (ofWord order 8 (0x04040404 : BitVec 64)).head? ≠ some stackFillByte := by
      cases order <;> decide
    exact fun h => hfirst ((head?_flatMap_ofWord (by decide) order _ _).symm.trans h)
  | riscV hasFpu =>
    have hfirst : (ofWord .littleEndian 4 (0 : BitVec 32)).head? ≠ some stackFillByte := by decide
    cases hasFpu <;> exact hfirst

end StackPort

/-- A configuration that passes the check leaves room for the frame of every port. -/
theorem room_of_validate {p : StackPort} {config : TaskConfig} {base : ℕ}
    (hvalid : Task.validateTaskConfig config = .ok)
    (hbase : config.stackBuffer = some base ∨ base % stackAlignmentBytes = 0)
    (hwrap : base + config.stackSize < 2 ^ p.width) (entry param : BitVec p.width) :
    Room (p.frame entry param) (BitVec.ofNat p.width base) config.stackSize := by
  obtain ⟨-, -, hminimal, haligned⟩ := Task.validateTaskConfig_eq_ok.1 hvalid
  have hnat : (BitVec.ofNat p.width base).toNat = base := by
    rw [BitVec.toNat_ofNat, Nat.mod_eq_of_lt (by omega)]
  refine ⟨?_, hminimal, ?_, by rwa [hnat]⟩
  · rw [hnat]
    exact hbase.elim (haligned base) id
  · rw [StackPort.length_frame]
    exact p.frameSize_le

/-- **The initial frame fits and the high-water mark starts exact.**  For a configuration that
passes the check, with its own buffer at `base` or an aligned one from the pool that ends before the
last address: the frame of the port lies in the buffer, all bytes below it are filled and those
outside the buffer left alone, and the high-water mark is the distance of the frame from the lower
end.  It never falls below what a task leaves untouched, and only bytes of the buffer are read. -/
theorem initial_frame_fits (p : StackPort) {config : TaskConfig} {base : ℕ}
    (hvalid : Task.validateTaskConfig config = .ok)
    (hbase : config.stackBuffer = some base ∨ base % stackAlignmentBytes = 0)
    (hwrap : base + config.stackSize < 2 ^ p.width) (mem : Memory p.width)
    (param : BitVec p.width) :
    let frame := p.frame (BitVec.ofNat _ (config.entryFunc.getD 0)) param
    let r := Task.initPortStack p mem { config with stackBuffer := some base } param
    FreshStack frame base config.stackSize mem r.1 r.2 ∧
      MarkSound base config.stackSize r.1 r.2 := by
  intro frame r
  have hroom : Room frame (BitVec.ofNat p.width base) config.stackSize :=
    room_of_validate hvalid hbase hwrap _ param
  have hne : frame ≠ [] := by
    rw [← List.length_pos_iff, StackPort.length_frame]
    exact p.frameSize_pos
  have hnat : (BitVec.ofNat p.width base).toNat = base := by
    rw [BitVec.toNat_ofNat, Nat.mod_eq_of_lt (by omega)]
  have hfresh := initStack_fresh hroom mem hne (p.head_frame _ param)
  have hsound := initStack_markSound hroom mem
  rw [hnat] at hfresh hsound
  exact ⟨hfresh, hsound⟩

/-- The bound is tight: the frame with floating point registers takes all of the smallest stack, and
five bytes more do not move it. -/
theorem initial_frame_fits_fpu :
    let config : TaskConfig := ⟨some 0x80000000, 1, some 0x20000, minimalStackSize + 5⟩
    let r := Task.initPortStack (.riscV true) (fun _ => 0) config 7
    r.2.stackPtr = 0x20000 ∧
      FreshStack (StackPort.frame (.riscV true) 0x80000000 7) 0x20000 (minimalStackSize + 5)
        (fun _ => 0) r.1 r.2 ∧
      MarkSound 0x20000 (minimalStackSize + 5) r.1 r.2 :=
  ⟨by decide +kernel, initial_frame_fits (.riscV true)
    (show Task.validateTaskConfig ⟨some 0x80000000, 1, some 0x20000, minimalStackSize + 5⟩ = .ok by
      decide) (.inl rfl) (by decide) (fun _ => 0) 7⟩

end Sertos
