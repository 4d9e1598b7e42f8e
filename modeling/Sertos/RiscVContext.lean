import Sertos.ContextSwitch
import Sertos.Lib.Contexts
import Sertos.RiscVTrap
import Sertos.StackFrames

/-!
# Context switches on the RISC-V port

A run is made of what the running task does to its registers and its memory, of traps, of the start
of the first task and of the creation of tasks, whose first frame `sertos_port_stack_init` writes.
Interrupts come at any instruction, so nothing is known of the registers of a task that is
interrupted.

The runs are those of a `Contexts.Switcher`, which `switcher_lawful` shows to be lawful.  A task
goes on in the state in which it was interrupted, or behind its `ecall` (`riscv_context_restored`),
and a new task begins at its entry function with its parameter, in machine mode and with interrupts
on (`riscv_task_started`).

The memory is cut up by the `Layout` of the Cortex-M ports.  A C function that the handler calls
runs on the stack of the interrupted task, below the frame.  `gp` and `tp` are not in the frame: no
task changes them.
-/

set_option autoImplicit false

namespace Sertos

open Thumb (Word Memory Aligned bytes Within)
open Rv32 Contexts Lts
open CortexM (Layout)

namespace RiscVPort

/-! ## The memory of the tasks -/

variable {τ : Type}

/-- What a call of a C function leaves as it is, on the running task's stack from the stack pointer
up and everywhere that is not free. -/
structure CallKeeps (L : Layout τ) (running : Option τ) (s s' : State) : Prop where
  sp : s'.reg .sp = s.reg .sp
  mem : ∀ x, ¬ L.Free running x → x ≠ L.currentTcb → s'.mem x = s.mem x
  stack : ∀ t, running = some t → ∀ x ∈ L.stack t, s.reg .sp ≤ x → s'.mem x = s.mem x

/-- The functions that the handler calls: the timer handler does not change `sertos_current_tcb`,
and `sertos_scheduler_perform_switch` makes `next` the current task and returns its control
block. -/
def Calls (L : Layout τ) (running : Option τ) (next : τ) : Symbol → State → State → Prop
  | .riscvTimerHandler, s, s' =>
    CallKeeps L running s s' ∧ s'.mem L.currentTcb = s.mem L.currentTcb
  | .performSwitch, s, s' =>
    CallKeeps L running s s' ∧ s'.mem L.currentTcb = L.tcb next ∧ s'.reg .a0 = L.tcb next
  | _, _, _ => False

/-- There is room on the stack for what the handler stores. -/
structure Room (hasFpu : Bool) (L : Layout τ) (running : Option τ) (s : State) : Prop where
  aligned : Aligned (s.reg .sp)
  no_wrap : (RiscV.frameSize hasFpu).toNat ≤ (s.reg .sp).toNat
  frame_own : ∀ x, Within (framePtr hasFpu s) (frame hasFpu s).length x → L.Own running x

/-- What a task is created from: the end of its stack, its entry function and its parameter. -/
structure NewTask where
  stackTop : Word
  entry : Word
  param : Word

/-- The state in which a new task is to start, with memory `m`. -/
def NewTask.start (hasFpu : Bool) (g : NewTask) (m : Memory) : State where
  reg
    | .a0 => g.param
    | .sp => Bytes.alignDown stackAlignmentBytes g.stackTop
    | _ => 0
  fp _ := 0
  fcsr := 0
  pc := g.entry
  mode := 3
  mepc := 0
  mstatus := if hasFpu then 0x2008 else 0x8
  mcause := 0
  mtvec := 0
  mem := m

/-- What the creation of a task does to the memory: the buffer may be filled, and free words may
change, before `sertos_port_stack_init` writes the frame; its address goes to the control block. -/
structure Created (hasFpu : Bool) (L : Layout τ) (t : τ) (g : NewTask) (s s' : State) : Prop where
  no_wrap : (RiscV.frameSize hasFpu).toNat ≤
    (Bytes.alignDown stackAlignmentBytes g.stackTop).toNat
  frame_on_stack : ∀ x, Within (RiscV.stackInit hasFpu g.stackTop)
    (RiscV.stackFrame hasFpu g.entry g.param).length x → x ∈ L.stack t
  mem : ∃ m : Memory, (∀ x, ¬ L.Free none x → x ∉ L.stack t → m x = s.mem x) ∧
    s'.mem = Function.update
      (m.write (RiscV.stackInit hasFpu g.stackTop) (RiscV.stackFrame hasFpu g.entry g.param))
      (L.tcb t) (RiscV.stackInit hasFpu g.stackTop)

/-- A switch from the running task to `next`; the former is to go on in state `out`. -/
inductive Switch (hasFpu : Bool) (handler : Word) (L : Layout τ) :
    Option τ → State → τ → State → State → Prop
  /-- A trap is taken. -/
  | trap {running : Option τ} {s s' : State} {next : τ} (mcause : Word)
      (room : Room hasFpu L running s)
      (exec : Exec (Calls L running next) none (trapHandler hasFpu L.currentTcb) (s.trap mcause)
        s') :
      Switch hasFpu handler L running s next (interrupted s mcause) s'
  /-- `sertos_scheduler_start` makes `next` the current task and starts it. -/
  | start {s s₁ s' : State} {next : τ}
      (keeps : ∀ x, ¬ L.Free none x → x ≠ L.currentTcb → s₁.mem x = s.mem x)
      (current : s₁.mem L.currentTcb = L.tcb next)
      (exec : Exec (fun _ _ _ => False) none (startFirstTask hasFpu L.currentTcb handler) s₁ s') :
      Switch hasFpu handler L none s next s s'

/-- The memory holds all that is needed for a task to go on in state `out`. -/
structure Parked (hasFpu : Bool) (L : Layout τ) (m : Memory) (t : τ) (out : State) : Prop where
  aligned : Aligned (out.reg .sp)
  no_wrap : (RiscV.frameSize hasFpu).toNat ≤ (out.reg .sp).toNat
  stackPtr : m (L.tcb t) = framePtr hasFpu out
  read_frame : m.read (framePtr hasFpu out) (frame hasFpu out).length = frame hasFpu out
  stack : ∀ x ∈ L.stack t, out.reg .sp ≤ x → m x = out.mem x
  frame_on_stack : ∀ x, Within (framePtr hasFpu out) (frame hasFpu out).length x → x ∈ L.stack t

/-- The bits of `mstatus` that a switch does not keep: `MPIE` and `MPP`, which a return from a trap
sets, and `MPRV`; with a floating point unit also `FS` and its summary `SD`, since the handler
switches the unit on. -/
def volatileBits (hasFpu : Bool) : List ℕ :=
  [7, 11, 12, 17] ++ if hasFpu then [13, 14, 31] else []

/-- A task that was to go on in state `out` goes on in state `s`. -/
structure Resumed (hasFpu : Bool) (L : Layout τ) (t : τ) (out s : State) : Prop where
  regs : ∀ r ∈ contextRegs, s.reg r = out.reg r
  sp : s.reg .sp = out.reg .sp
  pc : s.pc = out.pc
  mode : s.mode = out.mode
  mstatus : ∀ i < 32, i ∉ volatileBits hasFpu → s.mstatus.getLsbD i = out.mstatus.getLsbD i
  fp : hasFpu = true → ∀ i < 32, s.fp i = out.fp i
  fcsr : hasFpu = true → s.fcsr = out.fcsr
  stack : ∀ x ∈ L.stack t, out.reg .sp ≤ x → s.mem x = out.mem x

/-- The port as a processor that switches between tasks. -/
def switcher (hasFpu : Bool) (handler : Word) (L : Layout τ) :
    Switcher τ NewTask State Word Word where
  mem := State.mem
  own t := {x | x = L.tcb t ∨ x ∈ L.stack t}
  Valid running s := s.mem L.currentTcb = L.tcbPtr running
  Parked := Parked hasFpu L
  Resumed := Resumed hasFpu L
  Create s t g out s' := Created hasFpu L t g s s' ∧ out = g.start hasFpu s'.mem
  Switch := Switch hasFpu handler L

/-! ## The frame on the stack -/

section Frame

variable {hasFpu : Bool} {handler : Word} {L : Layout τ} {running : Option τ} {s s' out : State}
  {m m' : Memory} {t next : τ} {x : Word}

/-- The number of words of `RiscV32StackFrame`. -/
def frameWords (hasFpu : Bool) : ℕ := if hasFpu then 64 else 32

theorem frameSize_eq : RiscV.frameSize hasFpu = bytes (frameWords hasFpu) := by
  cases hasFpu <;> simp [RiscV.frameSize, frameWords, bytes]

theorem toNat_frameSize : (RiscV.frameSize hasFpu).toNat = 4 * frameWords hasFpu := by
  cases hasFpu <;> rfl

theorem length_frame_le : (frame hasFpu out).length ≤ frameWords hasFpu := by
  rw [length_frame]
  cases hasFpu <;> decide

/-- The frame lies below the stack pointer. -/
theorem bounds_of_within (hwrap : (RiscV.frameSize hasFpu).toNat ≤ (out.reg .sp).toNat)
    (hx : Within (framePtr hasFpu out) (frame hasFpu out).length x) :
    framePtr hasFpu out ≤ x ∧ x < out.reg .sp := by
  have hx := hx.mono length_frame_le
  rw [toNat_frameSize] at hwrap
  rw [framePtr, frameSize_eq] at hx ⊢
  have hbounds := Thumb.toNat_of_within_sub hwrap hx
  have hsize : (bytes (frameWords hasFpu)).toNat = 4 * frameWords hasFpu := by
    rw [← frameSize_eq, toNat_frameSize]
  rw [BitVec.le_def, BitVec.lt_def, BitVec.toNat_sub, hsize]
  omega

theorem framePtr_le (hwrap : (RiscV.frameSize hasFpu).toNat ≤ (out.reg .sp).toNat)
    (hx : out.reg .sp ≤ x) : framePtr hasFpu out ≤ x := by
  rw [BitVec.le_def] at hx ⊢
  rw [framePtr, BitVec.toNat_sub]
  omega

/-- A parked task depends on its control block and on the words of its stack from the frame up. -/
theorem Parked.congr (h : Parked hasFpu L m t out) (htcb : m' (L.tcb t) = m (L.tcb t))
    (hstack : ∀ x ∈ L.stack t, framePtr hasFpu out ≤ x → m' x = m x) :
    Parked hasFpu L m' t out where
  aligned := h.aligned
  no_wrap := h.no_wrap
  stackPtr := htcb.trans h.stackPtr
  read_frame := by
    rw [Memory.read_congr fun x hx =>
      hstack x (h.frame_on_stack x hx) (bounds_of_within h.no_wrap hx).1]
    exact h.read_frame
  stack x hx hsp := (hstack x hx (framePtr_le h.no_wrap hsp)).trans (h.stack x hx hsp)
  frame_on_stack := h.frame_on_stack

/-- The stores of the handler park the task. -/
theorem Room.parked (h : Room hasFpu L (some t) out) (htcb : m (L.tcb t) = framePtr hasFpu out)
    (hstack : ∀ x ∈ L.stack t, framePtr hasFpu out ≤ x →
      m x = out.mem.write (framePtr hasFpu out) (frame hasFpu out) x) :
    Parked hasFpu L m t out where
  aligned := h.aligned
  no_wrap := h.no_wrap
  stackPtr := htcb
  read_frame := by
    rw [Memory.read_congr fun x hx => hstack x (h.frame_own x hx) (bounds_of_within h.no_wrap hx).1]
    refine Memory.read_write ?_
    rw [length_frame]
    split <;> decide
  stack x hx hsp := by
    rw [hstack x hx (framePtr_le h.no_wrap hsp)]
    refine Memory.write_of_not_within fun hwithin => ?_
    exact BitVec.not_lt.2 hsp (bounds_of_within h.no_wrap hwithin).2
  frame_on_stack := h.frame_own

/-! ### What is loaded from it -/

/-- The registers and the two status words are at fixed places of the frame. -/
theorem read_frame_eq
    (h : m.read (framePtr hasFpu out) (frame hasFpu out).length = frame hasFpu out)
    (hs : s.reg .sp = framePtr hasFpu out) :
    m.read (s.reg .sp) 28 = contextRegs.map out.reg ∧ m (s.addr 112 .sp) = out.pc ∧
      m (s.addr 116 .sp) = trapStatus out.mode out.mstatus ∧
      (hasFpu = true → m.read (s.addr 120 .sp) 32 = out.fpRegs 0 32 ∧
        m (s.addr 248 .sp) = out.fcsr) := by
  have h112 : s.addr 112 .sp = s.reg .sp + bytes 28 := by simp [State.addr, bytes]
  have h116 : s.addr 116 .sp = s.reg .sp + bytes 28 + 4 := by
    simp [State.addr, bytes, BitVec.add_assoc]
  have h120 : s.addr 120 .sp = s.reg .sp + bytes 28 + bytes 2 := by
    simp [State.addr, bytes, BitVec.add_assoc]
  have h248 : s.addr 248 .sp = s.addr 120 .sp + bytes 32 := by
    simp [State.addr, bytes, BitVec.add_assoc]
  have hlength : (frame hasFpu out).length = 28 + (2 + if hasFpu then 32 + 1 else 0) := by
    rw [length_frame]
    cases hasFpu <;> rfl
  rw [hlength, ← hs, Memory.read_add, Memory.read_add] at h
  obtain ⟨hregs, htail⟩ := List.append_inj h (by simp [contextRegs])
  obtain ⟨hstatus, hfpu⟩ := List.append_inj htail (by simp)
  rw [Memory.read, Memory.read, Memory.read, List.cons.injEq, List.cons.injEq, ← h112] at hstatus
  obtain ⟨hpc, hmstatus, -⟩ := hstatus
  refine ⟨hregs, hpc, ?_, ?_⟩
  · rw [h116, ← h112]
    exact hmstatus
  · rintro rfl
    rw [if_pos rfl, if_pos rfl, ← h120, Memory.read_add, ← h248] at hfpu
    obtain ⟨hfp, hfcsr⟩ := List.append_inj hfpu (by simp [State.fpRegs])
    rw [Memory.read, Memory.read, List.cons.injEq] at hfcsr
    exact ⟨hfp, hfcsr.1⟩

/-- `mstatus` after a trap and the return from it, with the floating point unit switched on in
between. -/
theorem getLsbD_returnStatus {mode : BitVec 2} {w : Word} {i : ℕ} (hi : i < 32)
    (hvolatile : i ∉ volatileBits hasFpu) :
    (mretStatus (trapStatus mode w ||| fsBits hasFpu)).getLsbD i = w.getLsbD i := by
  by_cases hmie : i = 3
  · subst hmie
    rw [getLsbD_three_mretStatus, getLsbD_seven_trapStatus (by cases hasFpu <;> decide)]
  · have hbit : i ≠ 3 ∧ i ≠ 7 ∧ i ≠ 11 ∧ i ≠ 12 := by
      simp [volatileBits] at hvolatile
      tauto
    have hfs : ∀ hasFpu : Bool, ∀ i : Fin 32, i.1 ∉ volatileBits hasFpu →
        (fsBits hasFpu).getLsbD i = false := by
      decide
    rw [getLsbD_mretStatus hi hbit, BitVec.getLsbD_or, hfs hasFpu ⟨i, hi⟩ hvolatile, Bool.or_false,
      getLsbD_trapStatus hi hbit]

/-- The end of the handler resumes a parked task. -/
theorem Restored.resumed (h : Restored hasFpu s s') (hs : s.reg .sp = framePtr hasFpu out)
    (hparked : Parked hasFpu L s.mem t out) : Resumed hasFpu L t out s' := by
  obtain ⟨hregs, hpc, hstatus, hfpu⟩ := read_frame_eq hparked.read_frame hs
  have hmode := h.mode
  have hmstatus := h.mstatus
  rw [hstatus] at hmode hmstatus
  refine ⟨?_, ?_, h.pc.trans hpc, ?_, fun i hi hvolatile => ?_, fun hasFpu i hi => ?_,
    fun hasFpu => ?_, fun x hx hsp => ?_⟩
  · exact List.map_inj_left.1 (h.regs.trans hregs)
  · rw [h.sp, hs, framePtr, BitVec.sub_add_cancel]
  · rw [hmode, mpp_trapStatus (by cases hasFpu <;> decide)]
  · rw [hmstatus]
    exact getLsbD_returnStatus hi hvolatile
  · exact List.map_inj_left.1 ((h.fpRegs hasFpu).trans (hfpu hasFpu).1) i
      (List.mem_range'_1.2 ⟨Nat.zero_le i, by omega⟩)
  · rw [h.fcsr hasFpu, (hfpu hasFpu).2]
  · rw [h.mem, hparked.stack x hx hsp]

end Frame

/-! ## What a switch does -/

section Switch

variable {hasFpu : Bool} {handler : Word} {L : Layout τ} {running : Option τ} {s s' out u : State}
  {m m' : Memory} {t next : τ} {x mcause : Word} {g : NewTask}

theorem CallKeeps.refl : CallKeeps L running s s := ⟨rfl, fun _ _ _ => rfl, fun _ _ _ _ _ => rfl⟩

/-- The timer handler changes nothing that the switch needs. -/
theorem Ticked.keeps (h : Ticked (Calls L running next) mcause s u) :
    CallKeeps L running s u ∧ u.mem L.currentTcb = s.mem L.currentTcb := by
  rw [Ticked] at h
  split at h
  · obtain ⟨link, hkeeps, hcurrent⟩ := h
    exact ⟨⟨hkeeps.sp, hkeeps.mem, hkeeps.stack⟩, hcurrent⟩
  · exact h ▸ ⟨CallKeeps.refl, rfl⟩

theorem aligned_tcbPtr : Aligned (L.tcbPtr running) := by
  cases running with
  | none => exact (by decide : Aligned 0)
  | some t => exact L.aligned_tcb t

theorem savedMemory_of_none (h : s.mem L.currentTcb = L.tcbPtr none) :
    savedMemory L.currentTcb s = s.mem :=
  if_pos h

theorem savedMemory_of_some (h : s.mem L.currentTcb = L.tcbPtr (some t)) :
    savedMemory L.currentTcb s = Function.update s.mem (L.tcb t) (s.reg .sp) := by
  have hne : s.mem L.currentTcb ≠ 0 := h ▸ L.tcb_ne_zero t
  rw [savedMemory, if_neg hne, h]
  rfl

/-- The words that `savedMemory` does not change. -/
theorem savedMemory_of_ne (h : s.mem L.currentTcb = L.tcbPtr running)
    (hx : ∀ t, running = some t → x ≠ L.tcb t) : savedMemory L.currentTcb s x = s.mem x := by
  cases running with
  | none => rw [savedMemory_of_none h]
  | some t => rw [savedMemory_of_some h, Function.update_of_ne (hx t rfl)]

/-- The state after a switch to `next`, with the state in which the task that was running is to go
on. -/
structure Passed (hasFpu : Bool) (L : Layout τ) (running : Option τ) (out : State) (next : τ)
    (s' : State) : Prop where
  current : s'.mem L.currentTcb = L.tcb next
  kept : ∀ x, ¬ L.Free running x → x ≠ L.currentTcb → (∀ t, running = some t → x ≠ L.tcb t) →
    s'.mem x = out.mem x
  stackPtr : ∀ t, running = some t → s'.mem (L.tcb t) = framePtr hasFpu out
  stack : ∀ t, running = some t → ∀ x ∈ L.stack t, framePtr hasFpu out ≤ x →
    s'.mem x = out.mem.write (framePtr hasFpu out) (frame hasFpu out) x
  restored : ∃ v, Restored hasFpu v s' ∧ v.mem = s'.mem ∧ v.reg .sp = s'.mem (L.tcb next)

theorem Room.trapped (h : Room hasFpu L running s) :
    Room hasFpu L running (interrupted s mcause) where
  aligned := h.aligned
  no_wrap := h.no_wrap
  frame_own x hx := h.frame_own x (by rw [length_frame] at hx ⊢; exact hx)

/-- **From `do_switch` on**: the stack pointer goes to the control block, and the call chooses the
next task. -/
theorem FrameSaved.passed {s₁ : State} (hframe : FrameSaved hasFpu out s₁)
    (hroom : Room hasFpu L running out) (hvalid : out.mem L.currentTcb = L.tcbPtr running)
    (hticked : Ticked (Calls L running next) mcause s₁ u)
    (hexec : Exec (Calls L running next) none (doSwitch hasFpu L.currentTcb) u s') :
    Passed hasFpu L running out next s' := by
  -- up to `do_switch`
  have hmem₁ : ∀ x, ¬ L.Free running x → s₁.mem x = out.mem x := fun x hx => by
    rw [hframe.mem]
    exact Memory.write_of_not_within fun hwithin => hx (hroom.frame_own x hwithin).free
  obtain ⟨hkeeps₁, hcurrent₁⟩ := hticked.keeps
  have hsp : u.reg .sp = framePtr hasFpu out := hkeeps₁.sp.trans hframe.sp
  have hcurrent : u.mem L.currentTcb = L.tcbPtr running := by
    rw [hcurrent₁, hmem₁ _ L.not_free_currentTcb, hvalid]
  -- up to the end of the call
  obtain ⟨s₂, hmem₂, hsp₂, hexec₂⟩ := exec_doSwitch (s := u) hasFpu (Calls L running next)
    L.aligned_currentTcb (hcurrent ▸ aligned_tcbPtr)
  obtain ⟨link, v, ⟨hkeeps₂, hcurrent₂, ha₀⟩, -, hexec₃⟩ := (hexec₂ s').1 hexec
  -- up to `mret`
  obtain ⟨s₃, hrestored, hexec₄⟩ :=
    @exec_restoreContext hasFpu _ _ (aligned_of_exec_restoreContext hexec₃)
  obtain rfl := (hexec₄ s').1 hexec₃
  have hmem : s'.mem = v.mem := hrestored.mem
  refine ⟨hmem ▸ hcurrent₂, fun x hx hne htcb => ?_, fun t ht => ?_, fun t ht x hx hle => ?_,
    ⟨_, hrestored, hmem.symm, ?_⟩⟩
  · calc s'.mem x = s₂.mem x := by rw [hmem]; exact hkeeps₂.mem x hx hne
      _ = u.mem x := by rw [hmem₂, savedMemory_of_ne hcurrent htcb]
      _ = s₁.mem x := hkeeps₁.mem x hx hne
      _ = out.mem x := hmem₁ x hx
  · subst ht
    calc s'.mem (L.tcb t) = s₂.mem (L.tcb t) := by
          rw [hmem]
          exact hkeeps₂.mem _ L.not_free_tcb (L.tcb_ne_currentTcb t)
      _ = u.reg .sp := by rw [hmem₂, savedMemory_of_some hcurrent, Function.update_self]
      _ = framePtr hasFpu out := hsp
  · have htcb : ∀ t', running = some t' → x ≠ L.tcb t' := fun t' _ e =>
      L.tcb_notMem_stack t' t (e ▸ hx)
    calc s'.mem x = s₂.mem x := by
          rw [hmem]
          exact hkeeps₂.stack t ht x hx ((congrArg (· ≤ x) (hsp₂.trans hsp)).mpr hle)
      _ = u.mem x := by rw [hmem₂, savedMemory_of_ne hcurrent htcb]
      _ = s₁.mem x := hkeeps₁.stack t ht x hx ((congrArg (· ≤ x) hframe.sp).mpr hle)
      _ = _ := by rw [hframe.mem]
  · rw [State.reg_set_self, ha₀, hmem]

theorem Room.passed (hroom : Room hasFpu L running s)
    (hvalid : s.mem L.currentTcb = L.tcbPtr running)
    (hexec : Exec (Calls L running next) none (trapHandler hasFpu L.currentTcb) (s.trap mcause)
      s') :
    Passed hasFpu L running (interrupted s mcause) next s' := by
  obtain ⟨s₁, hframe, hexec₁⟩ := exec_toSwitch hasFpu L.currentTcb (Calls L running next)
    hroom.aligned
  obtain ⟨-, u, hticked, hexec₂⟩ := (hexec₁ s').1 hexec
  exact hframe.passed hroom.trapped hvalid hticked hexec₂

/-- **The start of the first task.** -/
theorem passed_start {s₁ : State}
    (keeps : ∀ x, ¬ L.Free none x → x ≠ L.currentTcb → s₁.mem x = s.mem x)
    (current : s₁.mem L.currentTcb = L.tcb next)
    (exec : Exec (fun _ _ _ => False) none (startFirstTask hasFpu L.currentTcb handler) s₁ s') :
    Passed hasFpu L none s next s' := by
  obtain ⟨s₂, hmem₂, hsp₂, -, hexec₂⟩ := exec_startFirstTask (s := s₁) hasFpu
    handler (fun _ _ _ => False) L.aligned_currentTcb (current ▸ L.aligned_tcb next)
  have hexec := (hexec₂ s').1 exec
  obtain ⟨s₃, hrestored, hexec₃⟩ :=
    @exec_restoreContext hasFpu _ _ (aligned_of_exec_restoreContext hexec)
  obtain rfl := (hexec₃ s').1 hexec
  have hmem : s'.mem = s₁.mem := hrestored.mem.trans hmem₂
  refine ⟨hmem ▸ current, fun x hx hne _ => hmem ▸ keeps x hx hne, nofun, nofun,
    ⟨s₂, hrestored, hmem₂.trans hmem.symm, ?_⟩⟩
  rw [hsp₂, current, hmem]

theorem Switch.passed (h : Switch hasFpu handler L running s next out s')
    (hvalid : s.mem L.currentTcb = L.tcbPtr running) :
    Passed hasFpu L running out next s' := by
  cases h with
  | trap mcause room exec => exact room.passed hvalid exec
  | start keeps current exec => exact passed_start keeps current exec

/-- A running task is switched out by a trap. -/
theorem Switch.room (h : Switch hasFpu handler L (some t) s next out s') :
    Room hasFpu L (some t) out := by
  cases h with
  | trap mcause room exec => exact room.trapped

/-! ## The creation of a task -/

theorem Created.mem_of_ne (h : Created hasFpu L t g s s') (hx : ¬ L.Free none x)
    (hstack : x ∉ L.stack t) (htcb : x ≠ L.tcb t) : s'.mem x = s.mem x := by
  obtain ⟨m, hm, hmem⟩ := h.mem
  rw [hmem, Function.update_of_ne htcb,
    Memory.write_of_not_within fun hwithin => hstack (h.frame_on_stack x hwithin), hm x hx hstack]

/-- The first frame is the one of the state in which the task is to start; the rest of it is not
used. -/
theorem stackFrame_eq : RiscV.stackFrame hasFpu g.entry g.param =
    frame hasFpu (g.start hasFpu m) ++ List.replicate (if hasFpu then 1 else 2) 0 := by
  have hstatus : trapStatus 3 (if hasFpu then 0x2008 else 0x8) = RiscV.initialMstatus hasFpu := by
    cases hasFpu <;> decide
  rw [frame, NewTask.start, hstatus]
  cases hasFpu <;> rfl

theorem length_stackFrame :
    (RiscV.stackFrame hasFpu g.entry g.param).length = frameWords hasFpu := by
  cases hasFpu <;> rfl

theorem aligned_alignDown (a : Word) : Aligned (Bytes.alignDown stackAlignmentBytes a) := by
  have hround : (Bytes.alignDown stackAlignmentBytes a).toNat = a.toNat / 8 * 8 :=
    Bytes.toNat_alignDown (by decide : 3 < 32) a
  rw [Aligned, hround]
  omega

/-- **A new task is parked where it is to start.** -/
theorem Created.parked (h : Created hasFpu L t g s s') :
    Parked hasFpu L s'.mem t (g.start hasFpu s'.mem) := by
  obtain ⟨m, hm, hmem⟩ := h.mem
  have hframe : RiscV.stackFrame hasFpu g.entry g.param =
      frame hasFpu (g.start hasFpu s'.mem) ++ _ := stackFrame_eq
  have hlength : (RiscV.stackFrame hasFpu g.entry g.param).length =
      (frame hasFpu (g.start hasFpu s'.mem)).length + if hasFpu then 1 else 2 := by
    rw [hframe, List.length_append, List.length_replicate]
  have hread : s'.mem.read (RiscV.stackInit hasFpu g.stackTop)
      (RiscV.stackFrame hasFpu g.entry g.param).length =
        RiscV.stackFrame hasFpu g.entry g.param := by
    have hne : ∀ x, Within (RiscV.stackInit hasFpu g.stackTop)
        (RiscV.stackFrame hasFpu g.entry g.param).length x → x ≠ L.tcb t := by
      rintro x hx rfl
      exact L.tcb_notMem_stack t t (h.frame_on_stack _ hx)
    rw [hmem, Memory.read_congr fun x hx => Function.update_of_ne (hne x hx) _ _]
    refine Memory.read_write ?_
    rw [length_stackFrame]
    cases hasFpu <;> decide
  refine ⟨aligned_alignDown _, h.no_wrap, ?_, ?_, fun _ _ _ => rfl,
    fun x hx => h.frame_on_stack x (hx.mono ?_)⟩
  · rw [hmem, Function.update_self]
    rfl
  · rw [hlength, Memory.read_add, hframe] at hread
    exact List.append_inj_left hread (Memory.length_read)
  · rw [hlength]
    exact Nat.le_add_right _ _

/-! ## All runs -/

variable (hasFpu handler L) in
/-- Every switch and every creation does what the switches of a processor have to do. -/
theorem switcher_lawful : (switcher hasFpu handler L).Lawful where
  parked_congr h hsame := h.congr (hsame _ (Or.inl rfl)) fun x hx _ => hsame x (Or.inr hx)
  create_valid := by
    rintro running s t g out s' hvalid ⟨hcreate, -⟩
    refine (hcreate.mem_of_ne L.not_free_currentTcb (L.currentTcb_notMem_stack t) ?_).trans hvalid
    exact (L.tcb_ne_currentTcb t).symm
  create_parks := by
    rintro s t g out s' ⟨hcreate, rfl⟩
    exact hcreate.parked
  create_keeps := by
    rintro s t g out s' u ⟨hcreate, -⟩ hne x (rfl | hx)
    · exact hcreate.mem_of_ne L.not_free_tcb (L.tcb_notMem_stack u t)
        fun e => hne (L.tcb_injective e)
    · exact hcreate.mem_of_ne (L.not_free_of_mem_stack hx nofun)
        (fun hx' => hne (L.stacks_disjoint u t x hx hx')) fun e => L.tcb_notMem_stack t u (e ▸ hx)
  switch_valid hvalid h := (h.passed hvalid).current
  switch_parks hvalid h :=
    have hpassed := h.passed hvalid
    h.room.parked (hpassed.stackPtr _ rfl) (hpassed.stack _ rfl)
  switch_keeps := by
    rintro running s next out s' t hvalid h hne x hx
    have hpassed := h.passed hvalid
    have hout : out.mem = s.mem := by cases h <;> rfl
    show s'.mem x = s.mem x
    rw [← hout]
    rcases hx with rfl | hx
    · refine hpassed.kept _ L.not_free_tcb (L.tcb_ne_currentTcb t) fun u hu e => hne ?_
      rw [hu, L.tcb_injective e]
    · exact hpassed.kept _ (L.not_free_of_mem_stack hx hne)
        (fun e => L.currentTcb_notMem_stack t (e ▸ hx)) fun u _ e => L.tcb_notMem_stack u t (e ▸ hx)
  switch_resumes := by
    rintro running s next out s' resume hvalid h hparked
    obtain ⟨v, hrestored, hmem, hsp⟩ := (h.passed hvalid).restored
    have hparked : Parked hasFpu L s'.mem next resume := hparked
    exact hrestored.resumed (hsp.trans hparked.stackPtr) (hmem ▸ hparked)

/-! ## There are runs -/

/-- No access of the handler is unaligned if the next task's stack pointer is aligned. -/
theorem Room.exists_exec (hroom : Room hasFpu L running s)
    (hvalid : s.mem L.currentTcb = L.tcbPtr running) (hhandled : Handled mcause)
    (hne : running ≠ some next) (hnext : Aligned (s.mem (L.tcb next))) :
    ∃ s', Exec (Calls L running next) none (trapHandler hasFpu L.currentTcb) (s.trap mcause)
      s' := by
  obtain ⟨s₁, hframe, hexec₁⟩ := exec_toSwitch hasFpu L.currentTcb (Calls L running next)
    hroom.aligned
  have hmem₁ : ∀ x, ¬ L.Free running x → s₁.mem x = s.mem x := fun x hx => by
    rw [hframe.mem]
    exact Memory.write_of_not_within fun hwithin => hx (hroom.trapped.frame_own x hwithin).free
  obtain ⟨u, hticked, humem⟩ : ∃ u, Ticked (Calls L running next) mcause s₁ u ∧ u.mem = s₁.mem := by
    by_cases htimer : mcause = RiscV.timerCause
    · refine ⟨s₁.set .ra 0, ?_, rfl⟩
      rw [Ticked, if_pos htimer]
      exact ⟨0, CallKeeps.refl, rfl⟩
    · refine ⟨s₁, ?_, rfl⟩
      rw [Ticked, if_neg htimer]
  have hcurrent : u.mem L.currentTcb = L.tcbPtr running := by
    rw [humem, hmem₁ _ L.not_free_currentTcb, hvalid]
  obtain ⟨s₂, hmem₂, -, hexec₂⟩ := exec_doSwitch (s := u) hasFpu (Calls L running next)
    L.aligned_currentTcb (hcurrent ▸ aligned_tcbPtr)
  let v : State := { (s₂.set .ra 0).set .a0 (L.tcb next) with
    mem := Function.update s₂.mem L.currentTcb (L.tcb next) }
  have hcall : Calls L running next .performSwitch (s₂.set .ra 0) v := by
    refine ⟨⟨rfl, fun x _ hx => Function.update_of_ne hx _ _, fun t _ x hx _ => ?_⟩,
      Function.update_self .., rfl⟩
    have hxne : x ≠ L.currentTcb := fun e => L.currentTcb_notMem_stack t (e ▸ hx)
    exact Function.update_of_ne hxne _ _
  have hsp : v.mem (v.reg .a0) = s.mem (L.tcb next) := by
    calc v.mem (v.reg .a0) = s₂.mem (L.tcb next) :=
          Function.update_of_ne (L.tcb_ne_currentTcb next) _ _
      _ = u.mem (L.tcb next) := by
          rw [hmem₂, savedMemory_of_ne hcurrent fun t ht e => hne ?_]
          rw [ht, L.tcb_injective e]
      _ = s.mem (L.tcb next) := by rw [humem, hmem₁ _ L.not_free_tcb]
  have haligned : Aligned ((v.set .sp (v.mem (v.reg .a0))).reg .sp) := by
    rw [State.reg_set_self, hsp]
    exact hnext
  obtain ⟨s₃, -, hexec₃⟩ := @exec_restoreContext hasFpu (Calls L running next) _ haligned
  exact ⟨s₃, (hexec₁ s₃).2 ⟨hhandled, u, hticked,
    (hexec₂ s₃).2 ⟨0, v, hcall, L.aligned_tcb next, (hexec₃ s₃).2 rfl⟩⟩⟩

variable [DecidableEq τ] {c : Switcher.Config τ State}

variable (next mcause) in
/-- **A parked task can be switched in**, by an interrupt or an `ecall`. -/
theorem exists_trap (hc : (switcher hasFpu handler L).Inv c)
    (hroom : Room hasFpu L c.running c.state) (hhandled : Handled mcause)
    (hne : c.running ≠ some next) (hout : c.resume next = some out) :
    ∃ c', (switcher hasFpu handler L).Step c (.switch next) c' ∧
      c'.resume = Switcher.note c.resume (interrupted c.state mcause) c.running := by
  have hparked : Parked hasFpu L c.state.mem next out := hc.parked next out hout hne
  have hnext : Aligned (c.state.mem (L.tcb next)) := by
    rw [hparked.stackPtr]
    exact aligned_framePtr hparked.aligned
  obtain ⟨s', hexec⟩ := hroom.exists_exec hc.valid hhandled hne hnext
  exact ⟨⟨s', some next, Switcher.note c.resume (interrupted c.state mcause) c.running⟩,
    ⟨_, .trap mcause hroom hexec, rfl, rfl⟩, rfl⟩

variable (next) in
/-- A task that was created can be the first one. -/
theorem exists_start (hc : (switcher hasFpu handler L).Inv c) (hrunning : c.running = none)
    (hout : c.resume next = some out) :
    ∃ c', (switcher hasFpu handler L).Step c (.switch next) c' ∧ c'.resume = c.resume := by
  have hparked : Parked hasFpu L c.state.mem next out :=
    hc.parked next out hout (by rw [hrunning]; nofun)
  let s₁ : State :=
    { c.state with mem := Function.update c.state.mem L.currentTcb (L.tcb next) }
  have hcurrent : s₁.mem L.currentTcb = L.tcb next := Function.update_self ..
  obtain ⟨s₂, -, hsp₂, -, hexec₂⟩ := exec_startFirstTask (s := s₁) hasFpu handler
    (fun _ _ _ => False) L.aligned_currentTcb (hcurrent ▸ L.aligned_tcb next)
  have haligned : Aligned (s₂.reg .sp) := by
    rw [hsp₂, hcurrent]
    show Aligned (Function.update c.state.mem L.currentTcb (L.tcb next) (L.tcb next))
    rw [Function.update_of_ne (L.tcb_ne_currentTcb next), hparked.stackPtr]
    exact aligned_framePtr hparked.aligned
  obtain ⟨s₃, -, hexec₃⟩ := @exec_restoreContext hasFpu (fun _ _ _ => False) _ haligned
  refine ⟨⟨s₃, some next, c.resume⟩, ⟨c.state, ?_, rfl, by rw [hrunning]; rfl⟩, rfl⟩
  rw [hrunning]
  exact .start (fun x _ hx => Function.update_of_ne hx _ _) hcurrent
    ((hexec₂ s₃).2 ((hexec₃ s₃).2 rfl))

/-- A task that is not running can be created on a stack with room for the frame. -/
theorem exists_create (hne : c.running ≠ some t)
    (hwrap : (RiscV.frameSize hasFpu).toNat ≤
      (Bytes.alignDown stackAlignmentBytes g.stackTop).toNat)
    (hstack : ∀ x, Within (RiscV.stackInit hasFpu g.stackTop) (frameWords hasFpu) x →
      x ∈ L.stack t) :
    ∃ c', (switcher hasFpu handler L).Step c (.create t g) c' ∧ c'.running = c.running ∧
      ∃ m, c'.resume = Function.update c.resume t (some (g.start hasFpu m)) := by
  let s' : State := { c.state with
    mem := Function.update
      (c.state.mem.write (RiscV.stackInit hasFpu g.stackTop)
        (RiscV.stackFrame hasFpu g.entry g.param))
      (L.tcb t) (RiscV.stackInit hasFpu g.stackTop) }
  have hcreated : Created hasFpu L t g c.state s' :=
    ⟨hwrap, fun x hx => hstack x (by rwa [length_stackFrame] at hx),
      ⟨c.state.mem, fun _ _ _ => rfl, rfl⟩⟩
  exact ⟨⟨s', c.running, Function.update c.resume t (some (g.start hasFpu s'.mem))⟩,
    ⟨hne, _, ⟨hcreated, rfl⟩, rfl, rfl⟩, rfl, s'.mem, rfl⟩

end Switch

end RiscVPort

open RiscVPort

/-- **A task that is switched in goes on where it was interrupted**, after any run: interrupts at
any instruction, `ecall`s, and tasks that are created in between; a task that has not run yet begins
where it is to start. -/
theorem riscv_context_restored {τ : Type} [DecidableEq τ] (hasFpu : Bool) (handler : Word)
    (L : Layout τ) {c₀ c c' : Switcher.Config τ State} {as : List (Switcher.Action τ NewTask)}
    {next : τ} {out : State} (h₀ : (switcher hasFpu handler L).Start c₀)
    (hrun : Trace (switcher hasFpu handler L).Step c₀ as c)
    (hswitch : (switcher hasFpu handler L).Step c (.switch next) c')
    (hout : c'.resume next = some out) : Resumed hasFpu L next out c'.state :=
  Switcher.resumed_of_run (switcher_lawful hasFpu handler L) h₀ hrun hswitch hout

/-- **A new task begins at its entry function**, with its parameter in `a0`, an empty stack, in
machine mode and with interrupts on, whatever ran since it was created. -/
theorem riscv_task_started {τ : Type} [DecidableEq τ] (hasFpu : Bool) (handler : Word)
    (L : Layout τ) {c₀ c c₁ c₂ c' : Switcher.Config τ State}
    {as bs : List (Switcher.Action τ NewTask)} {t : τ} {g : NewTask}
    (h₀ : (switcher hasFpu handler L).Start c₀)
    (hrun : Trace (switcher hasFpu handler L).Step c₀ as c)
    (hcreate : (switcher hasFpu handler L).Step c (.create t g) c₁)
    (hwait : Trace (switcher hasFpu handler L).Step c₁ bs c₂)
    (hbs : ∀ a ∈ bs, a.LeavesWaiting t)
    (hswitch : (switcher hasFpu handler L).Step c₂ (.switch t) c') :
    c'.state.pc = g.entry ∧ c'.state.reg .a0 = g.param ∧
      c'.state.reg .sp = Bytes.alignDown stackAlignmentBytes g.stackTop ∧
      (∀ r ∈ contextRegs, r ≠ .a0 → c'.state.reg r = 0) ∧
      c'.state.mode = 3 ∧ c'.state.mstatus.getLsbD 3 = true := by
  obtain ⟨out, ⟨-, rfl⟩, hresumed⟩ := Switcher.started_of_run (switcher_lawful hasFpu handler L) h₀
    hrun hcreate hwait hbs hswitch
  refine ⟨hresumed.pc, hresumed.regs .a0 (by decide), hresumed.sp, fun r hr hne => ?_,
    hresumed.mode, ?_⟩
  · have hsp : r ≠ .sp := by
      rintro rfl
      exact absurd hr (by decide)
    rw [hresumed.regs r hr]
    cases r <;> first | rfl | contradiction
  · have hmie : ∀ hasFpu : Bool, (if hasFpu then (0x2008 : Word) else 0x8).getLsbD 3 = true := by
      decide
    rw [hresumed.mstatus 3 (by decide) (by cases hasFpu <;> decide)]
    exact hmie hasFpu

/-! ## Two tasks -/

namespace RiscVPort

open CortexM (pairBase pairLayout)

/-- A task on an otherwise empty stack. -/
def pairTask (t : Bool) : NewTask where
  stackTop := BitVec.ofNat 32 (pairBase t + 0x1000)
  entry := if t then 0x80002000 else 0x80001000
  param := if t then 7 else 5

/-- A task half way down its stack. -/
def taskState (t : Bool) (m : Memory) : State where
  reg
    | .sp => BitVec.ofNat 32 (pairBase t + 0x800)
    | .s0 => if t then 0 else 0x1234
    | _ => 0
  fp i := BitVec.ofNat 32 i
  fcsr := 0
  pc := 0x80000100
  mode := 3
  mepc := 0
  mstatus := 0x6008
  mcause := 0
  mtvec := 0
  mem := m

/-- Nothing runs and nothing was created. -/
def bootConfig : Switcher.Config Bool State := ⟨taskState false fun _ => 0, none, fun _ => none⟩

theorem bootConfig_start : (switcher true 0 pairLayout).Start bootConfig := ⟨rfl, fun _ => rfl⟩

theorem mem_stack_of_within {t : Bool} {a x : Word} {n : ℕ} (ha : pairBase t ≤ a.toNat)
    (hn : a.toNat + 4 * n ≤ pairBase t + 0x1000) (hx : Within a n x) :
    x ∈ pairLayout.stack t := by
  have hbase : pairBase t ≤ 0x20003000 := by cases t <;> decide
  obtain ⟨i, hi, rfl⟩ := hx
  have hbytes : (bytes i).toNat = 4 * i := by
    rw [Thumb.bytes, BitVec.toNat_ofNat, Nat.mod_eq_of_lt (by omega)]
  have hsum : (a + bytes i).toNat = a.toNat + 4 * i := by
    rw [BitVec.toNat_add, hbytes, Nat.mod_eq_of_lt (by omega)]
  exact ⟨by omega, by omega⟩

theorem taskState_room (t : Bool) (m : Memory) :
    Room true pairLayout (some t) (taskState t m) := by
  have haligned : ∀ t, Aligned (BitVec.ofNat 32 (pairBase t + 0x800)) := by decide
  have hwrap : ∀ t, (RiscV.frameSize true).toNat ≤
      (BitVec.ofNat 32 (pairBase t + 0x800)).toNat := by decide
  have hframe : ∀ t, pairBase t ≤
      (BitVec.ofNat 32 (pairBase t + 0x800) - RiscV.frameSize true).toNat ∧
      (BitVec.ofNat 32 (pairBase t + 0x800) - RiscV.frameSize true).toNat + 4 * frameWords true ≤
        pairBase t + 0x1000 := by decide
  refine ⟨haligned t, hwrap t, fun x hx => ?_⟩
  exact mem_stack_of_within (hframe t).1 (hframe t).2 (hx.mono length_frame_le)

theorem exists_create_pair {c : Switcher.Config Bool State} {t : Bool} (hne : c.running ≠ some t) :
    ∃ c', (switcher true 0 pairLayout).Step c (.create t (pairTask t)) c' ∧
      c'.running = c.running ∧
      ∃ m, c'.resume = Function.update c.resume t (some ((pairTask t).start true m)) := by
  refine exists_create hne (by cases t <;> decide) fun x hx => mem_stack_of_within ?_ ?_ hx
  · cases t <;> exact (by decide)
  · cases t <;> exact (by decide)

/-- The running task runs, and is half way down its stack. -/
theorem step_run {c : Switcher.Config Bool State} (t : Bool)
    (hc : (switcher true 0 pairLayout).Inv c) :
    (switcher true 0 pairLayout).Step c .run { c with state := taskState t c.state.mem } :=
  ⟨hc.valid, fun _ _ _ _ => rfl, rfl, rfl⟩

/-- Both tasks are created, the first one is started, and the timer interrupts it. -/
theorem exists_pair_start :
    ∃ c c₁ c₂ c₃, (switcher true 0 pairLayout).Step bootConfig (.create false (pairTask false)) c ∧
      (switcher true 0 pairLayout).Step c (.create true (pairTask true)) c₁ ∧
      Trace (switcher true 0 pairLayout).Step c₁ [.switch false, .run] c₂ ∧
      (switcher true 0 pairLayout).Step c₂ (.switch true) c₃ ∧
      c₃.running = some true ∧ c₃.resume false = some (taskState false c₂.state.mem) := by
  have hlawful := switcher_lawful true 0 pairLayout
  obtain ⟨c, h, hrunning, m, hresume⟩ :=
    exists_create_pair (c := bootConfig) (t := false) (by nofun)
  have hrunning : c.running = none := hrunning
  obtain ⟨c₁, h₁, hrunning₁, m₁, hresume₁⟩ :=
    exists_create_pair (c := c) (t := true) (by rw [hrunning]; nofun)
  have hinv := (bootConfig_start.inv.step hlawful h).step hlawful h₁
  obtain ⟨d, hd, hresume_d⟩ := exists_start false hinv (hrunning₁.trans hrunning)
    (by rw [hresume₁, Function.update_of_ne (by decide), hresume, Function.update_self])
  have hinv_d := hinv.step hlawful hd
  have hrunning_d : d.running = some false := hd.choose_spec.2.1
  have hrun := step_run false hinv_d
  have hout : d.resume true = some ((pairTask true).start true m₁) := by
    rw [hresume_d, hresume₁, Function.update_self]
  obtain ⟨c₃, h₃, hresume₃⟩ := exists_trap true RiscV.timerCause
    (hinv_d.step hlawful hrun) (by rw [hrunning_d]; exact taskState_room false _)
    (Or.inl (by decide)) (by rw [hrunning_d]; decide) hout
  refine ⟨c, c₁, _, c₃, h, h₁, .cons hd (.single hrun), h₃, h₃.choose_spec.2.1, ?_⟩
  have hpc : interrupted (taskState false d.state.mem) RiscV.timerCause =
      taskState false d.state.mem := by
    rw [interrupted, if_pos (by decide)]
  rw [hresume₃, hrunning_d, Switcher.note_self, hpc]
  rfl

end RiscVPort

open CortexM (pairLayout)

theorem riscv_task_started_pair :
    ∃ c c', Trace (switcher true 0 pairLayout).Step bootConfig
        [.create false (pairTask false), .create true (pairTask true), .switch false, .run] c ∧
      (switcher true 0 pairLayout).Step c (.switch true) c' ∧
      c'.state.pc = 0x80002000 ∧ c'.state.reg .a0 = 7 ∧ c'.state.mstatus.getLsbD 3 = true := by
  obtain ⟨c, c₁, c₂, c₃, h, h₁, hwait, h₃, -, -⟩ := exists_pair_start
  have hstarted := riscv_task_started true 0 pairLayout bootConfig_start (.single h) h₁ hwait
    (by simp [Switcher.Action.LeavesWaiting]) h₃
  exact ⟨c₂, c₃, .cons h (.cons h₁ hwait), h₃, hstarted.1, hstarted.2.1, hstarted.2.2.2.2.2⟩

theorem riscv_context_restored_pair :
    ∃ c c' m, Trace (switcher true 0 pairLayout).Step bootConfig
        [.create false (pairTask false), .create true (pairTask true), .switch false, .run,
          .switch true, .run] c ∧
      (switcher true 0 pairLayout).Step c (.switch false) c' ∧
      Resumed true pairLayout false (taskState false m) c'.state := by
  have hlawful := switcher_lawful true 0 pairLayout
  obtain ⟨c, c₁, c₂, c₃, h, h₁, hwait, h₃, hrunning, hout⟩ := exists_pair_start
  have hinv := ((((bootConfig_start.inv.step hlawful h).step hlawful h₁).run hlawful hwait).step
    hlawful h₃)
  have hrun := step_run true hinv
  obtain ⟨c', h', hresume⟩ := exists_trap false 11
    (hinv.step hlawful hrun) (by rw [hrunning]; exact taskState_room true _)
    (Or.inr (Or.inl rfl)) (by rw [hrunning]; decide) hout
  have hwhole := Trace.cons h (.cons h₁ (hwait.append (.cons h₃ (.single hrun))))
  refine ⟨_, c', c₂.state.mem, hwhole, h',
    riscv_context_restored true 0 pairLayout bootConfig_start hwhole h' ?_⟩
  rw [hresume, Switcher.note_of_ne (by rw [hrunning]; decide), hout]

end Sertos
