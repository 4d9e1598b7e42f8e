import Sertos.Lib.Thumb

/-!
# `PendSV_Handler` on the Cortex-M23 and the Cortex-M4

The two handlers instruction by instruction, from `port_context.s` of each port, cut where they
store the stack pointer in the control block, which both do in the same way, and at the label that
follows.

* `frame` is what a handler stores below the exception frame: nine words on the Cortex-M23, nine or
  twenty-five on the Cortex-M4.
* `exec_pendSVHandler` says what a run of a handler does to the memory before the call of
`sertos_scheduler_perform_switch`, and that its registers are the frame the call left to be loaded.
* `exists_exec_pendSVHandler` says that there is a run, so that no access is unaligned.

The function that is called is a relation between states here, of which nothing is assumed.
-/

set_option autoImplicit false

namespace Sertos

open Thumb

namespace CortexM

inductive Port
  | m23 | m4
  deriving DecidableEq

/-- The symbols that branches and calls of the handlers name. -/
inductive Symbol
  | restoreM23Task | restoreM4Task | performSwitch
  deriving DecidableEq

/-- What stores the stack pointer in the current task's control block, if there is one.  The two
handlers have these instructions in common. -/
def storeStackPtr (currentTcb : Word) (restoreTask : Symbol) : List (Instr Symbol) :=
  [.op (.ldrLiteral .r1 currentTcb),
    .op (.ldr .r2 .r1 0),
    .op (.cmp .r2 0),
    .beq restoreTask,
    .op (.str .r0 .r2)]

/-- The stores of the Cortex-M23, which has no instruction that stores `r8` to `r11`. -/
def saveFrameM23 : List (Instr Symbol) :=
  [.op .cpsid,
    .op (.mrsPsp .r0),
    .op (.mov .r3 .lr),
    .op (.subs .r0 4),
    .op (.str .r3 .r0),
    .op (.subs .r0 16),
    .op (.stmia .r0 [.r4, .r5, .r6, .r7]),
    .op (.subs .r0 16),
    .op (.mov .r4 .r8),
    .op (.mov .r5 .r9),
    .op (.mov .r6 .r10),
    .op (.mov .r7 .r11),
    .op (.subs .r0 16),
    .op (.stmia .r0 [.r4, .r5, .r6, .r7]),
    .op (.subs .r0 16)]

/-- The Cortex-M23's handler from `restore_m23_task` on. -/
def restoreM23Task : List (Instr Symbol) :=
  [.label .restoreM23Task,
    .op (.push [.r1, .lr]),
    .bl .performSwitch,
    .op (.pop [.r1, .r2]),
    .op (.mov .lr .r2),
    .op (.ldr .r3 .r0 12),
    .op (.msrPsplim .r3),
    .op (.ldr .r0 .r0 0),
    .op (.ldmia .r0 [.r4, .r5, .r6, .r7]),
    .op (.mov .r8 .r4),
    .op (.mov .r9 .r5),
    .op (.mov .r10 .r6),
    .op (.mov .r11 .r7),
    .op (.ldmia .r0 [.r4, .r5, .r6, .r7]),
    .op (.ldr .r3 .r0 0),
    .op (.adds .r0 4),
    .op (.mov .lr .r3),
    .op (.msrPsp .r0),
    .op .cpsie,
    .bx .lr]

/-- The stores of the Cortex-M4. -/
def saveFrameM4 : List (Instr Symbol) :=
  [.op .cpsid,
    .op (.mrsPsp .r0),
    .op .isb,
    .op (.tst .lr 0x10),
    .eq (.vstmdb .r0 16 16),
    .op (.stmdb .r0 [.r4, .r5, .r6, .r7, .r8, .r9, .r10, .r11, .lr])]

/-- The Cortex-M4's handler from `restore_m4_task` on. -/
def restoreM4Task : List (Instr Symbol) :=
  [.label .restoreM4Task,
    .op (.push [.lr]),
    .bl .performSwitch,
    .op (.pop [.lr]),
    .op (.ldr .r2 .r0 0),
    .op (.ldmia .r2 [.r4, .r5, .r6, .r7, .r8, .r9, .r10, .r11, .lr]),
    .op (.tst .lr 0x10),
    .eq (.vldmia .r2 16 16),
    .op (.msrPsp .r2),
    .op .isb,
    .op .cpsie,
    .bx .lr]

def saveFrame : Port → List (Instr Symbol)
  | .m23 => saveFrameM23
  | .m4 => saveFrameM4

def restoreLabel : Port → Symbol
  | .m23 => .restoreM23Task
  | .m4 => .restoreM4Task

def restoreTask : Port → List (Instr Symbol)
  | .m23 => restoreM23Task
  | .m4 => restoreM4Task

/-- `PendSV_Handler` of a port; `currentTcb` is the address of `sertos_current_tcb`. -/
def pendSVHandler (currentTcb : Word) (port : Port) : List (Instr Symbol) :=
  saveFrame port ++ (storeStackPtr currentTcb (restoreLabel port) ++ restoreTask port)

/-! ## The frame -/

/-- Bit 4 of `EXC_RETURN` is clear: the exception frame holds floating point registers. -/
def usesFpu (s : State) : Bool := s.reg .lr &&& 0x10 == 0

/-- The registers below the exception frame, from the lowest address up. -/
def frame : Port → State → List Word
  | .m23, s => [.r8, .r9, .r10, .r11, .r4, .r5, .r6, .r7, .lr].map s.reg
  | .m4, s => [.r4, .r5, .r6, .r7, .r8, .r9, .r10, .r11, .lr].map s.reg ++
      if usesFpu s then s.fpRegs 16 16 else []

/-- Where a port puts the frame. -/
def framePtr (port : Port) (s : State) : Word := s.psp - bytes (frame port s).length

/-- What a port pushes on the main stack before the call. -/
def pushed (currentTcb : Word) (s : State) : Port → List Word
  | .m23 => [currentTcb, s.reg .lr]
  | .m4 => [s.reg .lr]

/-- The memory once the frame is stored. -/
def frameMemory (port : Port) (s : State) : Memory := s.mem.write (framePtr port s) (frame port s)

/-- The memory once the address of the frame is stored too, in the current task's control block. -/
def savedMemory (port : Port) (currentTcb : Word) (s : State) : Memory :=
  let mem := frameMemory port s
  if mem currentTcb = 0 then mem else mem.write (mem currentTcb) [framePtr port s]

/-- The memory at the call of `sertos_scheduler_perform_switch`. -/
def callMemory (port : Port) (currentTcb : Word) (s : State) : Memory :=
  (savedMemory port currentTcb s).write
    (s.reg .sp - bytes (pushed currentTcb s port).length) (pushed currentTcb s port)

/-- The addresses a handler stores to before the call are aligned. -/
structure Storable (currentTcb : Word) (port : Port) (s : State) : Prop where
  psp : Aligned s.psp
  sp : Aligned (s.reg .sp)
  current : Aligned currentTcb
  tcb : Aligned (frameMemory port s currentTcb)

/-- The addresses a handler loads from after the call are aligned. -/
structure Loadable (u : State) : Prop where
  sp : Aligned (u.reg .sp)
  tcb : Aligned (u.reg .r0)
  stackPtr : Aligned (u.mem (u.reg .r0))

/-- The state after the stores of a port. -/
structure FrameSaved (port : Port) (s s₁ : State) : Prop where
  mem : s₁.mem = frameMemory port s
  r0 : s₁.reg .r0 = framePtr port s
  sp : s₁.reg .sp = s.reg .sp
  lr : s₁.reg .lr = s.reg .lr

/-- The state after `storeStackPtr`. -/
structure StackPtrStored (currentTcb : Word) (s s₁ : State) : Prop where
  mem : s₁.mem = if s.mem currentTcb = 0 then s.mem else s.mem.write (s.mem currentTcb) [s.reg .r0]
  r1 : s₁.reg .r1 = currentTcb
  sp : s₁.reg .sp = s.reg .sp
  lr : s₁.reg .lr = s.reg .lr

/-- The state at the label of a port. -/
structure AtLabel (port : Port) (currentTcb : Word) (s s₁ : State) : Prop where
  mem : s₁.mem = savedMemory port currentTcb s
  r1 : s₁.reg .r1 = currentTcb
  sp : s₁.reg .sp = s.reg .sp
  lr : s₁.reg .lr = s.reg .lr

/-- The state at the call, reached from the label in state `s`. -/
structure AtCall (port : Port) (currentTcb : Word) (s s₁ : State) : Prop where
  sp : s₁.reg .sp = s.reg .sp - bytes (pushed currentTcb s port).length
  mem : s₁.mem =
    s.mem.write (s.reg .sp - bytes (pushed currentTcb s port).length) (pushed currentTcb s port)

/-- How a port leaves the handler if the call returned in state `u`. -/
structure Restored (port : Port) (u s : State) : Prop where
  mem : s.mem = u.mem
  read_frame : u.mem.read (u.mem (u.reg .r0)) (frame port s).length = frame port s
  psp : s.psp = u.mem (u.reg .r0) + bytes (frame port s).length
  psplim : port = .m23 → s.psplim = u.mem (u.reg .r0 + 12)

section Handlers

variable {callee : Symbol → State → State → Prop} {currentTcb : Word} {s s' : State}

/-! ## The handlers -/

theorem framePtr_m23 : framePtr .m23 s = s.psp - 4#32 - 16#32 - 16#32 := by
  simp [framePtr, frame, bytes]
  bv_omega

/-- The three stores of the Cortex-M23 fill one block. -/
theorem write_frame_m23 (m : Memory) :
    ((m.write (s.psp - 4#32) [s.reg .lr]).write (s.psp - 4#32 - 16#32)
        [s.reg .r4, s.reg .r5, s.reg .r6, s.reg .r7]).write (s.psp - 4#32 - 16#32 - 16#32)
        [s.reg .r8, s.reg .r9, s.reg .r10, s.reg .r11] =
      m.write (framePtr .m23 s) (frame .m23 s) := by
  have hlow : s.psp - 4#32 - 16#32 = framePtr .m23 s + bytes 4 := by
    simp [framePtr_m23, bytes]
  have hlr : s.psp - 4#32 = framePtr .m23 s + bytes 4 + bytes 4 := by
    rw [← hlow]
    simp [bytes]
  rw [← framePtr_m23, hlow, hlr, Memory.write_write m _ 4
    [s.reg .r4, s.reg .r5, s.reg .r6, s.reg .r7] [s.reg .lr] rfl (by simp)]
  exact Memory.write_write m _ 4 [s.reg .r8, s.reg .r9, s.reg .r10, s.reg .r11] _ rfl (by simp)

theorem frame_m4_of_fpu (hfpu : usesFpu s = true) :
    frame .m4 s = [.r4, .r5, .r6, .r7, .r8, .r9, .r10, .r11, .lr].map s.reg ++ s.fpRegs 16 16 := by
  rw [frame, hfpu, if_pos rfl]

theorem framePtr_m4_of_fpu (hfpu : usesFpu s = true) :
    framePtr .m4 s = s.psp - 64#32 - 36#32 := by
  simp [framePtr, frame_m4_of_fpu hfpu, State.fpRegs, bytes]
  bv_omega

/-- The two stores of the Cortex-M4 with the floating point registers fill one block. -/
theorem write_frame_m4 (hfpu : usesFpu s = true) (m : Memory) :
    (m.write (s.psp - 64#32) (s.fpRegs 16 16)).write (s.psp - 64#32 - 36#32)
        ([.r4, .r5, .r6, .r7, .r8, .r9, .r10, .r11, .lr].map s.reg) =
      m.write (framePtr .m4 s) (frame .m4 s) := by
  have hhigh : s.psp - 64#32 = framePtr .m4 s + bytes 9 := by
    simp [framePtr_m4_of_fpu hfpu, bytes]
  have hroom : 4 * (([.r4, .r5, .r6, .r7, .r8, .r9, .r10, .r11, .lr].map s.reg).length +
      (s.fpRegs 16 16).length) ≤ 2 ^ 32 := by
    simp [State.fpRegs]
  rw [← framePtr_m4_of_fpu hfpu, hhigh, frame_m4_of_fpu hfpu,
    Memory.write_write m _ 9 _ _ rfl hroom]

/-- The Cortex-M23 stores the frame. -/
theorem exec_saveFrameM23 (hpsp : Aligned s.psp) (rest : List (Instr Symbol)) :
    ∃ s₁, FrameSaved .m23 s s₁ ∧
      ∀ s', Exec callee none (saveFrameM23 ++ rest) s s' ↔ Exec callee none rest s₁ s' := by
  have hlr : Aligned (s.psp - 4#32) := hpsp.sub (by decide)
  have hlow : Aligned (s.psp - 4#32 - 16#32) := hlr.sub (by decide)
  have hhigh : Aligned (s.psp - 4#32 - 16#32 - 16#32) := hlow.sub (by decide)
  constructor
  constructor
  case h.right =>
    intro s'
    simp [saveFrameM23, bytes, hlr, hlow, hhigh]
    exact Iff.rfl
  exact ⟨by simp [frameMemory, write_frame_m23], by simp [framePtr_m23], by simp, by simp⟩

/-- The Cortex-M4 stores the frame. -/
theorem exec_saveFrameM4 (hpsp : Aligned s.psp) (rest : List (Instr Symbol)) :
    ∃ s₁, FrameSaved .m4 s s₁ ∧
      ∀ s', Exec callee none (saveFrameM4 ++ rest) s s' ↔ Exec callee none rest s₁ s' := by
  cases hfpu : usesFpu s with
  | true =>
    have hfp : Aligned (s.psp - 64#32) := hpsp.sub (by decide)
    have hlow : Aligned (s.psp - 64#32 - 36#32) := hfp.sub (by decide)
    have hlr : s.reg .lr &&& 16#32 = 0#32 := by simpa [usesFpu] using hfpu
    constructor
    constructor
    case h.right =>
      intro s'
      simp [saveFrameM4, bytes, hfp, hlow, hlr]
      exact Iff.rfl
    exact ⟨by simp [frameMemory, ← write_frame_m4 hfpu, State.fpRegs],
      by simp [framePtr_m4_of_fpu hfpu],
      by simp, by simp⟩
  | false =>
    have hlow : Aligned (s.psp - 36#32) := hpsp.sub (by decide)
    have hlr : s.reg .lr &&& 16#32 ≠ 0#32 := by simpa [usesFpu] using hfpu
    constructor
    constructor
    case h.right =>
      intro s'
      simp [saveFrameM4, bytes, hlow, hlr]
      exact Iff.rfl
    exact ⟨by simp [frameMemory, framePtr, frame, hfpu, bytes],
      by simp [framePtr, frame, hfpu, bytes],
      by simp, by simp⟩

/-- Both ports store the stack pointer if `sertos_current_tcb` is not `NULL`. -/
theorem exec_storeStackPtr (hcurrent : Aligned currentTcb) (htcb : Aligned (s.mem currentTcb))
    {restoreTask : Symbol} {rest : List (Instr Symbol)}
    (hlabel : rest.head? = some (.label restoreTask)) :
    ∃ s₁, StackPtrStored currentTcb s s₁ ∧
      ∀ s', Exec callee none (storeStackPtr currentTcb restoreTask ++ rest) s s' ↔
        Exec callee none rest s₁ s' := by
  obtain ⟨is, rfl⟩ : ∃ is, rest = .label restoreTask :: is := by
    cases rest with
    | nil => simp at hlabel
    | cons i is => exact ⟨is, by simpa using hlabel⟩
  by_cases hnull : s.mem currentTcb = 0#32
  · constructor
    constructor
    case h.right =>
      intro s'
      simp [storeStackPtr, hcurrent, hnull]
      exact Iff.rfl
    exact ⟨by simp [hnull], by simp, by simp, by simp⟩
  · constructor
    constructor
    case h.right =>
      intro s'
      simp [storeStackPtr, hcurrent, htcb, hnull]
      exact Iff.rfl
    exact ⟨by simp [hnull], by simp, by simp, by simp⟩

variable (callee) in
/-- A handler up to its label. -/
theorem exec_toLabel {port : Port} (hs : Storable currentTcb port s) :
    ∃ s₁, AtLabel port currentTcb s s₁ ∧
      ∀ s', Exec callee none (pendSVHandler currentTcb port) s s' ↔
        Exec callee none (restoreTask port) s₁ s' := by
  obtain ⟨s₁, hsaved, hexec₁⟩ : ∃ s₁, FrameSaved port s s₁ ∧
      ∀ s', Exec callee none (pendSVHandler currentTcb port) s s' ↔ Exec callee none
        (storeStackPtr currentTcb (restoreLabel port) ++ restoreTask port) s₁ s' := by
    cases port with
    | m23 => exact exec_saveFrameM23 hs.psp _
    | m4 => exact exec_saveFrameM4 hs.psp _
  obtain ⟨s₂, hstored, hexec₂⟩ : ∃ s₂, StackPtrStored currentTcb s₁ s₂ ∧
      ∀ s', Exec callee none (storeStackPtr currentTcb (restoreLabel port) ++ restoreTask port) s₁ s' ↔
        Exec callee none (restoreTask port) s₂ s' := by
    have htcb : Aligned (s₁.mem currentTcb) := by
      rw [hsaved.mem]
      exact hs.tcb
    exact exec_storeStackPtr hs.current htcb (by cases port <;> rfl)
  refine ⟨s₂, ⟨?_, hstored.r1, ?_, ?_⟩, fun s' => (hexec₁ s').trans (hexec₂ s')⟩
  · rw [hstored.mem, hsaved.mem, hsaved.r0]
    rfl
  · rw [hstored.sp, hsaved.sp]
  · rw [hstored.lr, hsaved.lr]

/-! ### After the label -/

theorem exec_restoreM23Task (hr1 : s.reg .r1 = currentTcb)
    (h : Exec callee none restoreM23Task s s') :
    ∃ s₁ u, AtCall .m23 currentTcb s s₁ ∧ callee .performSwitch s₁ u ∧ Restored .m23 u s' := by
  simp [restoreM23Task] at h
  obtain ⟨-, link, u, hcall, -, -, -, -, -, -, rfl⟩ := h
  refine ⟨_, u, ⟨?_, ?_⟩, hcall, ⟨rfl, ?_, ?_, ?_⟩⟩
  · simp [pushed]
  · simp [pushed, hr1]
  · simp [frame, Memory.read, bytes, BitVec.add_assoc]
  · simp [frame, bytes, BitVec.add_assoc]
  · simp

/-- The word that is loaded into `lr` decides whether the floating point registers are loaded after
it. -/
theorem exec_restoreM4Task (h : Exec callee none restoreM4Task s s') :
    ∃ s₁ u, AtCall .m4 currentTcb s s₁ ∧ callee .performSwitch s₁ u ∧ Restored .m4 u s' := by
  simp [restoreM4Task, BitVec.add_assoc] at h
  obtain ⟨-, link, u, hcall, -, -, -, h⟩ := h
  refine ⟨_, u, ⟨?_, ?_⟩, hcall, ?_⟩
  · simp [pushed]
  · simp [pushed]
  split at h
  case isTrue hfpu =>
    obtain ⟨-, rfl⟩ := h
    refine ⟨rfl, ?_, ?_, ?_⟩
    · simp [frame, usesFpu, State.fpRegs, List.range', Memory.read, bytes, BitVec.add_assoc, hfpu]
    · simp [frame, usesFpu, State.fpRegs, bytes, hfpu]
    · simp
  case isFalse hfpu =>
    subst h
    refine ⟨rfl, ?_, ?_, ?_⟩
    · simp [frame, usesFpu, Memory.read, bytes, BitVec.add_assoc, hfpu]
    · simp [frame, usesFpu, bytes, hfpu]
    · simp

theorem exists_exec_restoreM23Task (hsp : Aligned (s.reg .sp)) (hr1 : s.reg .r1 = currentTcb)
    (hcall : ∀ s₁, AtCall .m23 currentTcb s s₁ → ∃ u, callee .performSwitch s₁ u ∧ Loadable u) :
    ∃ s', Exec callee none restoreM23Task s s' := by
  have hpush : Aligned (s.reg .sp - bytes 2) := hsp.sub (aligned_bytes 2)
  obtain ⟨u, hcall, hu⟩ := hcall
    (((s.write (s.reg .sp - bytes 2) [s.reg .r1, s.reg .lr]).set .sp (s.reg .sp - bytes 2)).set .lr 0)
    ⟨by simp [pushed], by simp [pushed, hr1]⟩
  have hlimit : Aligned (u.reg .r0 + 12#32) := hu.tcb.add (by decide)
  have hlow : Aligned (u.mem (u.reg .r0) + bytes 4) := hu.stackPtr.add (aligned_bytes 4)
  have hlr : Aligned (u.mem (u.reg .r0) + bytes 4 + bytes 4) := hlow.add (aligned_bytes 4)
  simp [restoreM23Task, hpush]
  exact ⟨0, u, hcall, hu.sp, hlimit, hu.tcb, hu.stackPtr, hlow, hlr⟩

theorem exists_exec_restoreM4Task (hsp : Aligned (s.reg .sp))
    (hcall : ∀ s₁, AtCall .m4 currentTcb s s₁ → ∃ u, callee .performSwitch s₁ u ∧ Loadable u) :
    ∃ s', Exec callee none restoreM4Task s s' := by
  have hpush : Aligned (s.reg .sp - bytes 1) := hsp.sub (aligned_bytes 1)
  obtain ⟨u, hcall, hu⟩ := hcall
    (((s.write (s.reg .sp - bytes 1) [s.reg .lr]).set .sp (s.reg .sp - bytes 1)).set .lr 0)
    ⟨by simp [pushed], by simp [pushed]⟩
  have hhigh : Aligned (u.mem (u.reg .r0) + bytes 9) := hu.stackPtr.add (aligned_bytes 9)
  simp [restoreM4Task, hpush, BitVec.add_assoc]
  by_cases hfpu : u.mem (u.mem (u.reg .r0) + 32#32) &&& 16#32 = 0#32
  · exact ⟨_, 0, u, hcall, hu.sp, hu.tcb, hu.stackPtr, (if_pos hfpu).mpr ⟨hhigh, rfl⟩⟩
  · exact ⟨_, 0, u, hcall, hu.sp, hu.tcb, hu.stackPtr, (if_neg hfpu).mpr rfl⟩

/-! ### Whole handlers -/

theorem AtLabel.pushed_eq {port : Port} {s₁ : State} (h : AtLabel port currentTcb s s₁) :
    pushed currentTcb s₁ port = pushed currentTcb s port := by
  cases port <;> simp [pushed, h.lr]

theorem AtLabel.callMemory_eq {port : Port} {s₁ s₂ : State} (h : AtLabel port currentTcb s s₁)
    (hcall : AtCall port currentTcb s₁ s₂) : s₂.mem = callMemory port currentTcb s := by
  rw [hcall.mem, h.pushed_eq, h.mem, h.sp, callMemory]

/-- **The handler of a port** calls `sertos_scheduler_perform_switch` with the frame stored, and
loads what the call left. -/
theorem exec_pendSVHandler {port : Port} (hs : Storable currentTcb port s)
    (h : Exec callee none (pendSVHandler currentTcb port) s s') :
    ∃ s₁ u, s₁.mem = callMemory port currentTcb s ∧ callee .performSwitch s₁ u ∧
      Restored port u s' := by
  obtain ⟨s₁, hlabel, hexec⟩ := exec_toLabel callee hs
  obtain ⟨s₂, u, hat, hcall, hrestored⟩ : ∃ s₂ u, AtCall port currentTcb s₁ s₂ ∧
      callee .performSwitch s₂ u ∧ Restored port u s' := by
    cases port with
    | m23 => exact exec_restoreM23Task hlabel.r1 ((hexec s').1 h)
    | m4 => exact exec_restoreM4Task ((hexec s').1 h)
  exact ⟨s₂, u, hlabel.callMemory_eq hat, hcall, hrestored⟩

/-- **No handler faults** if the call leaves addresses that can be loaded from. -/
theorem exists_exec_pendSVHandler {port : Port} (hs : Storable currentTcb port s)
    (hcall : ∀ s₁, s₁.mem = callMemory port currentTcb s → Aligned (s₁.reg .sp) →
      ∃ u, callee .performSwitch s₁ u ∧ Loadable u) :
    ∃ s', Exec callee none (pendSVHandler currentTcb port) s s' := by
  obtain ⟨s₁, hlabel, hexec⟩ := exec_toLabel callee hs
  have hsp : Aligned (s₁.reg .sp) := by
    rw [hlabel.sp]
    exact hs.sp
  have hcall' : ∀ s₂, AtCall port currentTcb s₁ s₂ →
      ∃ u, callee .performSwitch s₂ u ∧ Loadable u := by
    intro s₂ hat
    refine hcall s₂ (hlabel.callMemory_eq hat) ?_
    rw [hat.sp]
    exact hsp.sub (aligned_bytes _)
  obtain ⟨s', h⟩ : ∃ s', Exec callee none (restoreTask port) s₁ s' := by
    cases port with
    | m23 => exact exists_exec_restoreM23Task hsp hlabel.r1 hcall'
    | m4 => exact exists_exec_restoreM4Task hsp hcall'
  exact ⟨s', (hexec s').2 h⟩

/-! ## The frame as a record of the registers -/

theorem regs_eq_of_frame_eq {port : Port} (h : frame port s = frame port s') :
    ∀ r ∈ [.r4, .r5, .r6, .r7, .r8, .r9, .r10, .r11, .lr], s.reg r = s'.reg r := by
  cases port <;> simp [frame] at h ⊢ <;> tauto

theorem usesFpu_congr (h : s.reg .lr = s'.reg .lr) : usesFpu s = usesFpu s' := by
  rw [usesFpu, usesFpu, h]

theorem length_frame_m4 : (frame .m4 s).length = if usesFpu s then 25 else 9 := by
  cases hfpu : usesFpu s <;> simp [frame, hfpu, State.fpRegs]

theorem fpRegs_eq_of_frame_eq (h : frame .m4 s = frame .m4 s') (hfpu : usesFpu s' = true) :
    ∀ i, 16 ≤ i → i < 32 → s.fp i = s'.fp i := by
  have hlr : s.reg .lr = s'.reg .lr := regs_eq_of_frame_eq h .lr (by simp)
  rw [frame_m4_of_fpu hfpu, frame_m4_of_fpu ((usesFpu_congr hlr).trans hfpu)] at h
  have hregs := (List.append_inj h rfl).2
  rw [State.fpRegs, State.fpRegs, List.map_inj_left] at hregs
  intro i hlo hhi
  exact hregs i (List.mem_range'_1.2 ⟨hlo, hhi⟩)

/-- A frame says itself how long it is, so memory holds one frame at most at an address. -/
theorem frame_eq_of_read {port : Port} {m : Memory} {a : Word}
    (h : m.read a (frame port s).length = frame port s)
    (h' : m.read a (frame port s').length = frame port s') : frame port s = frame port s' := by
  cases port with
  | m23 => exact h.symm.trans h'
  | m4 =>
    have hregs : ∀ u : State, m.read a (frame .m4 u).length = frame .m4 u →
        m.read a 9 = [.r4, .r5, .r6, .r7, .r8, .r9, .r10, .r11, .lr].map u.reg := by
      intro u hu
      rw [frame, List.length_append] at hu
      change m.read a (9 + _) = _ at hu
      rw [Memory.read_add] at hu
      exact List.append_inj_left hu (by simp)
    have heq := (hregs s h).symm.trans (hregs s' h')
    have hlr : s.reg .lr = s'.reg .lr := List.map_inj_left.1 heq .lr (by simp)
    have hlength : (frame .m4 s).length = (frame .m4 s').length := by
      rw [length_frame_m4, length_frame_m4, usesFpu_congr hlr]
    rw [← h, ← h', hlength]

end Handlers

end CortexM

end Sertos
