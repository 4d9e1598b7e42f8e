import Sertos.Lib.Rv32
import Sertos.RiscV

/-!
# The trap handler of the RISC-V port

`sertos_riscv_trap_handler` and `sertos_port_start_first_task` instruction by instruction, from
`port_context.S`, with and without the floating point registers.  Both end in the same
instructions, `restoreContext`.

`frame` is what the handler stores on the stack of the task that it interrupts.  `exec_toSwitch`
says what a run of the handler has done when it comes to `do_switch`, `exec_doSwitch` what it does
from there to the load of the next task's stack pointer, and `exec_restoreContext` what it makes of
the words it then finds on the stack.

The two C functions that are called are relations between states, of which nothing is assumed here.
-/

set_option autoImplicit false

namespace Sertos

open Thumb (Word Memory Aligned bytes Within)
open Rv32

namespace RiscVPort

/-- The labels of the handler and the functions that it calls. -/
inductive Symbol
  | handleException | trapFaultLoop | handleEcall | doSwitch | restoreRiscvTask
  | riscvTimerHandler | performSwitch
  deriving DecidableEq

/-- The registers of the frame, from offset 0 up. -/
def contextRegs : List Reg :=
  [.ra, .t0, .t1, .t2, .s0, .s1, .a0, .a1, .a2, .a3, .a4, .a5, .a6, .a7, .s2, .s3, .s4, .s5, .s6,
    .s7, .s8, .s9, .s10, .s11, .t3, .t4, .t5, .t6]

variable (hasFpu : Bool) (currentTcb handler : Word)

/-- The bits of `mstatus` that make the floating point unit accessible. -/
def fsBits : Word := if hasFpu then 3 <<< 13 else 0

/-- The stores under `#if HAS_FPU`. -/
def saveFpu : List (Instr Symbol) :=
  if hasFpu then
    [.op (.li .t3 (3 <<< 13)), .op (.csrs .mstatus .t3)] ++ (storeFps 120 0 32 ++
      [.op (.frcsr .t3), .op (.sw .t3 248 .sp)])
  else []

/-- The loads under `#if HAS_FPU`. -/
def restoreFpu : List (Instr Symbol) :=
  if hasFpu then
    [.op (.li .t2 (3 <<< 13)), .op (.csrs .mstatus .t2), .op (.lw .t2 248 .sp),
      .op (.fscsr .t2)] ++ loadFps 120 0 32
  else []

/-- What follows the load of `sp` in both functions. -/
def restoreContext : List (Instr Symbol) :=
  [.op (.lw .t0 112 .sp), .op (.csrw .mepc .t0), .op (.lw .t1 116 .sp), .op (.csrw .mstatus .t1)] ++
    (restoreFpu hasFpu ++ (loadRegs 0 contextRegs ++
      [.op (.addi .sp .sp (RiscV.frameSize hasFpu)), .mret]))

/-- `sertos_port_start_first_task`; `handler` is the address of the trap handler. -/
def startFirstTask : List (Instr Symbol) :=
  [.op (.li .t0 handler), .op (.csrw .mtvec .t0), .op (.li .t0 currentTcb), .op (.lw .a0 0 .t0),
    .op (.lw .sp 0 .a0)] ++ restoreContext hasFpu

/-- The handler from `do_switch` on. -/
def doSwitch : List (Instr Symbol) :=
  [.label .doSwitch, .op (.li .t0 currentTcb), .op (.lw .t1 0 .t0), .beqz .t1 .restoreRiscvTask,
    .op (.sw .sp 0 .t1), .label .restoreRiscvTask, .call .performSwitch, .op (.lw .sp 0 .a0)] ++
    restoreContext hasFpu

/-- The handler from `handle_ecall` on. -/
def handleEcall : List (Instr Symbol) :=
  [.label .handleEcall, .op (.addi .t0 .t0 4), .op (.sw .t0 112 .sp), .op (.sw .t1 116 .sp)] ++
    (saveFpu hasFpu ++ doSwitch hasFpu currentTcb)

/-- The handler from `handle_exception` on. -/
def handleException : List (Instr Symbol) :=
  [.label .handleException, .op (.li .t3 11), .beq .t2 .t3 .handleEcall, .op (.li .t3 8),
    .beq .t2 .t3 .handleEcall, .label .trapFaultLoop, .op .wfi, .j .trapFaultLoop] ++
    handleEcall hasFpu currentTcb

/-- `sertos_riscv_trap_handler`; `currentTcb` is the address of `sertos_current_tcb`. -/
def trapHandler : List (Instr Symbol) :=
  [.op (.addi .sp .sp (-RiscV.frameSize hasFpu))] ++ (storeRegs 0 contextRegs ++
    ([.op (.csrr .t0 .mepc), .op (.csrr .t1 .mstatus), .op (.csrr .t2 .mcause),
      .bgez .t2 .handleException, .op (.sw .t0 112 .sp), .op (.sw .t1 116 .sp)] ++
    (saveFpu hasFpu ++
    ([.op (.li .t3 0x80000007), .bne .t2 .t3 .doSwitch, .call .riscvTimerHandler, .j .doSwitch] ++
    handleException hasFpu currentTcb))))

/-! ## The frame -/

/-- The words of the frame of a task that is to go on in state `out`, from offset 0 up. -/
def frame (out : State) : List Word :=
  contextRegs.map out.reg ++ ([out.pc, trapStatus out.mode out.mstatus] ++
    if hasFpu then out.fpRegs 0 32 ++ [out.fcsr] else [])

/-- The address of the frame of a task that is to go on in state `out`. -/
def framePtr (out : State) : Word := out.reg .sp - RiscV.frameSize hasFpu

/-- Where a task goes on that is interrupted in state `s`: at the same instruction, or behind its
`ecall`. -/
def interrupted (s : State) (mcause : Word) : State :=
  { s with pc := if mcause.msb then s.pc else s.pc + 4 }

theorem length_frame {out : State} :
    (frame hasFpu out).length = if hasFpu then 63 else 30 := by
  cases hasFpu <;> simp [frame, contextRegs, State.fpRegs]

section Restore

variable {hasFpu} {callee : Symbol → State → State → Prop} {s s' : State}

/-- How the end of the handler leaves the processor if it starts in state `s`. -/
structure Restored (hasFpu : Bool) (s s' : State) : Prop where
  mem : s'.mem = s.mem
  regs : contextRegs.map s'.reg = s.mem.read (s.reg .sp) 28
  sp : s'.reg .sp = s.reg .sp + RiscV.frameSize hasFpu
  pc : s'.pc = s.mem (s.addr 112 .sp)
  mode : s'.mode = mpp (s.mem (s.addr 116 .sp) ||| fsBits hasFpu)
  mstatus : s'.mstatus = mretStatus (s.mem (s.addr 116 .sp) ||| fsBits hasFpu)
  fpRegs : hasFpu = true → s'.fpRegs 0 32 = s.mem.read (s.addr 120 .sp) 32
  fcsr : hasFpu = true → s'.fcsr = s.mem (s.addr 248 .sp)

theorem exec_restoreFpu (hsp : Aligned (s.reg .sp)) (rest : List (Instr Symbol)) :
    ∃ s₁, (∀ s', Exec callee none (restoreFpu hasFpu ++ rest) s s' ↔
        Exec callee none rest s₁ s') ∧
      s₁.mem = s.mem ∧ s₁.reg .sp = s.reg .sp ∧ s₁.mepc = s.mepc ∧
      s₁.mstatus = s.mstatus ||| fsBits hasFpu ∧
      (hasFpu = true → s₁.fpRegs 0 32 = s.mem.read (s.addr 120 .sp) 32) ∧
      (hasFpu = true → s₁.fcsr = s.mem (s.addr 248 .sp)) := by
  cases hasFpu with
  | false => exact ⟨s, fun _ => Iff.rfl, rfl, rfl, rfl, by simp [fsBits], nofun, nofun⟩
  | true =>
    have haddr : Aligned (s.addr 248 .sp) := aligned_addr hsp (by decide)
    let s₁ : State :=
      { s with
        reg := Function.update s.reg .t2 (s.mem (s.addr 248 .sp))
        mstatus := s.mstatus ||| fsBits true
        fcsr := s.mem (s.addr 248 .sp) }
    have hs₁ : s₁.reg .sp = s.reg .sp := rfl
    have hload : ∀ s', Exec callee none (restoreFpu true ++ rest) s s' ↔
        Exec callee none (loadFps 120 0 32 ++ rest) s₁ s' := by
      intro s'
      rw [State.addr] at haddr
      have hfs : ∀ t : State, t.mstatus = s.mstatus ||| 24576#32 → t.FpuOn := fun _ =>
        State.fpuOn_of_or
      simp [restoreFpu, Exec, State.addr, State.set, State.setFcsr, haddr, hfs, s₁, fsBits]
    refine ⟨s₁.loadFp 0 32 (s₁.addr 120 .sp),
      fun s' => (hload s').trans (exec_loadFps (State.fpuOn_of_or rfl) (by rwa [hs₁]) (by decide)),
      ?_, ?_, ?_, ?_,
      fun _ => State.fpRegs_loadFp, fun _ => ?_⟩
    · rw [State.loadFp_frame]
    · rw [State.loadFp_frame]
      exact hs₁
    · rw [State.loadFp_frame]
    · rw [State.loadFp_frame]
    · rw [State.loadFp_frame]

/-- The end of the handler. -/
theorem exec_restoreContext (hsp : Aligned (s.reg .sp)) : ∃ s₁, Restored hasFpu s s₁ ∧
    ∀ s', Exec callee none (restoreContext hasFpu) s s' ↔ s' = s₁ := by
  have h112 : Aligned (s.addr 112 .sp) := aligned_addr hsp (by decide)
  have h116 : Aligned (s.addr 116 .sp) := aligned_addr hsp (by decide)
  let s₁ : State :=
    { s with
      reg := Function.update (Function.update s.reg .t0 (s.mem (s.addr 112 .sp))) .t1
        (s.mem (s.addr 116 .sp))
      mepc := s.mem (s.addr 112 .sp)
      mstatus := s.mem (s.addr 116 .sp) }
  have hs₁ : s₁.reg .sp = s.reg .sp := rfl
  obtain ⟨s₂, hexec₂, hmem₂, hsp₂, hmepc₂, hmstatus₂, hfp₂, hfcsr₂⟩ :=
    @exec_restoreFpu hasFpu callee s₁ hsp
      (loadRegs 0 contextRegs ++ [.op (.addi .sp .sp (RiscV.frameSize hasFpu)), .mret])
  rw [hs₁] at hsp₂
  have hload : (s₂.load contextRegs (s₂.addr 0 .sp)).reg .sp = s₂.reg .sp :=
    State.load_of_notMem (by decide)
  have haddr : s₂.addr 0 .sp = s.reg .sp := by
    rw [State.addr, hsp₂]
    exact BitVec.add_zero _
  refine ⟨((s₂.load contextRegs (s₂.addr 0 .sp)).set .sp
    (s₂.reg .sp + RiscV.frameSize hasFpu)).mret, ⟨?_, ?_, ?_, ?_, ?_, ?_, ?_, ?_⟩, fun s' => ?_⟩
  · rw [State.load_frame]
    exact hmem₂
  · have hregs : contextRegs.map (s₂.load contextRegs (s₂.addr 0 .sp)).reg =
        s₂.mem.read (s₂.addr 0 .sp) 28 := State.map_load (by decide)
    rw [hmem₂, haddr] at hregs
    rw [haddr]
    refine (List.map_congr_left fun r hr => ?_).trans hregs
    have hne : r ≠ .sp := by
      rintro rfl
      exact absurd hr (by decide)
    exact Function.update_of_ne hne _ _
  · rw [State.mret_reg, State.set_reg, Function.update_self, hsp₂]
  · rw [State.load_frame]
    exact hmepc₂
  · rw [State.load_frame]
    exact congrArg mpp hmstatus₂
  · rw [State.load_frame]
    exact congrArg mretStatus hmstatus₂
  · intro hfpu
    rw [State.load_frame]
    exact hfp₂ hfpu
  · intro hfpu
    rw [State.load_frame]
    exact hfcsr₂ hfpu
  · have hstart : Exec callee none (restoreContext hasFpu) s s' ↔
        Exec callee none (restoreFpu hasFpu ++ (loadRegs 0 contextRegs ++
          [.op (.addi .sp .sp (RiscV.frameSize hasFpu)), .mret])) s₁ s' := by
      rw [State.addr] at h112 h116
      simp [restoreContext, Exec, State.addr, State.set, h112, h116, s₁]
    rw [hstart, hexec₂, exec_loadRegs (by rwa [hsp₂]) (by decide) (by decide)]
    simp [Exec, hload]

end Restore

/-! ## Saving -/

section Save

variable {hasFpu currentTcb} {callee : Symbol → State → State → Prop} {s s' : State}
  {rest : List (Instr Symbol)}

/-- Aligned addresses below the stack pointer that the handler starts with. -/
theorem aligned_framePtr {out : State} (hsp : Aligned (out.reg .sp)) :
    Aligned (framePtr hasFpu out) := by
  refine hsp.sub ?_
  cases hasFpu <;> decide

/-- The floating point registers go behind the words that are on the stack already. -/
theorem exec_saveFpu (hsp : Aligned (s.reg .sp)) {m : Memory} {ws : List Word}
    (hlength : ws.length = 30) (hmem : s.mem = m.write (s.reg .sp) ws) : ∃ s₁,
    (∀ s', Exec callee none (saveFpu hasFpu ++ rest) s s' ↔ Exec callee none rest s₁ s') ∧
      s₁.mem = m.write (s.reg .sp)
        (ws ++ if hasFpu then s.fpRegs 0 32 ++ [s.fcsr] else []) ∧
      s₁.reg .sp = s.reg .sp ∧ s₁.reg .t2 = s.reg .t2 := by
  cases hasFpu with
  | false => exact ⟨s, fun _ => Iff.rfl, by simpa using hmem, rfl, rfl⟩
  | true =>
    have h248 : Aligned (s.reg .sp + 248#32) := hsp.add (by decide)
    let s₁ : State :=
      { s.set .t3 (3 <<< 13) with mstatus := s.mstatus ||| 3 <<< 13 }
    have hfs : s₁.FpuOn := State.fpuOn_of_or rfl
    let s₂ := (s₁.write (s₁.addr 120 .sp) (s₁.fpRegs 0 32)).set .t3 s.fcsr
    refine ⟨s₂.write (s₂.addr 248 .sp) [s.fcsr], fun s' => ?_, ?_, rfl, rfl⟩
    · have hstore : Exec callee none (saveFpu true ++ rest) s s' ↔ Exec callee none
          (storeFps 120 0 32 ++ ([.op (.frcsr .t3), .op (.sw .t3 248 .sp)] ++ rest)) s₁ s' := by
        simp [saveFpu, Exec, State.set, s₁]
      rw [hstore, exec_storeFps (s := s₁) hfs hsp (by decide)]
      have hfs₂ : ∀ t : State, t.mstatus = s.mstatus ||| 24576#32 → t.FpuOn := fun _ =>
        State.fpuOn_of_or
      simp [Exec, State.addr, h248, hfs₂, s₂, s₁]
    · have hfp : s.reg .sp + bytes ws.length = s₁.addr 120 .sp := by
        rw [hlength, bytes]
        rfl
      have hfcsr : s.reg .sp + bytes (ws ++ s.fpRegs 0 32).length = s₂.addr 248 .sp := by
        rw [List.length_append, hlength, bytes]
        simp [State.fpRegs, State.addr, s₂, s₁]
      have hregs : s₁.fpRegs 0 32 = s.fpRegs 0 32 := rfl
      have hstored : s₂.mem = s.mem.write (s₁.addr 120 .sp) (s₁.fpRegs 0 32) := rfl
      have hwrite : s₂.mem = m.write (s.reg .sp) (ws ++ s.fpRegs 0 32) := by
        rw [← Memory.write_append, ← hmem, hfp, hstored, hregs]
      show s₂.mem.write (s₂.addr 248 .sp) [s.fcsr] = _
      rw [hwrite, ← hfcsr, Memory.write_append, List.append_assoc, if_pos rfl]

/-- The rest of the frame goes behind the general purpose registers. -/
theorem exec_saveStatus (hsp : Aligned (s.reg .sp)) {m : Memory} {ws : List Word}
    (hlength : ws.length = 28) (hmem : s.mem = m.write (s.reg .sp) ws) : ∃ s₁,
    (∀ s', Exec callee none
        ([.op (.sw .t0 112 .sp), .op (.sw .t1 116 .sp)] ++ (saveFpu hasFpu ++ rest)) s s' ↔
      Exec callee none rest s₁ s') ∧
      s₁.mem = m.write (s.reg .sp) (ws ++ ([s.reg .t0, s.reg .t1] ++
        if hasFpu then s.fpRegs 0 32 ++ [s.fcsr] else [])) ∧
      s₁.reg .sp = s.reg .sp ∧ s₁.reg .t2 = s.reg .t2 := by
  have h112 : Aligned (s.reg .sp + 112#32) := hsp.add (by decide)
  have h116 : Aligned (s.reg .sp + 116#32) := hsp.add (by decide)
  let s₁ := (s.write (s.reg .sp + 112#32) [s.reg .t0]).write (s.reg .sp + 116#32) [s.reg .t1]
  have hmem₁ : s₁.mem = m.write (s.reg .sp) (ws ++ [s.reg .t0, s.reg .t1]) := by
    have hend : s.reg .sp + bytes ws.length = s.reg .sp + 112#32 := by
      rw [hlength, bytes]
    have hnext : s.reg .sp + 116#32 = s.reg .sp + 112#32 + 4 := by
      rw [BitVec.add_assoc]
      rfl
    rw [← Memory.write_append, ← hmem, hend]
    show (s.mem.write _ _).write (s.reg .sp + 116#32) _ = _
    rw [hnext]
    rfl
  obtain ⟨s₂, hexec, hmem₂, hsp₂, ht₂⟩ := @exec_saveFpu hasFpu callee s₁ rest hsp m
    (ws ++ [s.reg .t0, s.reg .t1]) (by simp [hlength]) hmem₁
  refine ⟨s₂, fun s' => ?_, ?_, hsp₂, ht₂⟩
  · rw [← hexec]
    simp [Exec, State.addr, h112, h116, s₁]
  · rw [hmem₂, List.append_assoc]
    rfl

/-! ### Up to the switch -/

/-- What the handler has stored for a task that is to go on in state `out`. -/
structure FrameSaved (hasFpu : Bool) (out s₁ : State) : Prop where
  mem : s₁.mem = out.mem.write (framePtr hasFpu out) (frame hasFpu out)
  sp : s₁.reg .sp = framePtr hasFpu out

/-- The causes of a trap that does not end in `trap_fault_loop`. -/
def Handled (mcause : Word) : Prop := mcause.msb = true ∨ mcause = 11 ∨ mcause = 8

/-- What the handler does between the stores and `do_switch`: if the timer is the cause, it calls
the timer handler. -/
def Ticked (callee : Symbol → State → State → Prop) (mcause : Word) (s₁ u : State) : Prop :=
  if mcause = RiscV.timerCause then
    ∃ link, callee .riscvTimerHandler (s₁.set .ra link) u
  else u = s₁

theorem label_notMem_saveFpu {l : Symbol} : .label l ∉ saveFpu hasFpu := by
  cases hasFpu <;> simp [saveFpu, label_notMem_storeFps]

theorem label_notMem_restoreContext {l : Symbol} : .label l ∉ restoreContext hasFpu := by
  cases hasFpu <;>
    simp [restoreContext, restoreFpu, label_notMem_loadFps, label_notMem_loadRegs]

theorem exec_past_saveFpu {l : Symbol} :
    Exec callee (some l) (saveFpu hasFpu ++ rest) s s' ↔ Exec callee (some l) rest s s' :=
  exec_past fun _ => label_notMem_saveFpu

/-- A branch to `do_switch` from above the exceptions. -/
theorem exec_past_handleException :
    Exec callee (some .doSwitch) (handleException hasFpu currentTcb) s s' ↔
      Exec callee none (doSwitch hasFpu currentTcb) s s' := by
  have hpast : Exec callee (some .doSwitch) (handleException hasFpu currentTcb) s s' ↔
      Exec callee (some .doSwitch) (saveFpu hasFpu ++ doSwitch hasFpu currentTcb) s s' := by
    simp [handleException, handleEcall, Exec]
  rw [hpast, exec_past_saveFpu]
  simp [doSwitch, Exec]

/-- In the loop for other exceptions the handler stays for ever. -/
theorem not_exec_trapFaultLoop :
    ¬ Exec callee (some .trapFaultLoop) (handleEcall hasFpu currentTcb) s s' := by
  have hpast : Exec callee (some .trapFaultLoop) (handleEcall hasFpu currentTcb) s s' ↔
      Exec callee (some .trapFaultLoop) (saveFpu hasFpu ++ doSwitch hasFpu currentTcb) s s' := by
    simp [handleEcall, Exec]
  have hend : Exec callee (some .trapFaultLoop)
        (saveFpu hasFpu ++ doSwitch hasFpu currentTcb) s s' ↔
      Exec callee (some .trapFaultLoop) (restoreContext hasFpu ++ []) s s' := by
    rw [exec_past_saveFpu]
    simp [doSwitch, Exec]
  rw [hpast, hend, exec_past fun _ => label_notMem_restoreContext]
  exact id

/-- The state at the branch on the cause. -/
structure RegsSaved (hasFpu : Bool) (s : State) (mcause : Word) (s₁ : State) : Prop where
  mem : s₁.mem = s.mem.write (framePtr hasFpu s) (contextRegs.map s.reg)
  sp : s₁.reg .sp = framePtr hasFpu s
  t0 : s₁.reg .t0 = s.pc
  t1 : s₁.reg .t1 = trapStatus s.mode s.mstatus
  t2 : s₁.reg .t2 = mcause
  fp : s₁.fp = s.fp
  fcsr : s₁.fcsr = s.fcsr

/-- The handler up to the branch on the cause. -/
theorem exec_saveRegs {mcause : Word} (hsp : Aligned (s.reg .sp)) :
    ∃ s₁, RegsSaved hasFpu s mcause s₁ ∧ ∀ s', Exec callee none
      ([.op (.addi .sp .sp (-RiscV.frameSize hasFpu))] ++ (storeRegs 0 contextRegs ++
        ([.op (.csrr .t0 .mepc), .op (.csrr .t1 .mstatus), .op (.csrr .t2 .mcause)] ++ rest)))
      (s.trap mcause) s' ↔ Exec callee none rest s₁ s' := by
  let s₁ := (s.trap mcause).set .sp (s.reg .sp + -RiscV.frameSize hasFpu)
  have hsp₁ : s₁.reg .sp = framePtr hasFpu s := by
    rw [framePtr, BitVec.sub_eq_add_neg]
    exact State.reg_set_self ..
  have haddr : s₁.addr 0 .sp = framePtr hasFpu s := (BitVec.add_zero _).trans hsp₁
  have hregs : contextRegs.map s₁.reg = contextRegs.map s.reg := by
    refine List.map_congr_left fun r hr => Function.update_of_ne ?_ _ _
    rintro rfl
    exact absurd hr (by decide)
  have haligned : Aligned (s₁.reg .sp) := hsp₁ ▸ aligned_framePtr hsp
  let s₂ := s₁.write (s₁.addr 0 .sp) (contextRegs.map s₁.reg)
  refine ⟨((s₂.set .t0 s.pc).set .t1 (trapStatus s.mode s.mstatus)).set .t2 mcause,
    ⟨?_, hsp₁, rfl, rfl, rfl, rfl, rfl⟩, fun s' => ?_⟩
  · show s.mem.write (s₁.addr 0 .sp) (contextRegs.map s₁.reg) = _
    rw [haddr, hregs]
  · have hmove : Exec callee none
        ([.op (.addi .sp .sp (-RiscV.frameSize hasFpu))] ++ (storeRegs 0 contextRegs ++
          ([.op (.csrr .t0 .mepc), .op (.csrr .t1 .mstatus), .op (.csrr .t2 .mcause)] ++ rest)))
        (s.trap mcause) s' ↔ Exec callee none (storeRegs 0 contextRegs ++
          ([.op (.csrr .t0 .mepc), .op (.csrr .t1 .mstatus), .op (.csrr .t2 .mcause)] ++ rest))
        s₁ s' := by
      simp [Exec, s₁]
    rw [hmove, exec_storeRegs haligned (by decide)]
    simp [Exec, s₂, s₁]

theorem RegsSaved.set_t3 {mcause w : Word} (h : RegsSaved hasFpu s mcause s') :
    RegsSaved hasFpu s mcause (s'.set .t3 w) :=
  ⟨h.mem, h.sp, h.t0, h.t1, h.t2, h.fp, h.fcsr⟩

variable (callee) in
/-- With the program counter and the status behind the registers the frame is complete. -/
theorem RegsSaved.exec_frame {mcause : Word} (pc : Word) (h : RegsSaved hasFpu s mcause s')
    (hsp : Aligned (s.reg .sp)) (rest : List (Instr Symbol)) :
    ∃ s₁, FrameSaved hasFpu { s with pc := pc } s₁ ∧ s₁.reg .t2 = mcause ∧
      ∀ s'', Exec callee none
        ([.op (.sw .t0 112 .sp), .op (.sw .t1 116 .sp)] ++ (saveFpu hasFpu ++ rest))
        (s'.set .t0 pc) s'' ↔ Exec callee none rest s₁ s'' := by
  have haligned : Aligned ((s'.set .t0 pc).reg .sp) :=
    (congrArg Aligned h.sp).mpr (aligned_framePtr hsp)
  have hwrite : (s'.set .t0 pc).mem =
      s.mem.write ((s'.set .t0 pc).reg .sp) (contextRegs.map s.reg) :=
    h.mem.trans (congrArg (s.mem.write · (contextRegs.map s.reg)) h.sp.symm)
  obtain ⟨s₁, hexec, hmem, hsp₁, ht₂⟩ := @exec_saveStatus hasFpu callee (s'.set .t0 pc) rest
    haligned s.mem (contextRegs.map s.reg) rfl hwrite
  have hframe : frame hasFpu { s with pc := pc } = contextRegs.map s.reg ++
      ([pc, s'.reg .t1] ++ if hasFpu then s'.fpRegs 0 32 ++ [s'.fcsr] else []) := by
    rw [State.fpRegs, h.t1, h.fp, h.fcsr]
    rfl
  refine ⟨s₁, ⟨?_, hsp₁.trans h.sp⟩, ht₂.trans h.t2, hexec⟩
  rw [hframe, hmem]
  exact congrArg (s.mem.write · _) h.sp

/-- The handler between the stores for an interrupt and `do_switch`. -/
theorem exec_timerBranch {mcause : Word} (ht₂ : s.reg .t2 = mcause) :
    Exec callee none ([.op (.li .t3 0x80000007), .bne .t2 .t3 .doSwitch, .call .riscvTimerHandler,
        .j .doSwitch] ++ handleException hasFpu currentTcb) s s' ↔
      ∃ u, Ticked callee mcause (s.set .t3 RiscV.timerCause) u ∧
        Exec callee none (doSwitch hasFpu currentTcb) u s' := by
  by_cases htimer : mcause = RiscV.timerCause
  · have hcall : Exec callee none ([.op (.li .t3 0x80000007), .bne .t2 .t3 .doSwitch,
          .call .riscvTimerHandler, .j .doSwitch] ++ handleException hasFpu currentTcb) s s' ↔
        ∃ link u, callee .riscvTimerHandler ((s.set .t3 RiscV.timerCause).set .ra link) u ∧
          Exec callee (some .doSwitch) (handleException hasFpu currentTcb) u s' := by
      simp [Exec, ht₂, htimer, RiscV.timerCause]
    simp only [hcall, exec_past_handleException, Ticked, if_pos htimer]
    constructor
    · rintro ⟨link, u, hu, h⟩
      exact ⟨u, ⟨link, hu⟩, h⟩
    · rintro ⟨u, ⟨link, hu⟩, h⟩
      exact ⟨link, u, hu, h⟩
  · have hbranch : Exec callee none ([.op (.li .t3 0x80000007), .bne .t2 .t3 .doSwitch,
          .call .riscvTimerHandler, .j .doSwitch] ++ handleException hasFpu currentTcb) s s' ↔
        Exec callee (some .doSwitch) (handleException hasFpu currentTcb)
          (s.set .t3 RiscV.timerCause) s' := by
      have hne : mcause ≠ 0x80000007#32 := htimer
      simp [Exec, ht₂, hne, RiscV.timerCause]
    simp only [hbranch, exec_past_handleException, Ticked, if_neg htimer, exists_eq_left]

/-- An exception that is no `ecall` is not handled. -/
theorem exec_handleException {mcause : Word} (ht₂ : s.reg .t2 = mcause)
    (hmsb : mcause.msb = false) :
    Exec callee none (handleException hasFpu currentTcb) s s' ↔ Handled mcause ∧
      Exec callee none (handleEcall hasFpu currentTcb)
        (s.set .t3 (if mcause = 11 then 11 else 8)) s' := by
  by_cases h11 : mcause = 11
  · simp [handleException, handleEcall, Exec, ht₂, h11, Handled]
  · by_cases h8 : mcause = 8
    · simp [handleException, handleEcall, Exec, ht₂, h8, Handled]
    · have hloop : Exec callee none (handleException hasFpu currentTcb) s s' ↔
          Exec callee (some .trapFaultLoop) (handleEcall hasFpu currentTcb)
            ((s.set .t3 11).set .t3 8) s' := by
        have h11' : mcause ≠ 11#32 := h11
        have h8' : mcause ≠ 8#32 := h8
        simp [handleException, Exec, ht₂, h11', h8']
      refine hloop.trans (iff_of_false not_exec_trapFaultLoop ?_)
      rintro ⟨hint | hcause | hcause, -⟩
      · exact absurd (hmsb.symm.trans hint) (by decide)
      · exact h11 hcause
      · exact h8 hcause

variable (callee hasFpu currentTcb) in
/-- **The handler up to `do_switch`.**  It stores all that is needed to go on where the task was
interrupted, and calls the timer handler for the timer's interrupt only. -/
theorem exec_toSwitch {mcause : Word} (hsp : Aligned (s.reg .sp)) :
    ∃ s₁, FrameSaved hasFpu (interrupted s mcause) s₁ ∧
      ∀ s', Exec callee none (trapHandler hasFpu currentTcb) (s.trap mcause) s' ↔
        Handled mcause ∧ ∃ u, Ticked callee mcause s₁ u ∧
          Exec callee none (doSwitch hasFpu currentTcb) u s' := by
  obtain ⟨s₁, hsaved, hexec₁⟩ := @exec_saveRegs hasFpu callee s
    ([.bgez .t2 .handleException, .op (.sw .t0 112 .sp), .op (.sw .t1 116 .sp)] ++
      (saveFpu hasFpu ++
      ([.op (.li .t3 0x80000007), .bne .t2 .t3 .doSwitch, .call .riscvTimerHandler, .j .doSwitch] ++
      handleException hasFpu currentTcb))) mcause hsp
  cases hmsb : mcause.msb with
  | true =>
    -- an interrupt
    obtain ⟨s₂, hframe, ht₂, hexec₂⟩ := hsaved.exec_frame callee s.pc hsp
      ([.op (.li .t3 0x80000007), .bne .t2 .t3 .doSwitch, .call .riscvTimerHandler, .j .doSwitch] ++
        handleException hasFpu currentTcb)
    have hself : s₁.set .t0 s.pc = s₁ := by
      rw [State.set, ← hsaved.t0, Function.update_eq_self]
    rw [hself] at hexec₂
    have hout : interrupted s mcause = { s with pc := s.pc } := by
      rw [interrupted, hmsb, if_pos rfl]
    refine ⟨s₂.set .t3 RiscV.timerCause, ⟨?_, ?_⟩, fun s' => ?_⟩
    · rw [hout]
      exact hframe.mem
    · rw [hout]
      exact hframe.sp
    · have hbranch : Exec callee none (trapHandler hasFpu currentTcb) (s.trap mcause) s' ↔
          Exec callee none
            ([.op (.sw .t0 112 .sp), .op (.sw .t1 116 .sp)] ++ (saveFpu hasFpu ++
              ([.op (.li .t3 0x80000007), .bne .t2 .t3 .doSwitch, .call .riscvTimerHandler,
                .j .doSwitch] ++ handleException hasFpu currentTcb))) s₁ s' := by
        refine (hexec₁ s').trans ?_
        simp [Exec, hsaved.t2, hmsb]
      rw [hbranch, hexec₂, exec_timerBranch ht₂]
      exact (and_iff_right (Or.inl hmsb)).symm
  | false =>
    -- `t3` holds the cause that was compared last
    let s₂ := s₁.set .t3 (if mcause = 11 then 11 else 8)
    have hsaved₂ : RegsSaved hasFpu s mcause s₂ := hsaved.set_t3
    obtain ⟨s₃, hframe, -, hexec₃⟩ := hsaved₂.exec_frame callee (s.pc + 4) hsp
      (doSwitch hasFpu currentTcb)
    have hout : interrupted s mcause = { s with pc := s.pc + 4 } := by
      rw [interrupted, hmsb]
      rfl
    have htimer : mcause ≠ RiscV.timerCause := by
      rintro rfl
      exact absurd hmsb (by decide)
    refine ⟨s₃, hout ▸ hframe, fun s' => ?_⟩
    have hexception : Exec callee none (trapHandler hasFpu currentTcb) (s.trap mcause) s' ↔
        Exec callee none (handleException hasFpu currentTcb) s₁ s' := by
      refine (hexec₁ s').trans ?_
      have hpast : Exec callee none
          ([.bgez .t2 .handleException, .op (.sw .t0 112 .sp), .op (.sw .t1 116 .sp)] ++
            (saveFpu hasFpu ++ ([.op (.li .t3 0x80000007), .bne .t2 .t3 .doSwitch,
              .call .riscvTimerHandler, .j .doSwitch] ++ handleException hasFpu currentTcb)))
          s₁ s' ↔ Exec callee (some .handleException) (saveFpu hasFpu ++
            ([.op (.li .t3 0x80000007), .bne .t2 .t3 .doSwitch, .call .riscvTimerHandler,
              .j .doSwitch] ++ handleException hasFpu currentTcb)) s₁ s' := by
        simp [Exec, hsaved.t2, hmsb]
      rw [hpast, exec_past_saveFpu]
      simp [handleException, Exec]
    have hecall : Exec callee none (handleEcall hasFpu currentTcb) s₂ s' ↔
        Exec callee none (doSwitch hasFpu currentTcb) s₃ s' := by
      rw [← hexec₃, ← hsaved₂.t0]
      simp [handleEcall, Exec]
    rw [hexception, exec_handleException hsaved.t2 hmsb, hecall]
    simp only [Ticked, if_neg htimer, exists_eq_left]

/-! ### The switch -/

/-- The memory once the address of the frame is stored too, in the current task's control block. -/
def savedMemory (currentTcb : Word) (s : State) : Memory :=
  if s.mem currentTcb = 0 then s.mem else s.mem.write (s.mem currentTcb) [s.reg .sp]

variable (callee hasFpu) in
/-- **The handler from `do_switch` on**: it stores the stack pointer if `sertos_current_tcb` is not
`NULL`, and loads that of the task that the scheduler chooses. -/
theorem exec_doSwitch (hcurrent : Aligned currentTcb) (htcb : Aligned (s.mem currentTcb)) :
    ∃ s₁ : State, s₁.mem = savedMemory currentTcb s ∧ s₁.reg .sp = s.reg .sp ∧
      ∀ s', Exec callee none (doSwitch hasFpu currentTcb) s s' ↔
        ∃ link u, callee .performSwitch (s₁.set .ra link) u ∧ Aligned (u.reg .a0) ∧
          Exec callee none (restoreContext hasFpu) (u.set .sp (u.mem (u.reg .a0))) s' := by
  let s₁ := (s.set .t0 currentTcb).set .t1 (s.mem currentTcb)
  by_cases hnull : s.mem currentTcb = 0#32
  · refine ⟨s₁, (if_pos hnull).symm, rfl, fun s' => ?_⟩
    simp [doSwitch, Exec, State.addr, hcurrent, hnull, s₁]
  · refine ⟨s₁.write (s.mem currentTcb) [s.reg .sp], (if_neg hnull).symm, rfl, fun s' => ?_⟩
    simp [doSwitch, Exec, State.addr, hcurrent, htcb, hnull, s₁]

/-- A run of the end of the handler shows that the address it loads from is aligned. -/
theorem aligned_of_exec_restoreContext (h : Exec callee none (restoreContext hasFpu) s s') :
    Aligned (s.reg .sp) := by
  have h112 : Aligned (s.reg .sp + 112#32) := by
    by_contra hnot
    simp [restoreContext, Exec, State.addr, hnot] at h
  have hsub := h112.sub (b := 112#32) (by decide)
  rwa [BitVec.add_sub_cancel] at hsub

variable (callee hasFpu) in
theorem exec_startFirstTask (hcurrent : Aligned currentTcb) (htcb : Aligned (s.mem currentTcb)) :
    ∃ s₁ : State, s₁.mem = s.mem ∧ s₁.reg .sp = s.mem (s.mem currentTcb) ∧ s₁.mtvec = handler ∧
      ∀ s', Exec callee none (startFirstTask hasFpu currentTcb handler) s s' ↔
        Exec callee none (restoreContext hasFpu) s₁ s' := by
  let s₀ : State := { s.set .t0 handler with mtvec := handler }
  let s₁ := ((s₀.set .t0 currentTcb).set .a0 (s.mem currentTcb)).set .sp (s.mem (s.mem currentTcb))
  refine ⟨s₁, rfl, rfl, rfl, fun s' => ?_⟩
  simp [startFirstTask, Exec, State.addr, hcurrent, htcb, s₁, s₀]

end Save

end RiscVPort

end Sertos
