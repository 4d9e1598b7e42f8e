import Sertos.CortexM
import Sertos.Lib.Trace
import Mathlib.Data.Set.Basic

/-!
# Context switches on the Cortex-M23 and the Cortex-M4

A run is made of what the running task does to its registers and its memory and of executions of
`PendSV_Handler`, after each of which any task may be the running one.  A task that was switched out
is found as it was when it is switched in again (`context_restored`), whatever ran in between.

The memory is cut up by a `Layout`: the word `sertos_current_tcb`, the first word of each control
block, in which the handlers keep the stack pointer, and the stacks.  Between the executions the
running task may write to every word that is none of these, and to its own stack.
-/

set_option autoImplicit false

namespace Sertos

open Thumb Lts CortexM

namespace CortexM

/-! ## The memory of the tasks -/

/-- The addresses of `sertos_current_tcb` and of the control blocks, whose first word is
`stack_ptr`, and the words of the stacks. -/
structure Layout (τ : Type) where
  currentTcb : Word
  tcb : τ → Word
  stack : τ → Set Word
  aligned_currentTcb : Aligned currentTcb
  aligned_tcb : ∀ t, Aligned (tcb t)
  tcb_ne_zero : ∀ t, tcb t ≠ 0
  tcb_injective : Function.Injective tcb
  tcb_ne_currentTcb : ∀ t, tcb t ≠ currentTcb
  currentTcb_notMem_stack : ∀ t, currentTcb ∉ stack t
  tcb_notMem_stack : ∀ t u, tcb t ∉ stack u
  stacks_disjoint : ∀ t u x, x ∈ stack t → x ∈ stack u → t = u

namespace Layout

variable {τ : Type} (L : Layout τ)

/-- The words that may change while a task is running, or none is. -/
def Free (running : Option τ) (x : Word) : Prop :=
  x ≠ L.currentTcb ∧ (∀ t, x ≠ L.tcb t) ∧ ∀ t, x ∈ L.stack t → running = some t

/-- The words below the process stack pointer are the running task's own, or nobody's. -/
def Own : Option τ → Word → Prop
  | some t, x => x ∈ L.stack t
  | none, x => L.Free none x

/-- The value of `sertos_current_tcb`. -/
def tcbPtr : Option τ → Word
  | some t => L.tcb t
  | none => 0

/-- What a call of `sertos_scheduler_perform_switch` that makes `next` the current task does to the
registers and words that the handlers use: it writes to `sertos_current_tcb`, to the states of the
two tasks and to the statistics, and returns the new `sertos_current_tcb`. -/
def PerformSwitch (next : τ) : Symbol → State → State → Prop
  | .performSwitch, s, s' =>
    s'.reg .r0 = L.tcb next ∧ s'.reg .sp = s.reg .sp ∧ s'.mem L.currentTcb = L.tcb next ∧
      ∀ x, ¬ L.Free none x → x ≠ L.currentTcb → s'.mem x = s.mem x
  | _, _, _ => False

end Layout

/-- There is room for what a handler stores: below the process stack pointer for the frame, and
below the main stack pointer for what is pushed. -/
structure Room {τ : Type} (port : Port) (L : Layout τ) (running : Option τ) (s : State) : Prop where
  aligned_psp : Aligned s.psp
  aligned_sp : Aligned (s.reg .sp)
  no_wrap : ∀ t, running = some t → 4 * (frame port s).length ≤ s.psp.toNat
  frame_own : ∀ x, Within (framePtr port s) (frame port s).length x → L.Own running x
  pushed_free : ∀ x, Within (s.reg .sp - bytes (pushed L.currentTcb s port).length)
    (pushed L.currentTcb s port).length x → L.Free none x

/-! ## Runs -/

/-- The state of the processor, the running task, and the state in which each task was last switched
out. -/
structure Config (τ : Type) where
  state : State
  running : Option τ
  switchedOut : τ → Option State

/-- The running task runs, or `PendSV_Handler` makes a task the running one. -/
inductive Action (τ : Type)
  | run
  | pendSV (next : τ)

/-- The states in which tasks were last switched out, once `s` is that of the running task. -/
def noteSwitchedOut {τ : Type} [DecidableEq τ] (switchedOut : τ → Option State) (s : State) :
    Option τ → τ → Option State
  | some t => Function.update switchedOut t (some s)
  | none => switchedOut

/-- A step of a run. -/
def Step {τ : Type} [DecidableEq τ] (port : Port) (L : Layout τ) (c : Config τ) :
    Action τ → Config τ → Prop
  | .run, c' =>
    (∀ x, ¬ L.Free c.running x → c'.state.mem x = c.state.mem x) ∧
      c'.running = c.running ∧ c'.switchedOut = c.switchedOut
  | .pendSV next, c' =>
    Room port L c.running c.state ∧
      Exec (L.PerformSwitch next) none (pendSVHandler L.currentTcb port) c.state c'.state ∧
      c'.running = some next ∧
      c'.switchedOut = noteSwitchedOut c.switchedOut c.state c.running

/-- A task goes on in state `s` where it was switched out in state `out`. -/
structure ContextRestored {τ : Type} (port : Port) (L : Layout τ) (t : τ) (out s : State) :
    Prop where
  regs : ∀ r ∈ [Reg.r4, .r5, .r6, .r7, .r8, .r9, .r10, .r11, .lr], s.reg r = out.reg r
  psp : s.psp = out.psp
  fpRegs : port = .m4 → usesFpu out = true → ∀ i, 16 ≤ i → i < 32 → s.fp i = out.fp i
  stack : ∀ x ∈ L.stack t, out.psp ≤ x → s.mem x = out.mem x
  /-- `stack_limit` is at offset 12. -/
  psplim : port = .m23 → s.psplim = s.mem (L.tcb t + 12)

/-! ## Parked tasks -/

/-- The memory holds all that is needed to resume a task switched out in state `out`. -/
structure Parked {τ : Type} (port : Port) (L : Layout τ) (m : Memory) (t : τ) (out : State) :
    Prop where
  aligned : Aligned (framePtr port out)
  stackPtr : m (L.tcb t) = framePtr port out
  read_frame : m.read (framePtr port out) (frame port out).length = frame port out
  stack : ∀ x ∈ L.stack t, out.psp ≤ x → m x = out.mem x
  frame_on_stack : ∀ x, Within (framePtr port out) (frame port out).length x → x ∈ L.stack t

section Parked

variable {τ : Type} {port : Port} {L : Layout τ} {running : Option τ} {s out : State}
  {m m' : Memory} {t : τ} {x : Word}

theorem Layout.not_free_currentTcb : ¬ L.Free running L.currentTcb := fun h => h.1 rfl

theorem Layout.not_free_tcb : ¬ L.Free running (L.tcb t) := fun h => h.2.1 t rfl

theorem Layout.not_free_of_mem_stack (hx : x ∈ L.stack t) (ht : running ≠ some t) :
    ¬ L.Free running x := fun h => ht (h.2.2 t hx)

theorem Layout.Free.of_none (h : L.Free none x) : L.Free running x :=
  ⟨h.1, h.2.1, fun t hx => by simpa using h.2.2 t hx⟩

theorem Layout.Own.free (h : L.Own running x) : L.Free running x := by
  cases running with
  | none => exact h
  | some t =>
    refine ⟨fun hx => ?_, fun u hx => ?_, fun u hu => ?_⟩
    · exact L.currentTcb_notMem_stack t (hx ▸ h)
    · exact L.tcb_notMem_stack u t (hx ▸ h)
    · rw [L.stacks_disjoint t u x h hu]

/-- A parked task only depends on its control block and its stack. -/
theorem Parked.congr (h : Parked port L m t out) (htcb : m' (L.tcb t) = m (L.tcb t))
    (hstack : ∀ x ∈ L.stack t, m' x = m x) : Parked port L m' t out where
  aligned := h.aligned
  stackPtr := htcb.trans h.stackPtr
  read_frame := by
    rw [Memory.read_congr fun x hx => hstack x (h.frame_on_stack x hx)]
    exact h.read_frame
  stack x hx hpsp := (hstack x hx).trans (h.stack x hx hpsp)
  frame_on_stack := h.frame_on_stack

/-- What is free while another task is running is no part of a parked task. -/
theorem Parked.of_free (h : Parked port L m t out) (ht : running ≠ some t)
    (hfree : ∀ x, ¬ L.Free running x → m' x = m x) : Parked port L m' t out :=
  h.congr (hfree _ L.not_free_tcb) fun x hx => hfree x (L.not_free_of_mem_stack hx ht)

/-! ## What a handler stores -/

/-- The frame goes to words that are free. -/
theorem Room.frameMemory_eq (hroom : Room port L running s) (hx : ¬ L.Free running x) :
    frameMemory port s x = s.mem x :=
  Memory.write_of_not_within fun hwithin => hx (hroom.frame_own x hwithin).free

theorem Room.storable (hroom : Room port L running s)
    (hcurrent : s.mem L.currentTcb = L.tcbPtr running) : Storable L.currentTcb port s := by
  refine ⟨hroom.aligned_psp, hroom.aligned_sp, L.aligned_currentTcb, ?_⟩
  rw [hroom.frameMemory_eq L.not_free_currentTcb, hcurrent]
  cases running with
  | none => exact (by decide : Aligned 0)
  | some t => exact L.aligned_tcb t

theorem Room.savedMemory_none (hroom : Room port L none s) (hcurrent : s.mem L.currentTcb = 0) :
    savedMemory port L.currentTcb s = frameMemory port s := by
  rw [savedMemory, hroom.frameMemory_eq L.not_free_currentTcb, hcurrent, if_pos rfl]

theorem Room.savedMemory_some (hroom : Room port L (some t) s)
    (hcurrent : s.mem L.currentTcb = L.tcb t) :
    savedMemory port L.currentTcb s =
      Function.update (frameMemory port s) (L.tcb t) (framePtr port s) := by
  rw [savedMemory, hroom.frameMemory_eq L.not_free_currentTcb, hcurrent, if_neg (L.tcb_ne_zero t),
    Memory.write_singleton]

theorem Room.callMemory_eq_savedMemory (hroom : Room port L running s) (hx : ¬ L.Free none x) :
    callMemory port L.currentTcb s x = savedMemory port L.currentTcb s x :=
  Memory.write_of_not_within fun hwithin => hx (hroom.pushed_free x hwithin)

/-- Up to the call, a handler writes to nothing but free words and the running task's control
block. -/
theorem Room.callMemory_eq (hroom : Room port L running s)
    (hcurrent : s.mem L.currentTcb = L.tcbPtr running) (hx : ¬ L.Free running x)
    (htcb : ∀ t, running = some t → x ≠ L.tcb t) :
    callMemory port L.currentTcb s x = s.mem x := by
  rw [hroom.callMemory_eq_savedMemory fun h => hx h.of_none]
  cases running with
  | none => rw [hroom.savedMemory_none hcurrent, hroom.frameMemory_eq hx]
  | some t =>
    rw [hroom.savedMemory_some hcurrent, Function.update_of_ne (htcb t rfl),
      hroom.frameMemory_eq hx]

/-- The running task is parked when the call comes. -/
theorem Room.parked (hroom : Room port L (some t) s) (hcurrent : s.mem L.currentTcb = L.tcb t) :
    Parked port L (callMemory port L.currentTcb s) t s := by
  have hstack : ∀ x ∈ L.stack t, callMemory port L.currentTcb s x = frameMemory port s x := by
    intro x hx
    have hne : x ≠ L.tcb t := fun h => L.tcb_notMem_stack t t (h ▸ hx)
    rw [hroom.callMemory_eq_savedMemory (L.not_free_of_mem_stack hx nofun),
      hroom.savedMemory_some hcurrent, Function.update_of_ne hne]
  have hno_wrap := hroom.no_wrap t rfl
  refine ⟨hroom.aligned_psp.sub (aligned_bytes _), ?_, ?_, fun x hx hpsp => ?_, hroom.frame_own⟩
  · rw [hroom.callMemory_eq_savedMemory L.not_free_tcb, hroom.savedMemory_some hcurrent,
      Function.update_self]
  · rw [Memory.read_congr fun x hx => hstack x (hroom.frame_own x hx)]
    exact Memory.read_write (hno_wrap.trans s.psp.isLt.le)
  · have hout : ¬ Within (framePtr port s) (frame port s).length x := fun hwithin =>
      absurd (toNat_of_within_sub hno_wrap hwithin).2 (BitVec.not_lt.2 hpsp)
    rw [hstack x hx, frameMemory, Memory.write_of_not_within hout]

/-! ## What a handler loads -/

/-- The call leaves the parked tasks alone. -/
theorem Parked.performSwitch {next : τ} {s' : State} (h : Parked port L s.mem t out)
    (hcall : L.PerformSwitch next .performSwitch s s') : Parked port L s'.mem t out := by
  obtain ⟨-, -, -, hkept⟩ := hcall
  refine h.congr (hkept _ L.not_free_tcb (L.tcb_ne_currentTcb t)) fun x hx => ?_
  exact hkept x (L.not_free_of_mem_stack hx nofun) fun h => L.currentTcb_notMem_stack t (h ▸ hx)

/-- A handler that loads a parked task resumes it. -/
theorem Restored.context {next : τ} {u : State} (h : Restored port u s)
    (hr0 : u.reg .r0 = L.tcb next) (hparked : Parked port L u.mem next out) :
    ContextRestored port L next out s := by
  have hread := h.read_frame
  rw [hr0, hparked.stackPtr] at hread
  have hframe : frame port s = frame port out := frame_eq_of_read hread hparked.read_frame
  refine ⟨regs_eq_of_frame_eq hframe, ?_, ?_, fun x hx hpsp => ?_, fun hport => ?_⟩
  · rw [h.psp, hr0, hparked.stackPtr, hframe, framePtr, BitVec.sub_add_cancel]
  · rintro rfl
    exact fpRegs_eq_of_frame_eq hframe
  · rw [h.mem, hparked.stack x hx hpsp]
  · rw [h.psplim hport, hr0, h.mem]

end Parked

/-! ## The invariant of all runs -/

/-- `sertos_current_tcb` points to the running task, and every other task that was switched out is
parked. -/
structure Inv {τ : Type} (port : Port) (L : Layout τ) (c : Config τ) : Prop where
  current : c.state.mem L.currentTcb = L.tcbPtr c.running
  parked : ∀ t out, c.switchedOut t = some out → c.running ≠ some t →
    Parked port L c.state.mem t out

/-- The start of a run: no task was switched out yet. -/
structure Start {τ : Type} (L : Layout τ) (c : Config τ) : Prop where
  current : c.state.mem L.currentTcb = L.tcbPtr c.running
  switchedOut : ∀ t, c.switchedOut t = none

theorem Start.inv {τ : Type} {port : Port} {L : Layout τ} {c : Config τ} (h : Start L c) :
    Inv port L c :=
  ⟨h.current, fun t out hout => by simp [h.switchedOut t] at hout⟩

section Runs

variable {τ : Type} [DecidableEq τ] {port : Port} {L : Layout τ} {c c' : Config τ} {next t : τ}
  {out : State}

theorem noteSwitchedOut_self {f : τ → Option State} {s : State} :
    noteSwitchedOut f s (some t) t = some s := Function.update_self ..

theorem noteSwitchedOut_of_ne {f : τ → Option State} {s : State} {running : Option τ}
    (h : running ≠ some t) : noteSwitchedOut f s running t = f t := by
  cases running with
  | none => rfl
  | some u => exact Function.update_of_ne (fun htu => h (by rw [htu])) ..

/-- At the call, all tasks are parked that were switched out before or are switched out now. -/
theorem Inv.parked_callMemory (hc : Inv port L c) (hroom : Room port L c.running c.state)
    (hout : noteSwitchedOut c.switchedOut c.state c.running t = some out) :
    Parked port L (callMemory port L.currentTcb c.state) t out := by
  have hcurrent := hc.current
  by_cases ht : c.running = some t
  · rw [ht] at hroom hout hcurrent
    rw [noteSwitchedOut_self, Option.some_inj] at hout
    exact hout ▸ hroom.parked hcurrent
  · rw [noteSwitchedOut_of_ne ht] at hout
    refine (hc.parked t out hout ht).congr ?_ fun x hx => ?_
    · refine hroom.callMemory_eq hcurrent L.not_free_tcb fun u hu htcb => ht ?_
      rw [hu, L.tcb_injective htcb]
    · refine hroom.callMemory_eq hcurrent (L.not_free_of_mem_stack hx ht) fun u _ htcb => ?_
      exact L.tcb_notMem_stack u t (htcb ▸ hx)

/-- **What one execution of a handler preserves**: when it has chosen the next task, all tasks that
were ever switched out are parked, the one that was running included. -/
theorem Inv.parked_pendSV (hc : Inv port L c) (h : Step port L c (.pendSV next) c')
    (hout : c'.switchedOut t = some out) : Parked port L c'.state.mem t out := by
  obtain ⟨hroom, hexec, -, hnote⟩ := h
  obtain ⟨s₁, u, hmem₁, hcall, hrestored⟩ := exec_pendSVHandler (hroom.storable hc.current) hexec
  rw [hrestored.mem]
  refine Parked.performSwitch ?_ hcall
  rw [hmem₁]
  exact hc.parked_callMemory hroom (hnote ▸ hout)

/-- A handler resumes the task it makes the running one. -/
theorem Inv.context_pendSV (hc : Inv port L c) (h : Step port L c (.pendSV next) c')
    (hout : c'.switchedOut next = some out) : ContextRestored port L next out c'.state := by
  have hparked := hc.parked_pendSV h hout
  obtain ⟨hroom, hexec, -, -⟩ := h
  obtain ⟨s₁, u, -, ⟨hr0, -, -, -⟩, hrestored⟩ :=
    exec_pendSVHandler (hroom.storable hc.current) hexec
  exact hrestored.context hr0 (hrestored.mem ▸ hparked)

/-- No access of a handler is unaligned if the next task's stack pointer is aligned. -/
theorem Room.exists_pendSV (hroom : Room port L c.running c.state)
    (hcurrent : c.state.mem L.currentTcb = L.tcbPtr c.running)
    (hnext : Aligned (callMemory port L.currentTcb c.state (L.tcb next))) :
    ∃ c', Step port L c (.pendSV next) c' := by
  obtain ⟨s', hexec⟩ : ∃ s', Exec (L.PerformSwitch next) none (pendSVHandler L.currentTcb port)
      c.state s' := by
    refine exists_exec_pendSVHandler (hroom.storable hcurrent) fun s₁ hmem hsp => ?_
    let u : State := { s₁.set .r0 (L.tcb next) with
      mem := Function.update s₁.mem L.currentTcb (L.tcb next) }
    have hkept : ∀ x, x ≠ L.currentTcb → u.mem x = s₁.mem x := fun x hx =>
      Function.update_of_ne hx ..
    refine ⟨u, ⟨rfl, rfl, Function.update_self .., fun x _ => hkept x⟩, hsp, L.aligned_tcb next, ?_⟩
    have hr0 : u.reg .r0 = L.tcb next := rfl
    rw [hr0, hkept _ (L.tcb_ne_currentTcb next), hmem]
    exact hnext
  exact ⟨⟨s', some next, noteSwitchedOut c.switchedOut c.state c.running⟩, hroom, hexec, rfl, rfl⟩

/-- **A task that was switched out can be switched in.** -/
theorem Inv.exists_pendSV (hc : Inv port L c) (hroom : Room port L c.running c.state)
    (hout : noteSwitchedOut c.switchedOut c.state c.running next = some out) :
    ∃ c', Step port L c (.pendSV next) c' := by
  have hparked := hc.parked_callMemory hroom hout
  refine hroom.exists_pendSV hc.current ?_
  rw [hparked.stackPtr]
  exact hparked.aligned

/-- Every step keeps the invariant. -/
theorem Inv.step {a : Action τ} (hc : Inv port L c) (h : Step port L c a c') : Inv port L c' := by
  cases a with
  | run =>
    obtain ⟨hmem, hrunning, hnote⟩ := h
    refine ⟨?_, fun t out hout ht => ?_⟩
    · rw [hrunning, hmem _ L.not_free_currentTcb, hc.current]
    · rw [hnote] at hout
      rw [hrunning] at ht
      exact (hc.parked t out hout ht).of_free ht hmem
  | pendSV next =>
    refine ⟨?_, fun t out hout _ => hc.parked_pendSV h hout⟩
    obtain ⟨hroom, hexec, hrunning, -⟩ := h
    obtain ⟨s₁, u, -, ⟨-, -, hcurrent, -⟩, hrestored⟩ :=
      exec_pendSVHandler (hroom.storable hc.current) hexec
    rw [hrunning, hrestored.mem, hcurrent, Layout.tcbPtr]

end Runs

end CortexM

open CortexM

/-- **A task that is switched in goes on where it was last switched out**, on both ports and after
any run. -/
theorem context_restored {τ : Type} [DecidableEq τ] (port : Port) (L : Layout τ)
    {c₀ c c' : Config τ} {as : List (Action τ)} {next : τ} {out : State} (h₀ : Start L c₀)
    (hrun : Trace (Step port L) c₀ as c) (hswitch : Step port L c (.pendSV next) c')
    (hout : c'.switchedOut next = some out) : ContextRestored port L next out c'.state := by
  have hinv : Inv port L c := hrun.invariant (fun _ _ _ hc h => hc.step h) h₀.inv
  exact hinv.context_pendSV hswitch hout

/-! ## Two tasks -/

namespace CortexM

def pairBase : Bool → ℕ
  | false => 0x20001000
  | true => 0x20003000

/-- Two tasks with stacks of 4096 bytes. -/
def pairLayout : Layout Bool where
  currentTcb := 0x20000000
  tcb t := if t then 0x20000200 else 0x20000100
  stack t := {x | pairBase t ≤ x.toNat ∧ x.toNat < pairBase t + 0x1000}
  aligned_currentTcb := by decide
  aligned_tcb := by decide
  tcb_ne_zero := by decide
  tcb_injective := by decide
  tcb_ne_currentTcb := by decide
  currentTcb_notMem_stack := by decide
  tcb_notMem_stack := by decide
  stacks_disjoint t u x ht hu := by
    cases t <;> cases u <;> simp [pairBase] at ht hu ⊢ <;> omega

/-- A task half way down its stack.  The first task uses the floating point unit, the second one
does not. -/
def pairState (t : Bool) (m : Memory) : State where
  reg
    | .sp => 0x20000800
    | .lr => if t then 0xFFFFFFFD else 0xFFFFFFED
    | .r4 => if t then 0 else 0x1234
    | _ => 0
  fp i := if t then 0 else BitVec.ofNat 32 i
  psp := BitVec.ofNat 32 (pairBase t + 0x800)
  psplim := 0
  z := false
  primask := false
  mem := m

/-- The first task is running; a frame for the second one is at the end of its stack. -/
def pairStart : Config Bool where
  state := pairState false fun x =>
    if x = 0x20000000 then 0x20000100 else if x = 0x20000200 then 0x20003F00 else 0
  running := some false
  switchedOut _ := none

theorem pair_room (t : Bool) (m : Memory) : Room .m4 pairLayout (some t) (pairState t m) := by
  have hpsp : (pairState t m).psp.toNat = pairBase t + 0x800 := by
    cases t <;> rfl
  have hbase : pairBase t = 0x20001000 ∨ pairBase t = 0x20003000 := by
    cases t <;> decide
  have hlength : 4 * (frame .m4 (pairState t m)).length ≤ 100 := by
    rw [length_frame_m4]
    split <;> omega
  have hroom : 4 * (frame .m4 (pairState t m)).length ≤ (pairState t m).psp.toNat := by omega
  refine ⟨?_, ?_, fun _ _ => hroom, fun x hx => ?_, fun x hx => ?_⟩
  · rw [Aligned, hpsp]
    omega
  · exact (by decide : Aligned 0x20000800)
  · have hbounds := toNat_of_within_sub hroom hx
    exact ⟨by omega, by omega⟩
  · have hsp : ((pairState t m).reg .sp).toNat = 0x20000800 := rfl
    have hbounds : 0x20000800 - 4 ≤ x.toNat ∧ x.toNat < 0x20000800 := by
      have hone : 4 * 1 ≤ ((pairState t m).reg .sp).toNat := by omega
      exact toNat_of_within_sub hone hx
    refine ⟨fun h => ?_, fun u h => ?_, fun u hu => ?_⟩
    · have hcurrent : pairLayout.currentTcb.toNat = 0x20000000 := rfl
      rw [h] at hbounds
      omega
    · have htcb : (pairLayout.tcb u).toNat < 0x20000300 := by
        cases u <;> decide
      rw [h] at hbounds
      omega
    · have hlow : pairBase u ≤ x.toNat := hu.1
      cases u <;> simp [pairBase] at hlow <;> omega

theorem pairStart_start : Start pairLayout pairStart := ⟨rfl, fun _ => rfl⟩

/-- The first task is switched out, the second one runs, and the first one is switched in. -/
theorem exists_pair_run :
    ∃ c c', Trace (Step .m4 pairLayout) pairStart [.pendSV true, .run] c ∧
      Step .m4 pairLayout c (.pendSV false) c' ∧
      c'.switchedOut false = some pairStart.state := by
  have hroom₁ : Room .m4 pairLayout pairStart.running pairStart.state := pair_room false _
  have hother : callMemory .m4 pairLayout.currentTcb pairStart.state (pairLayout.tcb true) =
      pairStart.state.mem (pairLayout.tcb true) :=
    hroom₁.callMemory_eq pairStart_start.current pairLayout.not_free_tcb (by decide)
  obtain ⟨c₁, h₁⟩ : ∃ c₁, Step .m4 pairLayout pairStart (.pendSV true) c₁ := by
    refine hroom₁.exists_pendSV pairStart_start.current ?_
    rw [hother]
    decide
  let c₂ : Config Bool := { c₁ with state := pairState true c₁.state.mem }
  have h₂ : Step .m4 pairLayout c₁ .run c₂ := ⟨fun _ _ => rfl, rfl, rfl⟩
  have hrunning : c₂.running = some true := h₁.2.2.1
  have hout₁ : c₂.switchedOut = Function.update (fun _ => none) false (some pairStart.state) :=
    h₁.2.2.2
  have hout : noteSwitchedOut c₂.switchedOut c₂.state c₂.running false = some pairStart.state := by
    rw [noteSwitchedOut_of_ne (by rw [hrunning]; decide), hout₁, Function.update_self]
  have hroom₂ : Room .m4 pairLayout c₂.running c₂.state := by
    rw [hrunning]
    exact pair_room true _
  obtain ⟨c₃, h₃⟩ := ((pairStart_start.inv.step h₁).step h₂).exists_pendSV hroom₂ hout
  refine ⟨c₂, c₃, .cons h₁ (.single h₂), h₃, ?_⟩
  rw [h₃.2.2.2, hout]

end CortexM

theorem context_restored_pair :
    ∃ c c', Trace (Step .m4 pairLayout) pairStart [.pendSV true, .run] c ∧
      Step .m4 pairLayout c (.pendSV false) c' ∧
      ContextRestored .m4 pairLayout false pairStart.state c'.state := by
  obtain ⟨c, c', hrun, hswitch, hout⟩ := exists_pair_run
  exact ⟨c, c', hrun, hswitch, context_restored .m4 pairLayout pairStart_start hrun hswitch hout⟩

end Sertos
