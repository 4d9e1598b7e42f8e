import Sertos.Accounting

/-!
# The switch at the end of a trap

The trap handler of the RISC-V port (`port/riscv/port_context.S`) ends every interrupt and every
`ecall` in `sertos_scheduler_perform_switch`.  The lock is tested in
`sertos_scheduler_switch_context` only, so a trap taken under the lock can give the processor to
another task.

`currentTcb_trap_iff` says exactly which traps keep the current task: those that find it first in the
highest queue that is not empty, a timer trap with the tasks counted in that wake at this very tick.

Of the context frame only its address is kept here; what `sertos_port_riscv_timer_handler` writes to
the timer's compare registers is left out.
-/

set_option autoImplicit false

namespace Sertos

open Intrusive Lts Scheduler

/-! ## The port -/

namespace RiscV

/-- `FRAME_SIZE`, with and without `HAS_FPU`. -/
def frameSize (hasFpu : Bool) : BitVec 32 := if hasFpu then 256 else 128

/-- The cause of a machine timer interrupt. -/
def timerCause : BitVec 32 := 0x80000007

/-- The end of a new task's stack, as `init_tcb_and_stack` computes it. -/
def stackTop (config : TaskConfig) : BitVec 32 :=
  BitVec.ofNat 32 (config.stackBuffer.getD 0 + config.stackSize) &&&
    ~~~(BitVec.ofNat 32 stackAlignmentBytes - 1)

/-- The address `sertos_port_stack_init` returns. -/
def stackInit (hasFpu : Bool) (top : BitVec 32) : BitVec 32 :=
  (top &&& ~~~(BitVec.ofNat 32 stackAlignmentBytes - 1)) - frameSize hasFpu

/-- `sertos_scheduler_switch_context` on this port, and whether `sertos_port_yield` executes an
`ecall` at its end; `inIsr` is `s_in_isr`. -/
def switchContext (inIsr : Bool) (k : Kernel) : Kernel × Bool :=
  if 0 < k.lockNesting then ({ k with reschedulePending := true }, false)
  else match selectNextTask k with
    | none => (k, false)
    | some next => (k, decide (k.currentTcb ≠ some next) && !inIsr)

/-- `sertos_scheduler_tick` on this port. -/
def tick (inIsr : Bool) (k : Kernel) : Kernel × Bool :=
  let r := tickSection k
  if r.2 || r.1.timeSlicingEnabled then switchContext inIsr r.1 else (r.1, false)

/-- `sertos_port_riscv_timer_handler`. -/
def timerHandler (k : Kernel) : Kernel := (tick true k).1

/-- What the trap handler does to the kernel before it comes to `do_switch`. -/
def beforeSwitch (k : Kernel) (mcause : BitVec 32) : Kernel :=
  if mcause = timerCause then timerHandler k else k

end RiscV

/-! ## Which switches change nothing -/

namespace Kernel

/-- With these ready queues the current task is the one to run: it is the first of its queue, and
the queues of higher priority are empty.  If all queues are empty there is no task to switch to. -/
def IsNext (k : Kernel) (queue : ℕ → List TaskId) : Prop :=
  (∀ p < maxPriorities, queue p = []) ∨
    match k.currentTcb with
    | none => False
    | some c => (queue (k.tcb c).priority).head? = some c ∧
      ∀ p < maxPriorities, (k.tcb c).priority < p → queue p = []

instance (k : Kernel) (queue : ℕ → List TaskId) : Decidable (k.IsNext queue) :=
  match h : k.currentTcb with
  | none => decidable_of_iff (∀ p < maxPriorities, queue p = []) (by simp [IsNext, h])
  | some c =>
    decidable_of_iff ((∀ p < maxPriorities, queue p = []) ∨
      (queue (k.tcb c).priority).head? = some c ∧
        ∀ p < maxPriorities, (k.tcb c).priority < p → queue p = []) (by simp only [IsNext, h])

/-- The tasks in `s_ready_queues[p]`. -/
def readyNodes (k : Kernel) (p : ℕ) : List TaskId := (k.readyQueue p).nodes

/-- A ready queue with the tasks appended that wake at the coming tick. -/
def dueQueue (k : Kernel) (p : ℕ) : List TaskId := k.readyNodes p ++ k.expiring p

/-- With time slicing the current task has its queue to itself. -/
def Unsliced (k : Kernel) (queue : ℕ → List TaskId) : Prop :=
  match k.currentTcb with
  | none => True
  | some c => k.timeSlicingEnabled = true → (queue (k.tcb c).priority).length ≤ 1

instance (k : Kernel) (queue : ℕ → List TaskId) : Decidable (k.Unsliced queue) :=
  match h : k.currentTcb with
  | none => .isTrue (by simp [Unsliced, h])
  | some c =>
    decidable_of_iff (k.timeSlicingEnabled = true → (queue (k.tcb c).priority).length ≤ 1)
      (by simp only [Unsliced, h])

end Kernel

/-- The switch at the end of a trap finds nothing to do: with the queues as they are or, in a timer
trap, as the tick makes them. -/
def RiscV.Undisturbed (k : Kernel) (mcause : BitVec 32) : Prop :=
  if mcause = timerCause then k.IsNext k.dueQueue ∧ k.Unsliced k.dueQueue
  else k.IsNext k.readyNodes

instance (k : Kernel) (mcause : BitVec 32) : Decidable (RiscV.Undisturbed k mcause) :=
  inferInstanceAs (Decidable
    (if mcause = RiscV.timerCause then k.IsNext k.dueQueue ∧ k.Unsliced k.dueQueue
      else k.IsNext k.readyNodes))

namespace Kernel

variable {k k' : Kernel} {n c : TaskId} {queue queue' : ℕ → List TaskId}

theorem isNext_congr (hc : k'.currentTcb = k.currentTcb)
    (hp : ∀ t, (k'.tcb t).priority = (k.tcb t).priority) (hq : ∀ p, queue' p = queue p) :
    k'.IsNext queue' ↔ k.IsNext queue := by
  obtain rfl : queue' = queue := funext hq
  rw [IsNext, IsNext, hc]
  cases k.currentTcb with
  | none => exact Iff.rfl
  | some c => simp only [hp]

/-- The selected task is the first of its queue, and the queues of higher priority are empty. -/
theorem ReadyInv.selectNextTask_spec (h : k.ReadyInv) (hn : selectNextTask k = some n) :
    (k.readyNodes (k.tcb n).priority).head? = some n ∧
      ∀ p < maxPriorities, (k.tcb n).priority < p → k.readyNodes p = [] := by
  have htop := h.selectNextTask_isTop hn
  refine ⟨h.head?_of_selectNextTask hn, fun p _ hp => ?_⟩
  refine List.eq_nil_iff_forall_not_mem.2 fun t ht => ?_
  obtain ⟨hlive, hr, rfl⟩ := (h.mem_readyQueue p t).1 ht
  exact absurd (htop.max t ⟨hlive, hr⟩) (by omega)

/-- **A switch keeps the current task exactly if that is the one to run.** -/
theorem ReadyInv.performSwitch_currentTcb_iff (h : k.ReadyInv) :
    (performSwitch k).currentTcb = k.currentTcb ↔ k.IsNext k.readyNodes := by
  cases hn : selectNextTask k with
  | none =>
    rw [performSwitch_of_none hn]
    refine ⟨fun _ => Or.inl fun p _ => ?_, fun _ => rfl⟩
    refine List.eq_nil_iff_forall_not_mem.2 fun t ht => ?_
    obtain ⟨hlive, hr, -⟩ := (h.mem_readyQueue p t).1 ht
    exact h.selectNextTask_eq_none.1 hn t ⟨hlive, hr⟩
  | some n =>
    obtain ⟨hhead, habove⟩ := h.selectNextTask_spec hn
    have hlt := h.priority_lt n (h.selectNextTask_isTop hn).ready
    rw [performSwitch_of_some hn, dispatch_currentTcb]
    constructor
    · intro hc
      rw [IsNext, ← hc]
      exact Or.inr ⟨hhead, habove⟩
    · rintro (hempty | hnext)
      · rw [hempty _ hlt] at hhead
        exact absurd hhead (by simp)
      · cases hc : k.currentTcb with
        | none =>
          rw [hc] at hnext
          exact hnext.elim
        | some c =>
          rw [hc] at hnext
          obtain ⟨hhead', habove'⟩ := hnext
          have hmem := List.mem_of_mem_head? hhead'
          obtain ⟨hlive, hr, -⟩ := (h.mem_readyQueue _ c).1 hmem
          rcases Nat.lt_trichotomy (k.tcb c).priority (k.tcb n).priority with hp | hp | hp
          · rw [habove' _ hlt hp] at hhead
            exact absurd hhead (by simp)
          · rw [hp] at hhead'
            exact hhead.symm.trans hhead'
          · rw [habove _ (h.priority_lt c ⟨hlive, hr⟩) hp] at hhead'
            exact absurd hhead' (by simp)

/-! ## The tick of a timer trap -/

/-- A task that shares its queue is not its first when it has been rotated. -/
theorem not_isNext_rotate (h : k.ListInv) (hc : k.currentTcb = some c) (hr : k.Ready c)
    (hlen : 1 < (k.readyNodes (k.tcb c).priority).length) :
    ¬ (k.rotate c).IsNext (k.rotate c).readyNodes := by
  have hmem : c ∈ k.readyNodes (k.tcb c).priority := h.mem_readyQueue_iff_ready.2 hr
  have hqueue : (k.rotate c).readyNodes (k.tcb c).priority
      = (k.readyNodes (k.tcb c).priority).erase c ++ [c] := by
    simp [readyNodes, readyQueue, rotate, Bundle.remove, LinkedList.insertTail, Bundle.insertTail]
  have hnd : c ∉ (k.readyNodes (k.tcb c).priority).erase c :=
    ((h.stateWF.list _).nodup).not_mem_erase
  have hpos : 0 < ((k.readyNodes (k.tcb c).priority).erase c).length := by
    rw [List.length_erase_of_mem hmem]
    omega
  obtain ⟨x, l, hx⟩ := List.exists_cons_of_length_pos hpos
  rintro (hempty | hnext)
  · have hnil := hempty _ (h.priority_lt hr.1)
    rw [hqueue] at hnil
    simp at hnil
  · rw [show (k.rotate c).currentTcb = some c from hc] at hnext
    have hhead := hnext.1
    rw [show ((k.rotate c).tcb c).priority = (k.tcb c).priority from rfl, hqueue, hx] at hhead
    obtain rfl : x = c := by simpa using hhead
    exact hnd (by simp [hx])

theorem Inv.tickSection_isNext_iff (h : k.Inv) (hh : k.HarmlessTick) :
    (Scheduler.tickSection k).1.IsNext (Scheduler.tickSection k).1.readyNodes ↔
      k.IsNext k.dueQueue ∧ k.Unsliced k.dueQueue := by
  have ht := ticked_advance h
  have hadv := h.advance
  have hqueue : ∀ p, k.advance.readyNodes p = k.dueQueue p := advance_readyQueue h
  have hiff : k.advance.IsNext k.advance.readyNodes ↔ k.IsNext k.dueQueue :=
    isNext_congr ht.currentTcb ht.priority hqueue
  rw [tickSection_eq h]
  cases hc : k.currentTcb with
  | none =>
    have hself : processTimeSlicing k.advance = k.advance := by
      rw [processTimeSlicing, ht.currentTcb, hc]
      cases k.advance.timeSlicingEnabled <;> rfl
    rw [hself, hiff, Unsliced, hc]
    exact (and_iff_left trivial).symm
  | some c =>
    have hcadv := ht.currentTcb.trans hc
    have hcount : (k.advance.readyQueue (k.advance.tcb c).priority).count
        = (k.dueQueue (k.tcb c).priority).length := by
      rw [← hqueue, ← ht.priority]
      exact (hadv.lists.stateWF.list _).count_eq
    by_cases hrot : k.timeSlicingEnabled = true ∧ 1 < (k.dueQueue (k.tcb c).priority).length
    · -- the tick rotates the current task away
      have hready : k.advance.Ready c := by
        by_contra hr
        obtain ⟨hb, hd⟩ := blocked_of_advance h (h.current_live c hc) hr
        rw [HarmlessTick, hc] at hh
        have hlen := hh hrot.1 hb hd
        have hlong := hrot.2
        rw [dueQueue, readyNodes, List.length_append] at hlong
        omega
      have hlen : 1 < (k.advance.readyNodes (k.advance.tcb c).priority).length := by
        rw [hqueue, ht.priority]
        exact hrot.2
      have hslice : processTimeSlicing k.advance = k.advance.rotate c := by
        rw [processTimeSlicing_of_ready hadv.lists hcadv hready.1 hready.2,
          if_pos ⟨ht.timeSlicingEnabled.trans hrot.1, hlen⟩]
      rw [hslice]
      refine iff_of_false (not_isNext_rotate hadv.lists hcadv hready hlen) fun hu => ?_
      have halone := hu.2
      rw [Unsliced, hc] at halone
      exact absurd (halone hrot.1) (by omega)
    · have hself : processTimeSlicing k.advance = k.advance := by
        refine processTimeSlicing_of_count hcadv fun hs => ?_
        rw [hcount, exceeds_natCast]
        exact fun hlen => hrot ⟨ht.timeSlicingEnabled ▸ hs, hlen⟩
      rw [hself, hiff, Unsliced, hc]
      exact (and_iff_left fun hs => not_lt.1 fun hlen => hrot ⟨hs, hlen⟩).symm

end Kernel

/-! ## The switch of a trap -/

namespace RiscV

open Kernel

variable {k : Kernel} {mcause : BitVec 32} {r : LinkedList TaskId}

/-- After the critical section the timer handler at most notes a switch. -/
theorem timerHandler_frame (k : Kernel) : timerHandler k =
    { (tickSection k).1 with reschedulePending := (timerHandler k).reschedulePending } := by
  simp only [timerHandler, tick]
  split
  · rw [switchContext]
    split
    · rfl
    · split <;> rfl
  · rfl

theorem sameCore_timerHandler (k : Kernel) : SameCore (tickSection k).1 (timerHandler k) := by
  rw [timerHandler_frame]
  exact ⟨rfl, rfl, rfl, rfl, rfl, rfl⟩

theorem timerHandler_inv (h : k.Inv) (hh : k.HarmlessTick) : (timerHandler k).Inv :=
  (sameCore_timerHandler k).inv (h.tickSection hh).1

theorem beforeSwitch_currentTcb (k : Kernel) (mcause : BitVec 32) :
    (beforeSwitch k mcause).currentTcb = k.currentTcb := by
  rw [beforeSwitch]
  split
  · exact (sameCore_timerHandler k).currentTcb.trans (SameAccounts.tickSection k).currentTcb
  · rfl

theorem sameCore_switchContext (inIsr : Bool) (k : Kernel) :
    SameCore k (switchContext inIsr k).1 := by
  rw [switchContext]
  split
  · exact ⟨rfl, rfl, rfl, rfl, rfl, rfl⟩
  · split <;> exact ⟨rfl, rfl, rfl, rfl, rfl, rfl⟩

/-- **A trap keeps the current task exactly if it is undisturbed.** -/
theorem currentTcb_trap_iff (h : k.Inv) (mcause : BitVec 32)
    (htick : mcause = timerCause → k.HarmlessTick) :
    (performSwitch (beforeSwitch k mcause)).currentTcb = k.currentTcb ↔ Undisturbed k mcause := by
  rw [← beforeSwitch_currentTcb k mcause, beforeSwitch, Undisturbed]
  split
  · next ht =>
    have hinv := timerHandler_inv h (htick ht)
    have hsame := sameCore_timerHandler k
    rw [← h.tickSection_isNext_iff (htick ht), hinv.lists.readyInv.performSwitch_currentTcb_iff]
    refine isNext_congr hsame.currentTcb (fun t => by rw [hsame.tcb]) fun p => ?_
    rw [readyNodes, readyNodes, readyQueue, readyQueue, hsame.stateLists]
  · exact h.lists.readyInv.performSwitch_currentTcb_iff

/-- Starting again changes the current task unless it is the one to run. -/
theorem currentTcb_start_iff (h : k.Inv) (tickInit : Status) :
    (Scheduler.start k tickInit).currentTcb = k.currentTcb ↔
      (tickInit = .ok → k.IsNext k.readyNodes) := by
  rw [Scheduler.start]
  split
  · next hok =>
    have hsame : SameCore k { k with isRunning := true } := ⟨rfl, rfl, rfl, rfl, rfl, rfl⟩
    have hcongr : ({ k with isRunning := true } : Kernel).IsNext
        ({ k with isRunning := true } : Kernel).readyNodes ↔ k.IsNext k.readyNodes :=
      isNext_congr rfl (fun _ => rfl) fun _ => rfl
    rw [forall_prop_of_true hok, ← hcongr]
    exact (hsame.inv h).lists.readyInv.performSwitch_currentTcb_iff
  · next hne => exact iff_of_true rfl fun hok => absurd hok hne

end RiscV

end Sertos
