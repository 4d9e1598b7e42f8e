import Sertos.Lib.Trace
import Sertos.RiscV

/-!
# The timer of the RISC-V port

`mtime` and `mtimecmp` are registers of 64 bits that the port reads and writes by the word, while the
clock goes on.  `sertos_port_tick_init` and `sertos_port_riscv_timer_handler` read the time in a
loop, until the upper word is the same before and after the lower one, and write the compare register
in three stores, the first of which moves it out of reach.

A run here is made of single accesses of the two functions, of clock ticks that come between any two
of them, and of timer interrupts.  `Inv` says at each access what the code has read so far: the words
are those of one time (`joined_eq_of_high_eq`), so the number of kernel ticks never runs ahead of the
clock (`riscv_ticks_not_early`).  The loop is repeated once for each carry into the upper word
(`riscv_readLoop_bound`).
-/

set_option autoImplicit false

namespace Sertos

open Lts

namespace RiscVTimer

/-- A machine word. -/
abbrev Word := BitVec 32

/-! ## The registers and the code -/

/-- The two functions that set the compare register. -/
inductive Code
  | tickInit | timerHandler
  deriving DecidableEq, Repr

/-- The next access of the code: the loop that reads the time, the three stores, and what follows
them. -/
inductive Pc
  | idle
  | readHigh
  | readLow (nowH : Word)
  | compare (nowH nowL : Word)
  | writeMax (next : BitVec 64)
  | writeLow (next : BitVec 64)
  | writeHigh (next : BitVec 64)
  | finish
  deriving DecidableEq, Repr

/-- The registers, the code that runs, and the number of calls of `sertos_scheduler_tick`. -/
structure State where
  mtime : ℕ
  mtimecmpH : Word
  mtimecmpL : Word
  mtie : Bool
  tickCycles : Word
  code : Code
  pc : Pc
  ticks : ℕ
  deriving DecidableEq, Repr

/-- The words of a time. -/
def high (t : ℕ) : Word := BitVec.ofNat 32 (t / 2 ^ 32)

def low (t : ℕ) : Word := BitVec.ofNat 32 t

/-- The value of two words. -/
def joined (h l : Word) : BitVec 64 := h.setWidth 64 <<< 32 ||| l.setWidth 64

namespace State

/-- The value of the compare register. -/
def mtimecmp (s : State) : ℕ := (joined s.mtimecmpH s.mtimecmpL).toNat

/-- The timer interrupt is pending. -/
def Pending (s : State) : Prop := s.mtimecmp ≤ s.mtime % 2 ^ 64

instance (s : State) : Decidable s.Pending := inferInstanceAs (Decidable (_ ≤ _))

/-- The next access of the code that runs. -/
def access (s : State) : State :=
  match s.pc with
  | .idle => s
  | .readHigh => { s with pc := .readLow (high s.mtime) }
  | .readLow nowH => { s with pc := .compare nowH (low s.mtime) }
  | .compare nowH nowL =>
    if nowH = high s.mtime then
      { s with pc := .writeMax (joined nowH nowL + s.tickCycles.setWidth 64) }
    else { s with pc := .readHigh }
  | .writeMax next => { s with mtimecmpH := 0xFFFFFFFF, pc := .writeLow next }
  | .writeLow next =>
    { s with mtimecmpL := (next &&& 0xFFFFFFFF).setWidth 32, pc := .writeHigh next }
  | .writeHigh next => { s with mtimecmpH := (next >>> 32).setWidth 32, pc := .finish }
  | .finish =>
    match s.code with
    | .tickInit => { s with mtie := true, pc := .idle }
    | .timerHandler => { s with ticks := s.ticks + 1, pc := .idle }

end State

/-- `sertos_port_tick_init` up to its first access; `timerClockHz` is
`sertos_port_tick_clock_hz()`. -/
def tickInit (timerClockHz tickRateHz : Word) (s : State) : Status × State :=
  if tickRateHz = 0 ∨ timerClockHz < tickRateHz then (.errorInvalidParam, s)
  else (.ok, { s with tickCycles := timerClockHz / tickRateHz, code := .tickInit, pc := .readHigh })

/-! ## Runs -/

/-- The clock advances, the code makes its next access, or the timer interrupt is taken. -/
inductive Event
  | clock (n : ℕ)
  | access
  | interrupt
  deriving DecidableEq, Repr

namespace Event

/-- What can come next.  The handler runs with interrupts off. -/
def Allowed (s : State) : Event → Prop
  | .clock _ => True
  | .access => s.pc ≠ .idle
  | .interrupt => s.pc = .idle ∧ s.mtie = true ∧ s.Pending

instance (s : State) : DecidablePred (Allowed s)
  | .clock _ => .isTrue trivial
  | .access => inferInstanceAs (Decidable (s.pc ≠ .idle))
  | .interrupt => inferInstanceAs (Decidable (_ ∧ _))

/-- The state after a step. -/
def next (s : State) : Event → State
  | .clock n => { s with mtime := s.mtime + n }
  | .access => s.access
  | .interrupt => { s with code := .timerHandler, pc := .readHigh }

end Event

/-- A step of a run. -/
abbrev Step : State → Event → State → Prop := Guarded Event.Allowed Event.next

/-! ## Words -/

section Words

variable {h l : Word} {t t₁ t₂ t₃ : ℕ} {x : BitVec 64}

theorem toNat_joined (h l : Word) : (joined h l).toNat = h.toNat * 2 ^ 32 + l.toNat := by
  have hh := h.isLt
  have hl := l.isLt
  rw [joined, BitVec.toNat_or, BitVec.toNat_shiftLeft, BitVec.toNat_setWidth,
    BitVec.toNat_setWidth, Nat.mod_eq_of_lt (by omega), Nat.mod_eq_of_lt (by omega),
    Nat.shiftLeft_eq, Nat.mod_eq_of_lt (by omega), ← Nat.shiftLeft_eq,
    ← Nat.shiftLeft_add_eq_or_of_lt hl, Nat.shiftLeft_eq]

theorem joined_high_low (ht : t < 2 ^ 64) : (joined (high t) (low t)).toNat = t := by
  rw [toNat_joined, high, low, BitVec.toNat_ofNat, BitVec.toNat_ofNat]
  omega

/-- **The words that the loop leaves with are those of one time**: the upper word did not change
around the access to the lower one. -/
theorem joined_eq_of_high_eq (h₁₂ : t₁ ≤ t₂) (h₂₃ : t₂ ≤ t₃) (ht : t₃ < 2 ^ 64)
    (hhigh : high t₁ = high t₃) : (joined (high t₁) (low t₂)).toNat = t₂ := by
  have hsame : t₁ / 2 ^ 32 = t₃ / 2 ^ 32 := by
    have hnat := congrArg BitVec.toNat hhigh
    rw [high, high, BitVec.toNat_ofNat, BitVec.toNat_ofNat] at hnat
    omega
  have hmid : high t₁ = high t₂ := by
    have hle := Nat.div_le_div_right (c := 2 ^ 32) h₁₂
    have hge := Nat.div_le_div_right (c := 2 ^ 32) h₂₃
    rw [high, high, show t₁ / 2 ^ 32 = t₂ / 2 ^ 32 by omega]
  rw [hmid, joined_high_low (by omega)]

/-- The two words that are stored. -/
theorem joined_stored (x : BitVec 64) :
    joined ((x >>> 32).setWidth 32) ((x &&& 0xFFFFFFFF).setWidth 32) = x := by
  have hlow : (x &&& 0xFFFFFFFF).toNat = x.toNat % 2 ^ 32 := by
    rw [BitVec.toNat_and]
    exact Nat.and_two_pow_sub_one_eq_mod x.toNat 32
  have hx := x.isLt
  refine BitVec.eq_of_toNat_eq ?_
  rw [toNat_joined, BitVec.toNat_setWidth, BitVec.toNat_setWidth, BitVec.toNat_ushiftRight,
    Nat.shiftRight_eq_div_pow, hlow]
  omega

end Words

/-! ## The invariant -/

/-- From here on the counter would reach the value that keeps the interrupt away. -/
def horizon : ℕ := 0xFFFFFFFF * 2 ^ 32

/-- The number of timer interrupts that were taken. -/
def State.taken (s : State) : ℕ :=
  s.ticks + if s.pc ≠ .idle ∧ s.code = .timerHandler then 1 else 0

/-- What the code has read so far, if it began no earlier than at time `since`. -/
def State.Reads (cycles since : ℕ) (s : State) : Prop :=
  match s.pc with
  | .idle => s.mtie = true → since + cycles ≤ s.mtimecmp ∧ s.mtimecmp ≤ s.mtime + cycles
  | .readHigh => True
  | .readLow nowH => ∃ t₁, since ≤ t₁ ∧ t₁ ≤ s.mtime ∧ nowH = high t₁
  | .compare nowH nowL =>
    ∃ t₁ t₂, since ≤ t₁ ∧ t₁ ≤ t₂ ∧ t₂ ≤ s.mtime ∧ nowH = high t₁ ∧ nowL = low t₂
  | .writeMax next | .writeLow next => since + cycles ≤ next.toNat ∧ next.toNat ≤ s.mtime + cycles
  | .writeHigh next =>
    since + cycles ≤ next.toNat ∧ next.toNat ≤ s.mtime + cycles ∧
      s.mtimecmpL = (next &&& 0xFFFFFFFF).setWidth 32
  | .finish => since + cycles ≤ s.mtimecmp ∧ s.mtimecmp ≤ s.mtime + cycles

/-- Since `start` at least `cycles` counts went by for each interrupt that was taken, and the compare
register is set for the next one. -/
structure Inv (cycles start : ℕ) (s : State) : Prop where
  tickCycles : s.tickCycles.toNat = cycles
  taken : start + s.taken * cycles ≤ s.mtime
  reads : s.Reads cycles (start + s.taken * cycles)

section Runs

variable {cycles start since n : ℕ} {s s' : State} {a : Event} {as : List Event}

theorem mtime_access : s.access.mtime = s.mtime := by
  rw [State.access]
  split <;> first | rfl | (split <;> rfl)

theorem mtime_le (h : Step s a s') : s.mtime ≤ s'.mtime := by
  obtain ⟨-, rfl⟩ := h
  cases a with
  | clock n => exact Nat.le_add_right _ _
  | access => exact mtime_access.ge
  | interrupt => exact le_rfl

/-- The clock may go on between any two accesses. -/
theorem State.Reads.clock (h : s.Reads cycles since) :
    State.Reads cycles since { s with mtime := s.mtime + n } := by
  have hle : s.mtime ≤ s.mtime + n := Nat.le_add_right _ _
  rw [Reads] at h
  dsimp only [Reads]
  cases hpc : s.pc with
  | idle =>
    rw [hpc] at h
    exact fun hmtie => ⟨(h hmtie).1, (h hmtie).2.trans (Nat.add_le_add_right hle _)⟩
  | readHigh => trivial
  | readLow nowH =>
    rw [hpc] at h
    obtain ⟨t₁, hsince, ht₁, hhigh⟩ := h
    exact ⟨t₁, hsince, ht₁.trans hle, hhigh⟩
  | compare nowH nowL =>
    rw [hpc] at h
    obtain ⟨t₁, t₂, hsince, h₁₂, ht₂, hwords⟩ := h
    exact ⟨t₁, t₂, hsince, h₁₂, ht₂.trans hle, hwords⟩
  | writeMax next =>
    rw [hpc] at h
    exact ⟨h.1, h.2.trans (Nat.add_le_add_right hle _)⟩
  | writeLow next =>
    rw [hpc] at h
    exact ⟨h.1, h.2.trans (Nat.add_le_add_right hle _)⟩
  | writeHigh next =>
    rw [hpc] at h
    exact ⟨h.1, h.2.1.trans (Nat.add_le_add_right hle _), h.2.2⟩
  | finish =>
    rw [hpc] at h
    exact ⟨h.1, h.2.trans (Nat.add_le_add_right hle _)⟩

/-- What an access adds to what was read before. -/
theorem State.Reads.access (h : s.Reads cycles since) (hcycles : s.tickCycles.toNat = cycles)
    (hsince : since ≤ s.mtime) (hlate : s.mtime + cycles < horizon) :
    s.access.Reads cycles since := by
  rw [Reads] at h
  rw [State.access]
  cases hpc : s.pc with
  | idle =>
    rw [hpc] at h
    simpa only [Reads, hpc] using h
  | readHigh => exact ⟨s.mtime, hsince, le_rfl, rfl⟩
  | readLow nowH =>
    rw [hpc] at h
    obtain ⟨t₁, hsince, ht₁, rfl⟩ := h
    exact ⟨t₁, s.mtime, hsince, ht₁, le_rfl, rfl, rfl⟩
  | compare nowH nowL =>
    rw [hpc] at h
    obtain ⟨t₁, t₂, hsince, h₁₂, ht₂, rfl, rfl⟩ := h
    by_cases hhigh : high t₁ = high s.mtime
    · rw [horizon] at hlate
      have hnext : (joined (high t₁) (low t₂) + s.tickCycles.setWidth 64).toNat = t₂ + cycles := by
        rw [BitVec.toNat_add, joined_eq_of_high_eq h₁₂ ht₂ (by omega) hhigh,
          BitVec.toNat_setWidth, hcycles]
        omega
      simp only [if_pos hhigh, Reads, hnext]
      omega
    · simp only [if_neg hhigh, Reads]
  | writeMax next =>
    rw [hpc] at h
    exact h
  | writeLow next =>
    rw [hpc] at h
    exact ⟨h.1, h.2, rfl⟩
  | writeHigh next =>
    rw [hpc] at h
    obtain ⟨hlow, hhigh, hstored⟩ := h
    have hcmp : joined ((next >>> 32).setWidth 32) s.mtimecmpL = next := by
      rw [hstored, joined_stored]
    simp only [Reads, mtimecmp, hcmp]
    exact ⟨hlow, hhigh⟩
  | finish =>
    rw [hpc] at h
    cases s.code with
    | tickInit => exact fun _ => h
    | timerHandler => exact fun _ => h

/-- The interrupt that the handler was called for is counted by its tick in the end. -/
theorem taken_access (h : s.pc ≠ .idle) : s.access.taken = s.taken := by
  rw [State.access]
  cases hpc : s.pc with
  | idle => exact absurd hpc h
  | compare nowH nowL => by_cases hhigh : nowH = high s.mtime <;> simp [State.taken, hpc, hhigh]
  | finish => cases hcode : s.code <;> simp [State.taken, hpc, hcode]
  | readHigh => simp [State.taken, hpc]
  | readLow nowH => simp [State.taken, hpc]
  | writeMax next => simp [State.taken, hpc]
  | writeLow next => simp [State.taken, hpc]
  | writeHigh next => simp [State.taken, hpc]

theorem tickCycles_access : s.access.tickCycles = s.tickCycles := by
  rw [State.access]
  split <;> first | rfl | (split <;> rfl)

/-- **What a step preserves.** -/
theorem Inv.step (hs : Inv cycles start s) (h : Step s a s') (hlate : s'.mtime + cycles < horizon) :
    Inv cycles start s' := by
  obtain ⟨hallowed, rfl⟩ := h
  cases a with
  | clock n => exact ⟨hs.tickCycles, hs.taken.trans (Nat.le_add_right _ _), hs.reads.clock⟩
  | access =>
    have hlate : s.mtime + cycles < horizon := mtime_access (s := s) ▸ hlate
    have htaken := taken_access hallowed
    refine ⟨(congrArg BitVec.toNat tickCycles_access).trans hs.tickCycles, ?_, ?_⟩
    · exact (htaken ▸ hs.taken).trans mtime_access.ge
    · exact htaken.symm ▸ hs.reads.access hs.tickCycles hs.taken hlate
  | interrupt =>
    obtain ⟨hpc, hmtie, hpending⟩ := hallowed
    have hreads := hs.reads
    rw [State.Reads, hpc] at hreads
    have hdue := (hreads hmtie).1.trans (hpending.trans (Nat.mod_le _ _))
    have htaken : s.taken = s.ticks := by simp [State.taken, hpc]
    refine ⟨hs.tickCycles, ?_, trivial⟩
    simp only [Event.next, State.taken, ne_eq, reduceCtorEq, not_false_eq_true, and_self, if_true]
    rw [htaken] at hdue
    rw [Nat.succ_mul]
    omega

theorem Inv.run (hs : Inv cycles start s) (h : Trace Step s as s')
    (hlate : s'.mtime + cycles < horizon) : Inv cycles start s' := by
  refine h.invariant (I := fun s => s.mtime + cycles < horizon → Inv cycles start s) ?_
    (fun _ => hs) hlate
  intro s a s' hs hstep hlate
  exact (hs ((Nat.add_le_add_right (mtime_le hstep) _).trans_lt hlate)).step hstep hlate

end Runs

/-! ## The loop -/

/-- The code is in the loop that reads the time. -/
def State.Looping (s : State) : Prop :=
  match s.pc with
  | .readHigh | .readLow _ | .compare _ _ => True
  | _ => False

instance (s : State) : Decidable s.Looping := by
  rw [State.Looping]
  cases s.pc <;> infer_instance

/-- After `n` accesses in the loop, which began when the upper word was `first`: each round but the
last one was followed by a carry. -/
def State.Turns (first n : ℕ) (s : State) : Prop :=
  match s.pc with
  | .readHigh => n + 3 * first ≤ 3 * (s.mtime / 2 ^ 32)
  | .readLow nowH =>
    ∃ t₁ ≤ s.mtime, nowH = high t₁ ∧ n + 3 * first ≤ 3 * (t₁ / 2 ^ 32) + 1
  | .compare nowH _ =>
    ∃ t₁ ≤ s.mtime, nowH = high t₁ ∧ n + 3 * first ≤ 3 * (t₁ / 2 ^ 32) + 2
  | _ => True

section Loop

variable {first n : ℕ} {s s' : State} {a : Event} {as : List Event}

theorem State.Turns.clock {k : ℕ} (h : s.Turns first n) :
    State.Turns first n { s with mtime := s.mtime + k } := by
  have hle : s.mtime ≤ s.mtime + k := Nat.le_add_right _ _
  rw [Turns] at h
  dsimp only [Turns]
  cases hpc : s.pc with
  | readHigh =>
    rw [hpc] at h
    exact h.trans (Nat.mul_le_mul_left 3 (Nat.div_le_div_right hle))
  | readLow nowH =>
    rw [hpc] at h
    obtain ⟨t₁, ht₁, hturns⟩ := h
    exact ⟨t₁, ht₁.trans hle, hturns⟩
  | compare nowH nowL =>
    rw [hpc] at h
    obtain ⟨t₁, ht₁, hturns⟩ := h
    exact ⟨t₁, ht₁.trans hle, hturns⟩
  | idle => trivial
  | writeMax next => trivial
  | writeLow next => trivial
  | writeHigh next => trivial
  | finish => trivial

/-- A round that is repeated saw the upper word change. -/
theorem State.Turns.access (h : s.Turns first n) (hidle : s.pc ≠ .idle) :
    s.access.Turns first (n + 1) := by
  rw [Turns] at h
  rw [State.access]
  cases hpc : s.pc with
  | idle => exact absurd hpc hidle
  | readHigh =>
    rw [hpc] at h
    exact ⟨s.mtime, le_rfl, rfl, by omega⟩
  | readLow nowH =>
    rw [hpc] at h
    obtain ⟨t₁, ht₁, hhigh, hturns⟩ := h
    exact ⟨t₁, ht₁, hhigh, by omega⟩
  | compare nowH nowL =>
    rw [hpc] at h
    obtain ⟨t₁, ht₁, rfl, hturns⟩ := h
    by_cases hhigh : high t₁ = high s.mtime
    · simp only [if_pos hhigh, Turns]
    · have hcarry : t₁ / 2 ^ 32 ≠ s.mtime / 2 ^ 32 := fun e => hhigh (by rw [high, high, e])
      have hle := Nat.div_le_div_right (c := 2 ^ 32) ht₁
      simp only [if_neg hhigh, Turns]
      omega
  | writeMax next => trivial
  | writeLow next => trivial
  | writeHigh next => trivial
  | finish => cases hcode : s.code <;> trivial

theorem State.Turns.run (h : s.Turns first n) (hrun : Trace Step s as s')
    (has : .interrupt ∉ as) : s'.Turns first (n + as.count .access) := by
  induction hrun generalizing n with
  | nil _ => exact h
  | @cons s t u a as hstep _ ih =>
    rw [List.mem_cons, not_or] at has
    obtain ⟨hidle, rfl⟩ := hstep
    cases a with
    | clock k => simpa using ih h.clock has.2
    | access =>
      have hrest := ih (h.access hidle) has.2
      rw [List.count_cons_self]
      rwa [Nat.add_assoc, Nat.add_comm 1] at hrest
    | interrupt => exact absurd rfl has.1

end Loop

end RiscVTimer

open RiscVTimer

/-- **The tick count never runs ahead of the clock.**  Wherever the clock advances between two
accesses of the port, the kernel has had at most one tick for each `timer_clock_hz / tick_rate_hz`
counts since the initialisation; and when no handler runs, the next interrupt is pending at most so
many counts from now.  The clock stays below the value that the first store puts into the compare
register. -/
theorem riscv_ticks_not_early {timerClockHz tickRateHz : Word} {s₀ s₁ s : State} {as : List Event}
    (hinit : tickInit timerClockHz tickRateHz s₀ = (.ok, s₁)) (hticks : s₀.ticks = 0)
    (hrun : Trace Step s₁ as s)
    (hlate : s.mtime + (timerClockHz / tickRateHz).toNat < horizon) :
    0 < (timerClockHz / tickRateHz).toNat ∧
      s₀.mtime + s.ticks * (timerClockHz / tickRateHz).toNat ≤ s.mtime ∧
      (s.pc = .idle → s.mtie = true →
        s.mtimecmp ≤ s.mtime + (timerClockHz / tickRateHz).toNat) := by
  rw [tickInit] at hinit
  split at hinit
  · exact absurd hinit (by simp)
  · rename_i hvalid
    rw [not_or, BitVec.not_lt] at hvalid
    obtain rfl := (Prod.mk.inj hinit).2
    have hstart : Inv (timerClockHz / tickRateHz).toNat s₀.mtime
        { s₀ with tickCycles := timerClockHz / tickRateHz, code := .tickInit, pc := .readHigh } :=
      ⟨rfl, by simp [State.taken, hticks], trivial⟩
    have hinv := hstart.run hrun hlate
    refine ⟨?_, ?_, fun hpc hmtie => ?_⟩
    · rw [BitVec.toNat_udiv]
      exact Nat.div_pos hvalid.2 (Nat.pos_of_ne_zero fun h => hvalid.1 (BitVec.eq_of_toNat_eq h))
    · have hle : s.ticks ≤ s.taken := Nat.le_add_right _ _
      exact (Nat.add_le_add_left (Nat.mul_le_mul_right _ hle) _).trans hinv.taken
    · have hreads := hinv.reads
      rw [State.Reads, hpc] at hreads
      exact (hreads hmtie).2

/-- **The loop that reads the time ends.**  While the code is still in it, it has made at most two
accesses more than three for each carry into the upper word; in particular it makes at most five in
any 2³² counts. -/
theorem riscv_readLoop_bound {s s' : State} {as : List Event} (hpc : s.pc = .readHigh)
    (hrun : Trace Step s as s') (has : .interrupt ∉ as) (hloop : s'.Looping) :
    as.count .access + 3 * (s.mtime / 2 ^ 32) ≤ 3 * (s'.mtime / 2 ^ 32) + 2 := by
  have hstart : s.Turns (s.mtime / 2 ^ 32) 0 := by
    rw [State.Turns, hpc]
    show 0 + _ ≤ _
    omega
  have hturns := hstart.run hrun has
  rw [State.Turns] at hturns
  rw [State.Looping] at hloop
  cases hpc' : s'.pc with
  | readHigh =>
    rw [hpc'] at hturns
    simp only at hturns
    omega
  | readLow nowH =>
    rw [hpc'] at hturns
    obtain ⟨t₁, ht₁, -, hcount⟩ := hturns
    have hle := Nat.div_le_div_right (c := 2 ^ 32) ht₁
    omega
  | compare nowH nowL =>
    rw [hpc'] at hturns
    obtain ⟨t₁, ht₁, -, hcount⟩ := hturns
    have hle := Nat.div_le_div_right (c := 2 ^ 32) ht₁
    omega
  | idle => rw [hpc'] at hloop; exact hloop.elim
  | writeMax next => rw [hpc'] at hloop; exact hloop.elim
  | writeLow next => rw [hpc'] at hloop; exact hloop.elim
  | writeHigh next => rw [hpc'] at hloop; exact hloop.elim
  | finish => rw [hpc'] at hloop; exact hloop.elim

namespace RiscVTimer

/-- The clock is about to carry into the upper word. -/
def carryState : State := ⟨0xFFFFFFFE, 0, 0, false, 0, .tickInit, .idle, 0⟩

def carryStart : State := (tickInit 10 2 carryState).2

/-- The carry comes between the accesses to the two words, so the loop is repeated; two interrupts
are taken later. -/
def carryEvents : List Event :=
  [.access, .clock 2] ++ List.replicate 9 .access ++ [.clock 5, .interrupt] ++
    List.replicate 7 .access ++ [.clock 6, .interrupt] ++ List.replicate 7 .access

theorem carry_run : Trace Step carryStart carryEvents (carryEvents.foldl Event.next carryStart) :=
  .of_guards (by decide)

end RiscVTimer

theorem riscv_ticks_not_early_carry :
    (carryEvents.foldl Event.next carryStart).ticks = 2 ∧
      0xFFFFFFFE + 2 * 5 ≤ (carryEvents.foldl Event.next carryStart).mtime := by
  have hnot := @riscv_ticks_not_early 10 2 carryState carryStart _ carryEvents rfl rfl carry_run
    (by decide)
  exact ⟨by decide, hnot.2.1⟩

theorem riscv_readLoop_bound_carry :
    [Event.access, .clock 2, .access, .access].count .access + 3 * (0xFFFFFFFE / 2 ^ 32) ≤
      3 * (0x100000000 / 2 ^ 32) + 2 :=
  @riscv_readLoop_bound carryStart _ [.access, .clock 2, .access, .access] rfl
    (.of_guards (by decide)) (by decide) (by decide)

end Sertos
