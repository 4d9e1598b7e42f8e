import Mathlib.Algebra.Group.Nat.Defs
import Mathlib.Logic.Function.Basic
import Sertos.Lib.Trace

/-!
# Critical sections are not interrupted

`sertos_port_enter_critical` and `sertos_port_exit_critical` on the Cortex-M and RISC-V ports, with
an interrupt possible between any two instructions.  The first masks the interrupts, counts in
`s_critical_nesting` and returns the mask it found; the second is given that value back and restores
it when the count reaches zero.  On a Cortex-M the mask is read and set by two instructions.

The processor goes from one context to another, a task or an activation of a handler, only while the
interrupts are not masked, at the end of a trap handler, which runs masked on RISC-V, or by the
`ecall` of `sertos_port_yield` there, which no mask holds up and which the kernel executes in no
section.  `Inv` says what the mask and the count are at each instruction, so that no context is left
or entered while another one is in a critical section (`critical_sections_atomic`).  This is what
allows a critical section to be taken as one step everywhere else.

The count is a `uint32_t`, which `2 ^ 32` sections inside one another would wrap to zero, so the
runs are those with fewer open sections.
-/

set_option autoImplicit false

namespace Sertos

open Lts

namespace CriticalNesting

/-- The way the mask is read and set. -/
inductive Arch
  /-- `mrs` and `cpsid`. -/
  | cortexM
  /-- `csrrci`. -/
  | riscV
deriving DecidableEq, Repr

/-- Where a context is. -/
inductive Pc
  /-- In neither function. -/
  | code
  /-- Behind `mrs`. -/
  | readMask (prev : Bool)
  /-- Behind the instruction that masks, before the count. -/
  | masked (prev : Bool)
  /-- Behind the count that has reached zero, before the mask is restored. -/
  | restore (status : Bool)
deriving DecidableEq, Repr

/-- A context: where it is, and the values that the sections it is in were entered with, the
innermost first. -/
structure Context where
  pc : Pc
  saved : List Bool
deriving DecidableEq, Repr

variable {ι : Type}

/-- The processor and the contexts. -/
structure State (ι : Type) where
  /-- `PRIMASK`, or the complement of `mstatus.MIE`. -/
  mask : Bool
  /-- A `uint32_t`. -/
  criticalNesting : ℕ
  current : ι
  context : ι → Context

/-- A context is in a critical section between the two counts. -/
def State.Inside (s : State ι) (i : ι) : Prop := (s.context i).saved ≠ []

instance (s : State ι) (i : ι) : Decidable (s.Inside i) := inferInstanceAs (Decidable (_ ≠ _))

section Functions

variable [DecidableEq ι]

/-- The current context goes on at `pc`. -/
def State.goto (s : State ι) (pc : Pc) : State ι :=
  let c := s.context s.current
  { s with context := Function.update s.context s.current ⟨pc, c.saved⟩ }

/-- The values the current context has to give back. -/
def State.setSaved (s : State ι) (saved : List Bool) : State ι :=
  let c := s.context s.current
  { s with context := Function.update s.context s.current ⟨c.pc, saved⟩ }

@[simp] theorem State.goto_context (s : State ι) (pc : Pc) :
    (s.goto pc).context s.current = ⟨pc, (s.context s.current).saved⟩ := by
  simp [State.goto]

@[simp] theorem State.setSaved_context (s : State ι) (saved : List Bool) :
    (s.setSaved saved).context s.current = ⟨(s.context s.current).pc, saved⟩ := by
  simp [State.setSaved]

theorem State.goto_context_ne (s : State ι) (pc : Pc) {i : ι} (hi : i ≠ s.current) :
    (s.goto pc).context i = s.context i := by
  simp [State.goto, hi]

@[simp] theorem State.setSaved_current (s : State ι) (saved : List Bool) :
    (s.setSaved saved).current = s.current := rfl

@[simp] theorem State.setSaved_criticalNesting (s : State ι) (saved : List Bool) :
    (s.setSaved saved).criticalNesting = s.criticalNesting := rfl

/-- The first instruction of `sertos_port_enter_critical`. -/
def enterCritical (arch : Arch) (s : State ι) : State ι :=
  match arch with
  | .cortexM => s.goto (.readMask s.mask)
  | .riscV => { s.goto (.masked s.mask) with mask := true }

/-- `sertos_port_exit_critical`, with the value that the innermost section was entered with, up to
the write of the mask. -/
def exitCritical (s : State ι) : State ι :=
  match (s.context s.current).saved with
  | [] => s
  | status :: rest =>
    let s := s.setSaved rest
    if 0 < s.criticalNesting then
      let s := { s with criticalNesting := s.criticalNesting - 1 }
      if s.criticalNesting = 0 then s.goto (.restore status) else s
    else s

/-- The next instruction of the function that the current context is in. -/
def advance (s : State ι) : State ι :=
  match (s.context s.current).pc with
  | .code => s
  | .readMask prev => { s.goto (.masked prev) with mask := true }
  | .masked prev =>
    let s := { s with criticalNesting := (s.criticalNesting + 1) % 2 ^ 32 }
    (s.setSaved (prev :: (s.context s.current).saved)).goto .code
  | .restore status => { s.goto .code with mask := status }

/-- A function of the current context leaves the other contexts alone. -/
def Frame (s s' : State ι) : Prop :=
  s'.current = s.current ∧ ∀ i, i ≠ s.current → s'.context i = s.context i

theorem enterCritical_frame (arch : Arch) (s : State ι) : Frame s (enterCritical arch s) := by
  cases arch with
  | cortexM => exact ⟨rfl, fun i hi => State.goto_context_ne s _ hi⟩
  | riscV => exact ⟨rfl, fun i hi => State.goto_context_ne s (.masked s.mask) hi⟩

theorem exitCritical_frame (s : State ι) : Frame s (exitCritical s) := by
  unfold exitCritical
  split
  · exact ⟨rfl, fun _ _ => rfl⟩
  · refine ⟨by dsimp only; split_ifs <;> rfl, fun i hi => ?_⟩
    dsimp only
    split_ifs <;> simp [State.goto, State.setSaved, hi]

theorem advance_frame (s : State ι) : Frame s (advance s) := by
  unfold advance
  split
  · exact ⟨rfl, fun _ _ => rfl⟩
  · exact ⟨rfl, fun i hi => State.goto_context_ne s _ hi⟩
  · exact ⟨rfl, fun i hi => by simp [State.goto, State.setSaved, hi]⟩
  · exact ⟨rfl, fun i hi => State.goto_context_ne s _ hi⟩

end Functions

/-! ## Runs -/

/-- One instruction of the current context, or a change of contexts: by an interrupt or at the end
of a handler, or by an `ecall` of the current context. -/
inductive Event (ι : Type)
  | enter
  | exit
  | advance
  | switch (next : ι)
  | ecall (next : ι)
deriving DecidableEq, Repr

/-- How the contexts run when they are in no section: `base i` is the mask of `i`. -/
abbrev Bases (ι : Type) := ι → Bool

namespace Event

variable [DecidableEq ι] (arch : Arch) (base : Bases ι)

/-- The state change of a step. -/
def run (s : State ι) : Event ι → State ι
  | .enter => enterCritical arch s
  | .exit => exitCritical s
  | .advance => CriticalNesting.advance s
  | .switch next | .ecall next => { s with current := next, mask := base next }

/-- The two functions are called in pairs, with fewer than `2 ^ 32` sections open.  The processor
changes contexts while the interrupts are not masked, when a handler that runs masked has returned
from what it called, and on RISC-V by an `ecall`, which is executed outside the sections. -/
def Allowed (s : State ι) : Event ι → Prop
  | .enter => (s.context s.current).pc = .code
  | .exit => (s.context s.current).pc = .code ∧ s.Inside s.current
  | .advance => (s.context s.current).pc ≠ .code ∧
    (s.context s.current).saved.length + 1 < 2 ^ 32
  | .switch _ => s.mask = false ∨
    base s.current = true ∧ (s.context s.current).pc = .code ∧ ¬ s.Inside s.current
  | .ecall _ => arch = .riscV ∧ (s.context s.current).pc = .code ∧ ¬ s.Inside s.current

instance (s : State ι) : DecidablePred (Allowed arch base s)
  | .enter => inferInstanceAs (Decidable ((s.context s.current).pc = .code))
  | .exit => inferInstanceAs (Decidable ((s.context s.current).pc = .code ∧ s.Inside s.current))
  | .advance => inferInstanceAs (Decidable ((s.context s.current).pc ≠ .code ∧
    (s.context s.current).saved.length + 1 < 2 ^ 32))
  | .switch _ => inferInstanceAs (Decidable (s.mask = false ∨
    base s.current = true ∧ (s.context s.current).pc = .code ∧ ¬ s.Inside s.current))
  | .ecall _ => inferInstanceAs (Decidable (arch = .riscV ∧
    (s.context s.current).pc = .code ∧ ¬ s.Inside s.current))

/-- One step of a run. -/
abbrev Step : State ι → Event ι → State ι → Prop := Guarded (Allowed arch base) (run arch base)

end Event

/-- No context is in a section, and the first one runs with its mask. -/
def State.init (base : Bases ι) (first : ι) : State ι :=
  ⟨base first, 0, first, fun _ => ⟨.code, []⟩⟩

/-! ## The invariant -/

/-- The values of the sections a context is in: it was not masked more than its base when it entered
the outermost one. -/
def Nested (base : Bool) : List Bool → Prop
  | [] => True
  | [status] => status = base
  | status :: rest => status = true ∧ Nested base rest

/-- The mask outside the two functions. -/
def maskOf (base : Bool) : List Bool → Bool
  | [] => base
  | _ => true

theorem nested_cons {base : Bool} {saved : List Bool} (h : Nested base saved) :
    Nested base (maskOf base saved :: saved) := by
  cases saved with
  | nil => rfl
  | cons status rest => exact ⟨rfl, h⟩

theorem nested_of_cons {base status : Bool} {rest : List Bool} (h : Nested base (status :: rest)) :
    Nested base rest ∧ (rest = [] → status = base) := by
  cases rest with
  | nil => exact ⟨trivial, fun _ => h⟩
  | cons status' rest => exact ⟨h.2, fun e => absurd e (by simp)⟩

/-- What the mask is at each instruction of the current context. -/
def MaskOk (base mask : Bool) (c : Context) : Prop :=
  match c.pc with
  | .code => mask = maskOf base c.saved
  | .readMask prev => mask = maskOf base c.saved ∧ prev = mask
  | .masked prev => mask = true ∧ prev = maskOf base c.saved
  | .restore status => mask = true ∧ c.saved = [] ∧ status = base

/-- What holds between the instructions. -/
structure Inv (base : Bases ι) (s : State ι) : Prop where
  nested : Nested (base s.current) (s.context s.current).saved
  nesting : s.criticalNesting = (s.context s.current).saved.length
  mask : MaskOk (base s.current) s.mask (s.context s.current)
  /-- The others are in no section, at most about to mask the interrupts. -/
  others : ∀ i, i ≠ s.current → (s.context i).saved = [] ∧
    ((s.context i).pc = .code ∨ (s.context i).pc = .readMask (base i))

namespace Inv

variable {base : Bases ι} {s : State ι}

theorem init (base : Bases ι) (first : ι) : Inv base (State.init base first) :=
  ⟨trivial, rfl, rfl, fun _ _ => ⟨rfl, .inl rfl⟩⟩

/-- While the interrupts are not masked, the current context is in no section either. -/
theorem outside_of_unmasked (h : Inv base s) (hmask : s.mask = false) :
    (s.context s.current).saved = [] ∧
      ((s.context s.current).pc = .code ∨ (s.context s.current).pc = .readMask (base s.current)) := by
  have hok := h.mask
  rw [MaskOk, hmask] at hok
  cases hpc : (s.context s.current).pc with
  | code =>
    rw [hpc] at hok
    cases hsaved : (s.context s.current).saved with
    | nil => exact ⟨rfl, .inl rfl⟩
    | cons status rest =>
      rw [hsaved] at hok
      exact absurd hok (by simp [maskOf])
  | readMask prev =>
    rw [hpc] at hok
    cases hsaved : (s.context s.current).saved with
    | nil =>
      rw [hsaved] at hok
      refine ⟨rfl, .inr ?_⟩
      rw [hok.2, hok.1]
      rfl
    | cons status rest =>
      rw [hsaved] at hok
      exact absurd hok.1 (by simp [maskOf])
  | masked prev =>
    rw [hpc] at hok
    exact absurd hok.1 (by simp)
  | restore status =>
    rw [hpc] at hok
    exact absurd hok.1 (by simp)

/-- Nobody is in a section when the processor changes contexts. -/
theorem outside_of_switch (h : Inv base s) {arch : Arch} {next : ι}
    (hs : Event.Allowed arch base s (.switch next)) :
    (s.context s.current).saved = [] ∧
      ((s.context s.current).pc = .code ∨ (s.context s.current).pc = .readMask (base s.current)) := by
  rcases hs with hmask | ⟨-, hpc, hout⟩
  · exact h.outside_of_unmasked hmask
  · exact ⟨not_not.1 hout, .inl hpc⟩

/-- What is left to show of a function of the current context. -/
theorem of_frame {s' : State ι} {c : Context} (h : Inv base s) (hframe : Frame s s')
    (hctx : s'.context s.current = c) (hnested : Nested (base s.current) c.saved)
    (hnesting : s'.criticalNesting = c.saved.length)
    (hmask : MaskOk (base s.current) s'.mask c) : Inv base s' := by
  subst hctx
  obtain ⟨hcur, hctx⟩ := hframe
  refine ⟨by rwa [hcur], by rwa [hcur], by rwa [hcur], fun i hi => ?_⟩
  rw [hcur] at hi
  rw [hctx i hi]
  exact h.others i hi

/-- A context that is left is not in a section, and the one that is gone on with was not either. -/
theorem switch (h : Inv base s) (hleft : (s.context s.current).saved = [] ∧
    ((s.context s.current).pc = .code ∨ (s.context s.current).pc = .readMask (base s.current)))
    (next : ι) : Inv base { s with current := next, mask := base next } := by
  have hall : ∀ i, (s.context i).saved = [] ∧
      ((s.context i).pc = .code ∨ (s.context i).pc = .readMask (base i)) := by
    intro i
    rcases eq_or_ne i s.current with rfl | hi
    · exact hleft
    · exact h.others i hi
  have hzero : s.criticalNesting = 0 := by simpa [hleft.1] using h.nesting
  obtain ⟨hsaved, hpc⟩ := hall next
  refine ⟨by simp [hsaved, Nested], by simp [hsaved, hzero], ?_, fun i _ => hall i⟩
  rcases hpc with hpc | hpc
  · simp [MaskOk, hpc, hsaved, maskOf]
  · simp [MaskOk, hpc, hsaved, maskOf]

variable [DecidableEq ι] {arch : Arch}

/-- `sertos_port_enter_critical` first reads the mask, at least. -/
theorem enter (h : Inv base s) (hcode : (s.context s.current).pc = .code) :
    Inv base (enterCritical arch s) := by
  have hok := h.mask
  rw [MaskOk, hcode] at hok
  cases arch with
  | cortexM =>
    exact h.of_frame (enterCritical_frame .cortexM s) (State.goto_context s (.readMask s.mask))
      h.nested h.nesting ⟨hok, rfl⟩
  | riscV =>
    exact h.of_frame (enterCritical_frame .riscV s) (State.goto_context s (.masked s.mask))
      h.nested h.nesting ⟨rfl, hok⟩

/-- The count is not zero in a section, so `sertos_port_exit_critical` takes one off, and it goes on
to the mask exactly when it leaves the outermost section. -/
theorem exit (h : Inv base s) (hcode : (s.context s.current).pc = .code)
    (hin : s.Inside s.current) : Inv base (exitCritical s) := by
  have hok := h.mask
  have hnesting := h.nesting
  have hnested := h.nested
  rw [MaskOk, hcode] at hok
  rw [State.Inside] at hin
  cases hsaved : (s.context s.current).saved with
  | nil => exact absurd hsaved hin
  | cons status rest =>
    rw [hsaved] at hok hnesting hnested
    have hmask : s.mask = true := hok
    obtain ⟨hrest, hbase⟩ := nested_of_cons hnested
    have hcount : s.criticalNesting - 1 = rest.length := by simp [hnesting]
    have hpos : 0 < s.criticalNesting := by simp [hnesting]
    have hframe := exitCritical_frame s
    cases rest with
    | nil =>
      have hexit : exitCritical s =
          { (s.setSaved []).goto (.restore status) with criticalNesting := 0 } := by
        simp [exitCritical, State.goto, hsaved, hpos, hcount]
      rw [hexit] at hframe ⊢
      have hctx := State.goto_context (s.setSaved []) (.restore status)
      simp only [State.setSaved_current, State.setSaved_context] at hctx
      exact h.of_frame hframe hctx hrest rfl ⟨hmask, rfl, hbase rfl⟩
    | cons status' rest =>
      have hexit : exitCritical s =
          { s.setSaved (status' :: rest) with criticalNesting := rest.length + 1 } := by
        simp [exitCritical, hsaved, hpos, hcount]
      rw [hexit] at hframe ⊢
      have hctx := State.setSaved_context s (status' :: rest)
      rw [hcode] at hctx
      exact h.of_frame hframe hctx hrest rfl hmask

/-- The instructions inside the two functions. -/
theorem advance (h : Inv base s) (hcode : (s.context s.current).pc ≠ .code)
    (hdepth : (s.context s.current).saved.length + 1 < 2 ^ 32) :
    Inv base (CriticalNesting.advance s) := by
  have hok := h.mask
  have hframe := advance_frame s
  rw [MaskOk] at hok
  rw [CriticalNesting.advance] at hframe ⊢
  cases hpc : (s.context s.current).pc with
  | code => exact absurd hpc hcode
  | readMask prev =>
    rw [hpc] at hok hframe
    obtain ⟨hmask, rfl⟩ := hok
    exact h.of_frame hframe (State.goto_context s (.masked s.mask)) h.nested h.nesting ⟨rfl, hmask⟩
  | masked prev =>
    rw [hpc] at hok hframe
    obtain ⟨hmask, rfl⟩ := hok
    have hctx : (CriticalNesting.advance s).context s.current =
        ⟨.code, maskOf (base s.current) (s.context s.current).saved ::
          (s.context s.current).saved⟩ := by
      simp [CriticalNesting.advance, hpc, State.goto, State.setSaved]
    rw [CriticalNesting.advance, hpc] at hctx
    refine h.of_frame hframe hctx (nested_cons h.nested) ?_ hmask
    have hcount : (s.criticalNesting + 1) % 2 ^ 32 = s.criticalNesting + 1 := by
      rw [h.nesting]
      exact Nat.mod_eq_of_lt hdepth
    rw [List.length_cons, ← h.nesting]
    exact hcount
  | restore status =>
    rw [hpc] at hok hframe
    obtain ⟨-, hsaved, rfl⟩ := hok
    have hmask : base s.current = maskOf (base s.current) (s.context s.current).saved := by
      rw [hsaved]
      rfl
    exact h.of_frame hframe (State.goto_context s .code) h.nested h.nesting hmask

theorem step {s' : State ι} {e : Event ι} (h : Inv base s) (hs : Event.Step arch base s e s') :
    Inv base s' := by
  obtain ⟨hs, rfl⟩ := hs
  cases e with
  | enter => exact h.enter hs
  | exit => exact h.exit hs.1 hs.2
  | advance => exact h.advance hs.1 hs.2
  | switch next => exact h.switch (h.outside_of_switch hs) next
  | ecall next => exact h.switch ⟨not_not.1 hs.2.2, .inl hs.2.1⟩ next

end Inv

/-! ## Results -/

/-- **Critical sections are not interrupted.**  In every run of the two functions, instruction by
instruction, with any number of tasks and handlers, fewer than `2 ^ 32` open sections and no `ecall`
in a section: a context that is in a critical section is the
one that runs, with the interrupts masked, and `s_critical_nesting` is the number of its open
sections; no change of contexts is possible in such a state; and a context that is in no section,
and in neither function, runs with the mask it has outside them. -/
theorem critical_sections_atomic [DecidableEq ι] (arch : Arch) (base : Bases ι) (first : ι)
    {es : List (Event ι)} {s : State ι}
    (h : Trace (Event.Step arch base) (State.init base first) es s) :
    (∀ i, s.Inside i → i = s.current ∧ s.mask = true ∧
        s.criticalNesting = (s.context i).saved.length ∧
        ∀ next, ¬ Event.Allowed arch base s (.switch next)) ∧
      ((s.context s.current).pc = .code → ¬ s.Inside s.current →
        s.mask = base s.current ∧ s.criticalNesting = 0) := by
  have hinv : Inv base s := h.invariant (fun _ _ _ hI hs => hI.step hs) (Inv.init base first)
  refine ⟨fun i hi => ?_, fun hcode hout => ?_⟩
  · have hcur : i = s.current := by
      by_contra hne
      exact hi (hinv.others i hne).1
    subst hcur
    have hmask : s.mask = true := by
      by_contra hmask
      exact hi (hinv.outside_of_unmasked (by simpa using hmask)).1
    exact ⟨rfl, hmask, hinv.nesting, fun next hs => hi (hinv.outside_of_switch hs).1⟩
  · have hsaved : (s.context s.current).saved = [] := not_not.1 hout
    have hok := hinv.mask
    rw [MaskOk, hcode, hsaved] at hok
    refine ⟨hok, ?_⟩
    rw [hinv.nesting, hsaved]
    rfl

/-- An interrupt between `mrs` and `cpsid`, whose handler has a critical section of its own; the
task then opens one section in another. -/
def maskedLate : List (Event Bool) :=
  [.enter, .switch true, .enter, .advance, .advance, .exit, .advance, .switch false, .advance,
    .advance, .enter, .advance, .advance]

theorem critical_sections_atomic_maskedLate :
    ∃ s, Trace (Event.Step .cortexM fun _ => false) (State.init (fun _ => false) false)
        maskedLate s ∧
      s.context false = ⟨.code, [true, false]⟩ ∧ s.criticalNesting = 2 ∧
      ¬ Event.Allowed .cortexM (fun _ => false) s (.switch true) := by
  have hrun : Trace (Event.Step .cortexM fun _ => false) (State.init (fun _ => false) false)
      maskedLate _ := Trace.of_guards (by decide)
  have hctx : (maskedLate.foldl (Event.run .cortexM fun _ => false)
      (State.init (fun _ => false) false)).context false = ⟨.code, [true, false]⟩ := by decide
  have hin := (critical_sections_atomic .cortexM (fun _ => false) false hrun).1 false (by decide)
  exact ⟨_, hrun, hctx, hin.2.2.1.trans (by rw [hctx]; rfl), hin.2.2.2 true⟩

end CriticalNesting

end Sertos
