import Sertos.Lib.Trace
import Mathlib.Data.Set.Basic
import Mathlib.Logic.Function.Basic

/-!
# Contexts in memory

A processor runs one of several threads at a time.  A switch leaves the context of the running
thread in memory and loads that of another one; a new thread starts from a context that was made up
for it.  What a context is and how it is loaded are parameters, the fields of a `Switcher`, and
`Switcher.Lawful` is what one switch has to do for this to be the same as if every thread had a
processor of its own: `Switcher.resumed_of_run` says that over a whole run each thread goes on in
the state in which it was to go on.

Each thread owns part of the memory.  Whether a thread's context is in memory depends on nothing
else, so what other threads and their switches do in the meantime does not matter.
-/

set_option autoImplicit false

namespace Contexts

open Lts

/-- A processor with states `σ`, on which one of the threads `τ` runs at a time, or none.  A thread
is created from a `γ`. -/
structure Switcher (τ γ σ A V : Type*) where
  mem : σ → A → V
  /-- The addresses that belong to a thread. -/
  own : τ → Set A
  /-- What holds of a state in which the thread runs. -/
  Valid : Option τ → σ → Prop
  /-- The memory holds the context of a thread that is to go on in this state. -/
  Parked : (A → V) → τ → σ → Prop
  /-- A thread that was to go on in the first state goes on in the second. -/
  Resumed : τ → σ → σ → Prop
  /-- A thread is created in the first state, and is to start in the second. -/
  Create : σ → τ → γ → σ → σ → Prop
  /-- In the first state the running thread is switched out and `next` is switched in; the former is
  to go on in the second state. -/
  Switch : Option τ → σ → τ → σ → σ → Prop

namespace Switcher

variable {τ γ σ A V : Type*} (S : Switcher τ γ σ A V)

/-- A switch saves the running thread, loads the next one, and leaves the others alone. -/
structure Lawful : Prop where
  parked_congr : ∀ {m m' t out}, S.Parked m t out → (∀ x ∈ S.own t, m' x = m x) →
    S.Parked m' t out
  create_valid : ∀ {running s t g out s'}, S.Valid running s → S.Create s t g out s' →
    S.Valid running s'
  create_parks : ∀ {s t g out s'}, S.Create s t g out s' → S.Parked (S.mem s') t out
  create_keeps : ∀ {s t g out s' u}, S.Create s t g out s' → u ≠ t →
    ∀ x ∈ S.own u, S.mem s' x = S.mem s x
  switch_valid : ∀ {running s next out s'}, S.Valid running s → S.Switch running s next out s' →
    S.Valid (some next) s'
  switch_parks : ∀ {t s next out s'}, S.Valid (some t) s → S.Switch (some t) s next out s' →
    S.Parked (S.mem s') t out
  switch_keeps : ∀ {running s next out s' t}, S.Valid running s →
    S.Switch running s next out s' → running ≠ some t → ∀ x ∈ S.own t, S.mem s' x = S.mem s x
  switch_resumes : ∀ {running s next out s' resume}, S.Valid running s →
    S.Switch running s next out s' → S.Parked (S.mem s') next resume → S.Resumed next resume s'

/-! ## Runs -/

/-- The state of the processor, the running thread, and the state in which each thread is to go
on. -/
structure Config (τ σ : Type*) where
  state : σ
  running : Option τ
  resume : τ → Option σ

/-- What happens next: the running thread runs, a thread is created, or one is switched in. -/
inductive Action (τ γ : Type*)
  | run
  | create (t : τ) (g : γ)
  | switch (next : τ)

/-- The states in which the threads are to go on, once the running one is to go on in `out`. -/
def note [DecidableEq τ] (resume : τ → Option σ) (out : σ) : Option τ → τ → Option σ
  | some t => Function.update resume t (some out)
  | none => resume

theorem note_self [DecidableEq τ] {resume : τ → Option σ} {out : σ} {t : τ} :
    note resume out (some t) t = some out :=
  Function.update_self ..

theorem note_of_ne [DecidableEq τ] {resume : τ → Option σ} {out : σ} {running : Option τ} {t : τ}
    (h : running ≠ some t) : note resume out running t = resume t := by
  cases running with
  | none => rfl
  | some u => exact Function.update_of_ne (fun e => h (by rw [e])) ..

/-- A step of a run. -/
def Step [DecidableEq τ] (c : Config τ σ) : Action τ γ → Config τ σ → Prop
  | .run, c' =>
    S.Valid c.running c'.state ∧
      (∀ t, c.running ≠ some t → ∀ x ∈ S.own t, S.mem c'.state x = S.mem c.state x) ∧
      c'.running = c.running ∧ c'.resume = c.resume
  | .create t g, c' => c.running ≠ some t ∧ ∃ out, S.Create c.state t g out c'.state ∧
      c'.running = c.running ∧ c'.resume = Function.update c.resume t (some out)
  | .switch next, c' => ∃ out, S.Switch c.running c.state next out c'.state ∧
      c'.running = some next ∧ c'.resume = note c.resume out c.running

/-- Every thread that is not running is parked, if it was created. -/
structure Inv (c : Config τ σ) : Prop where
  valid : S.Valid c.running c.state
  parked : ∀ t out, c.resume t = some out → c.running ≠ some t → S.Parked (S.mem c.state) t out

/-- The start of a run: there is no thread yet. -/
structure Start (c : Config τ σ) : Prop where
  valid : S.Valid c.running c.state
  resume : ∀ t, c.resume t = none

variable {S} {c c' c₀ : Config τ σ} {t next : τ} {out : σ} {g : γ} {as : List (Action τ γ)}

theorem Start.inv (h : S.Start c) : S.Inv c where
  valid := h.valid
  parked t out hout := by rw [h.resume t] at hout; exact absurd hout (by simp)

section Steps

variable [DecidableEq τ] {a : Action τ γ}

/-- **What a switch preserves**: after it all threads are parked that are to go on somewhere, the
one that was running included. -/
theorem Inv.parked_switch (hS : S.Lawful) (hc : S.Inv c) (h : S.Step c (.switch next) c')
    (hout : c'.resume t = some out) : S.Parked (S.mem c'.state) t out := by
  obtain ⟨left, hswitch, -, hnote⟩ := h
  rw [hnote] at hout
  by_cases ht : c.running = some t
  · rw [ht] at hswitch hout
    rw [note_self, Option.some_inj] at hout
    exact hout ▸ hS.switch_parks (ht ▸ hc.valid) hswitch
  · rw [note_of_ne ht] at hout
    exact hS.parked_congr (hc.parked t out hout ht) (hS.switch_keeps hc.valid hswitch ht)

/-- Every step keeps the invariant. -/
theorem Inv.step (hS : S.Lawful) (hc : S.Inv c) (h : S.Step c a c') : S.Inv c' := by
  cases a with
  | run =>
    obtain ⟨hvalid, hkept, hrunning, hresume⟩ := h
    refine ⟨hrunning ▸ hvalid, fun t out hout ht => ?_⟩
    rw [hresume] at hout
    rw [hrunning] at ht
    exact hS.parked_congr (hc.parked t out hout ht) (hkept t ht)
  | create u g =>
    obtain ⟨-, new, hcreate, hrunning, hresume⟩ := h
    refine ⟨hrunning ▸ hS.create_valid hc.valid hcreate, fun t out hout ht => ?_⟩
    rw [hresume] at hout
    rw [hrunning] at ht
    by_cases htu : t = u
    · subst htu
      rw [Function.update_self, Option.some_inj] at hout
      exact hout ▸ hS.create_parks hcreate
    · rw [Function.update_of_ne htu] at hout
      exact hS.parked_congr (hc.parked t out hout ht) (hS.create_keeps hcreate htu)
  | switch next =>
    refine ⟨?_, fun t out hout _ => hc.parked_switch hS h hout⟩
    obtain ⟨left, hswitch, hrunning, -⟩ := h
    exact hrunning ▸ hS.switch_valid hc.valid hswitch

theorem Inv.run (hS : S.Lawful) (hc : S.Inv c) (h : Trace S.Step c as c') : S.Inv c' :=
  h.invariant (fun _ _ _ hc hstep => hc.step hS hstep) hc

/-- A switch resumes the thread that it switches in. -/
theorem Inv.resumed (hS : S.Lawful) (hc : S.Inv c) (h : S.Step c (.switch next) c')
    (hout : c'.resume next = some out) : S.Resumed next out c'.state := by
  have hparked := hc.parked_switch hS h hout
  obtain ⟨left, hswitch, -, -⟩ := h
  exact hS.switch_resumes hc.valid hswitch hparked

/-- **Each thread goes on in the state in which it was to go on**, after any run. -/
theorem resumed_of_run (hS : S.Lawful) (h₀ : S.Start c₀) (hrun : Trace S.Step c₀ as c)
    (hswitch : S.Step c (.switch next) c') (hout : c'.resume next = some out) :
    S.Resumed next out c'.state :=
  (h₀.inv.run hS hrun).resumed hS hswitch hout

/-! ## The first time -/

/-- The steps between the creation of a thread and the first time that it runs. -/
def Action.LeavesWaiting (t : τ) : Action τ γ → Prop
  | .run => True
  | .create u _ => u ≠ t
  | .switch next => next ≠ t

theorem resume_of_leavesWaiting (h : S.Step c a c') (ha : a.LeavesWaiting t)
    (ht : c.running ≠ some t) : c'.resume t = c.resume t ∧ c'.running ≠ some t := by
  cases a with
  | run =>
    obtain ⟨-, -, hrunning, hresume⟩ := h
    exact ⟨by rw [hresume], by rwa [hrunning]⟩
  | create u g =>
    obtain ⟨-, new, -, hrunning, hresume⟩ := h
    exact ⟨by rw [hresume, Function.update_of_ne (Ne.symm ha)], by rwa [hrunning]⟩
  | switch next =>
    obtain ⟨left, -, hrunning, hresume⟩ := h
    refine ⟨by rw [hresume, note_of_ne ht], ?_⟩
    rw [hrunning]
    exact fun e => ha (Option.some_inj.1 e)

/-- A thread that has not run since its creation is still to start where it was. -/
theorem resume_of_waiting (h : Trace S.Step c as c') (has : ∀ a ∈ as, a.LeavesWaiting t)
    (ht : c.running ≠ some t) : c'.resume t = c.resume t ∧ c'.running ≠ some t := by
  induction h with
  | nil => exact ⟨rfl, ht⟩
  | cons hstep _ ih =>
    obtain ⟨hresume, hrunning⟩ := resume_of_leavesWaiting hstep (has _ List.mem_cons_self) ht
    obtain ⟨hresume', hrunning'⟩ := ih (fun a ha => has a (List.mem_cons_of_mem _ ha)) hrunning
    exact ⟨hresume'.trans hresume, hrunning'⟩

/-- **A new thread starts where it was created to start**, whatever ran before its first turn. -/
theorem started_of_run {c₁ c₂ : Config τ σ} {bs : List (Action τ γ)} (hS : S.Lawful)
    (h₀ : S.Start c₀) (hrun : Trace S.Step c₀ as c) (hcreate : S.Step c (.create t g) c₁)
    (hwait : Trace S.Step c₁ bs c₂) (hbs : ∀ a ∈ bs, a.LeavesWaiting t)
    (hswitch : S.Step c₂ (.switch t) c') :
    ∃ out, S.Create c.state t g out c₁.state ∧ S.Resumed t out c'.state := by
  have hinv := ((h₀.inv.run hS hrun).step hS hcreate).run hS hwait
  obtain ⟨ht, out, hnew, hrunning, hresume⟩ := hcreate
  obtain ⟨hkept, hrunning'⟩ := resume_of_waiting hwait hbs (by rwa [hrunning])
  refine ⟨out, hnew, hinv.resumed hS hswitch ?_⟩
  obtain ⟨left, -, -, hnote⟩ := hswitch
  rw [hnote, note_of_ne hrunning', hkept, hresume, Function.update_self]

end Steps

end Switcher

end Contexts
