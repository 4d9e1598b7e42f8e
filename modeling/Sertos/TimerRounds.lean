import Sertos.TimerSchedule
import Sertos.TimerCallbacks

/-!
# The rounds of a tick

`sertos_timer_tick` is a loop, and what callbacks do to it is seen round by round.  `visits` is the
list of the rounds of a tick, each with the state it starts in; what happens in a round, which
callback is invoked and which timers its calls are made on, is read off that state.  `Walks` says
the same of a walk that comes to its end as a derivation, one rule for each round, and the arguments
about ticks are inductions on it.
-/

set_option autoImplicit false

namespace Sertos

namespace Timers

variable {σ : Type}

/-- The timers on which calls are made, in order from `s`, that are not refused. -/
def touchedBy : Timers → List TimerOp → List TimerId
  | _, [] => []
  | s, o :: os =>
    (if (o.run s).2 = .ok then o.handle.toList else []) ++ touchedBy (o.run s).1 os

/-- A round of the loop: the state it starts in and the node the walk has come to. -/
structure Visit (σ : Type) where
  timers : Timers
  env : σ
  node : TimerId

namespace Visit

variable (callbacks : Callbacks σ) (x : Visit σ)

/-- The callback of the node is invoked. -/
def fired : Bool := (x.timers.visit x.node).2

/-- The node the walk goes on with, which is read before the callback runs. -/
def next : Option TimerId := x.timers.next x.node

/-- What the round leaves. -/
def result : TickResult σ := visitAndCall callbacks x.timers x.env x.node

/-- The timers on which the callback makes calls that are not refused. -/
def touched : List TimerId :=
  if x.fired then
    touchedBy (x.timers.visit x.node).1 (callbacks x.node x.env (x.timers.visit x.node).1).1
  else []

end Visit

/-- The rounds of a walk that has come to `curr`. -/
def visits (callbacks : Callbacks σ) : ℕ → Timers → σ → Option TimerId → List (Visit σ)
  | _, _, _, none => []
  | 0, _, _, some _ => []
  | n + 1, s, e, some t =>
    ⟨s, e, t⟩ :: visits callbacks n (visitAndCall callbacks s e t).timers
      (visitAndCall callbacks s e t).env (s.next t)

/-- The walk that has come to `curr` ends after these rounds, and leaves `s'`. -/
inductive Walks (callbacks : Callbacks σ) :
    Timers → σ → Option TimerId → List (Visit σ) → Timers → Prop
  | done (s : Timers) (e : σ) : Walks callbacks s e none [] s
  | visit {s s' : Timers} {e : σ} {t : TimerId} {log : List (Visit σ)}
      (h : Walks callbacks (visitAndCall callbacks s e t).timers (visitAndCall callbacks s e t).env
        (s.next t) log s') : Walks callbacks s e (some t) (⟨s, e, t⟩ :: log) s'

variable {callbacks : Callbacks σ} {s s' : Timers} {e : σ} {t u : TimerId} {n : ℕ}
  {r : TickResult σ} {calls : List TimerOp} {curr : Option TimerId}

theorem walks_of_walk (h : walk callbacks n s e curr = some r) :
    Walks callbacks s e curr (visits callbacks n s e curr) r.timers ∧
      r.fired = ((visits callbacks n s e curr).filter Visit.fired).map Visit.node := by
  induction n generalizing s e curr r with
  | zero =>
    cases curr with
    | none =>
      obtain rfl : r = ⟨s, e, []⟩ := by simpa [walk] using h.symm
      exact ⟨.done s e, rfl⟩
    | some t => simp [walk] at h
  | succ n ih =>
    cases curr with
    | none =>
      obtain rfl : r = ⟨s, e, []⟩ := by simpa [walk] using h.symm
      exact ⟨.done s e, rfl⟩
    | some t =>
      have hfree : ¬ s.UnlinksFree t := fun hf => by simp [walk, hf] at h
      simp only [walk, if_neg hfree, Option.map_eq_some_iff] at h
      obtain ⟨w, hw, rfl⟩ := h
      obtain ⟨hwalk, hfired⟩ := ih hw
      refine ⟨.visit hwalk, ?_⟩
      simp only [visits, hfired, List.filter_cons, Visit.fired, visitAndCall]
      split <;> rfl

/-- A tick that returns is a walk over the list. -/
theorem walks_of_tick (h : s.Inv) (ht : tick callbacks n s e = some r) :
    Walks callbacks s e s.nodes.head? (visits callbacks n s e s.nodes.head?) r.timers ∧
      r.fired = ((visits callbacks n s e s.nodes.head?).filter Visit.fired).map Visit.node := by
  rw [tick] at ht
  split at ht
  · exact walks_of_walk ht
  · next hi =>
    have hnil := h.nodes_eq_nil (by simpa using hi)
    obtain rfl : r = ⟨s, e, []⟩ := by simpa using ht.symm
    rw [hnil]
    cases n <;> exact ⟨.done s e, rfl⟩

/-- What a round does: a visit, and then the calls of the callback, if it is invoked. -/
theorem visitAndCall_timers (callbacks : Callbacks σ) (s : Timers) (e : σ) (t : TimerId) :
    ∃ calls, (calls = [] ∨ calls = (callbacks t e (s.visit t).1).1) ∧
      (visitAndCall callbacks s e t).timers = (s.visit t).1.runCalls calls ∧
      (Visit.mk s e t).touched callbacks = touchedBy (s.visit t).1 calls := by
  rw [visitAndCall, Visit.touched, Visit.fired]
  simp only
  split
  · exact ⟨_, .inr rfl, rfl, rfl⟩
  · exact ⟨[], .inl rfl, rfl, rfl⟩

theorem Visit.fired_of_touched {x : Visit σ} (h : x.touched callbacks ≠ []) : x.fired = true := by
  by_contra hf
  exact h (by rw [Visit.touched, if_neg hf])

/-- **The visit** of a linked node, with the nodes `rest` behind it. -/
structure VisitAt (s : Timers) (t : TimerId) (rest : List TimerId) : Prop where
  next : s.next t = rest.head?
  inv : (s.visit t).1.Inv
  nodes : ∃ front, (s.visit t).1.nodes = front ++ rest
  timer : (s.visit t).1.timer t = (s.timer t).visited
  others : ∀ u, u ≠ t → (s.visit t).1.timer u = s.timer u
  fired : (s.visit t).2 = decide ((s.timer t).remainingTicks ≤ 1)

theorem visitAt (h : s.Inv) {front rest : List TimerId} (hn : s.nodes = front ++ t :: rest) :
    VisitAt s t rest := by
  have hnodup := h.nodup
  rw [hn, List.nodup_append] at hnodup
  have htfront : t ∉ front := fun hm => hnodup.2.2 t hm t List.mem_cons_self rfl
  have ha : (s.timer t).isActive = true := (h.mem_nodes t).1 (by simp [hn])
  have hcb := (h.created t (h.magic t ha)).callback
  exact ⟨next_eq hn htfront, h.visit ha, visit_nodes_of_append hn htfront, visit_timer_same,
    fun u hu => visit_timer_of_ne hu, by rw [visit_eq, hcb, Bool.and_true]⟩

/-! Three timers for the examples of the modules that follow. -/

/-- Creates a periodic timer and starts it. -/
def launch (s : Timers) (t : TimerId) (period : ℕ) : Timers :=
  ((s.createStatic t ⟨none, period, true, some 0, 0⟩).1.start (some t)).1

theorem Inv.launch (h : s.Inv) (ht : (s.timer t).isActive = false) (period : ℕ) :
    (s.launch t period).Inv := by
  have hcreated := h.createStatic ht ⟨none, period, true, some 0, 0⟩
  exact ((TimerOp.start (some t)).run_effect hcreated.linked).inv hcreated

/-- The timers `1`, `2` and `3`, started in this order. -/
def threeTimers (p q r : ℕ) : Timers := ((bss.launch 1 p).launch 2 q).launch 3 r

/-- Callbacks of which only that of `t` makes calls. -/
def onlyCalls (t : TimerId) (calls : List TimerOp) : Callbacks Unit := fun u _ _ =>
  (if u = t then calls else [], ())

end Timers

end Sertos
