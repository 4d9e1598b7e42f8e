import Sertos.Timer
import Sertos.Lib.Countdown

/-!
# The list of active timers

What every call of the timer interface, and every round of the walk of `sertos_timer_tick`, does to
the list `s_active_timers` and to the timer it is about.  A timer is linked exactly if it is active
(`Timers.Inv`), a call either does nothing, arms one timer and puts it at the end of the list, or
takes one timer out of it (`TimerOp.Effect`), and a round of the walk is a tick of the timer's
`Countdown` (`Timers.visited_countdown`).
-/

set_option autoImplicit false

namespace Sertos

open Intrusive

/-- The clockwork of a timer. -/
def Timer.countdown (b : Timer) : Countdown where
  period := b.periodTicks
  remaining := b.remainingTicks
  periodic := b.isPeriodic
  active := b.isActive

/-- What creation, and nothing after it, gives a timer. -/
structure Timer.Created (b : Timer) : Prop where
  magic : b.magic = timerMagicWord
  period_pos : 0 < b.periodTicks
  callback : b.callback.isSome = true

namespace Timers

/-- The list and the flags agree: no timer is linked twice, the linked ones are the active ones,
these have been created, and a created timer can be armed.  This much holds also while a callback
runs. -/
structure Linked (s : Timers) : Prop where
  nodup : s.nodes.Nodup
  mem_nodes : ∀ t, t ∈ s.nodes ↔ (s.timer t).isActive = true
  period_pos : ∀ t, (s.timer t).magic = timerMagicWord → 0 < (s.timer t).periodTicks
  magic : ∀ t, (s.timer t).isActive = true → (s.timer t).magic = timerMagicWord

/-- **The invariant of the timer list.** -/
structure Inv (s : Timers) : Prop where
  wf : s.activeTimers.WF
  mem_nodes : ∀ t, t ∈ s.nodes ↔ (s.timer t).isActive = true
  created : ∀ t, (s.timer t).magic = timerMagicWord → (s.timer t).Created
  magic : ∀ t, (s.timer t).isActive = true → (s.timer t).magic = timerMagicWord
  remaining_pos : ∀ t, (s.timer t).isActive = true → 0 < (s.timer t).remainingTicks
  initialized : ∀ t, (s.timer t).magic = timerMagicWord → s.initialized = true

/-- Memory before the first timer is created. -/
structure Blank (s : Timers) : Prop where
  activeTimers : s.activeTimers = LinkedList.init
  inactive : ∀ t, (s.timer t).isActive = false
  magic : ∀ t, (s.timer t).magic ≠ timerMagicWord

theorem Blank.inv {s : Timers} (h : s.Blank) : s.Inv where
  wf := h.activeTimers ▸ LinkedList.init_wf
  mem_nodes t := by simp [nodes, h.activeTimers, h.inactive t]
  created t ht := absurd ht (h.magic t)
  magic t ht := by simp [h.inactive t] at ht
  remaining_pos t ht := by simp [h.inactive t] at ht
  initialized t ht := absurd ht (h.magic t)

namespace Inv

variable {s : Timers} {t : TimerId}

theorem nodup (h : s.Inv) : s.nodes.Nodup := h.wf.nodup

theorem linked (h : s.Inv) : s.Linked :=
  ⟨h.nodup, h.mem_nodes, fun t ht => (h.created t ht).period_pos, h.magic⟩

theorem notMem_nodes (h : s.Inv) (ht : (s.timer t).isActive = false) : t ∉ s.nodes := by
  rw [h.mem_nodes, ht]
  exact Bool.false_ne_true

theorem nodes_eq_nil (h : s.Inv) (hi : s.initialized = false) : s.nodes = [] := by
  refine List.eq_nil_iff_forall_not_mem.2 fun t ht => ?_
  have := h.initialized t (h.magic t ((h.mem_nodes t).1 ht))
  simp [hi] at this

/-- An active timer is linked once, any other is not linked. -/
theorem count_nodes (h : s.Inv) (t : TimerId) :
    s.nodes.count t = if (s.timer t).isActive then 1 else 0 := by
  rw [show s.nodes.count t = if t ∈ s.nodes then 1 else 0 from h.nodup.count]
  simp only [h.mem_nodes]

/-- A step that changes one timer keeps the invariant if the list and the fields of that timer
still agree. -/
theorem of_change {s' : Timers} (h : s.Inv) (htimer : ∀ u, u ≠ t → s'.timer u = s.timer u)
    (hnodes : ∀ u, u ≠ t → (u ∈ s'.nodes ↔ u ∈ s.nodes)) (hwf : s'.activeTimers.WF)
    (hi : ∀ u, (s.timer u).magic = timerMagicWord → s'.initialized = true)
    (ht : t ∈ s'.nodes ↔ (s'.timer t).isActive = true)
    (htc : (s'.timer t).magic = timerMagicWord → (s'.timer t).Created ∧ s'.initialized = true)
    (hta : (s'.timer t).isActive = true →
      (s'.timer t).magic = timerMagicWord ∧ 0 < (s'.timer t).remainingTicks) : s'.Inv where
  wf := hwf
  mem_nodes u := by
    by_cases hut : u = t
    · exact hut ▸ ht
    · rw [hnodes u hut, htimer u hut, h.mem_nodes]
  created u hu := by
    by_cases hut : u = t
    · subst hut; exact (htc hu).1
    · rw [htimer u hut] at hu ⊢; exact h.created u hu
  magic u hu := by
    by_cases hut : u = t
    · subst hut; exact (hta hu).1
    · rw [htimer u hut] at hu ⊢; exact h.magic u hu
  remaining_pos u hu := by
    by_cases hut : u = t
    · subst hut; exact (hta hu).2
    · rw [htimer u hut] at hu ⊢; exact h.remaining_pos u hu
  initialized u hu := by
    by_cases hut : u = t
    · subst hut; exact (htc hu).2
    · rw [htimer u hut] at hu; exact hi u hu

end Inv

/-! ## The calls -/

/-- Arms a timer with a period and puts it at the end of the list. -/
def restart (s : Timers) (t : TimerId) (p : ℕ) : Timers :=
  ((if (s.timer t).isActive then s.unlink t else s).modify t fun b =>
    { b with periodTicks := p, remainingTicks := p, isActive := true }).link t

/-- Takes a timer out of the list. -/
def halt (s : Timers) (t : TimerId) (next : Option TimerId) (magic : ℕ) : Timers :=
  (if (s.timer t).isActive then s.unlink t else s).modify t fun b =>
    { b with isActive := false, freeNext := next, magic := magic }

section Fields

variable (s : Timers) (t : TimerId) (p : ℕ) (next : Option TimerId) (magic : ℕ)

@[simp] theorem restart_timer_same : (s.restart t p).timer t =
    { s.timer t with periodTicks := p, remainingTicks := p, isActive := true } := by
  simp only [restart, link_timer, modify_timer_same]
  split <;> rfl

theorem restart_timer_of_ne {u : TimerId} (h : u ≠ t) : (s.restart t p).timer u = s.timer u := by
  rw [restart, link_timer, modify_timer_of_ne _ _ _ h]
  split <;> rfl

@[simp] theorem restart_initialized : (s.restart t p).initialized = s.initialized := by
  rw [restart, link_initialized, modify_initialized]
  split <;> rfl

@[simp] theorem halt_timer_same : (s.halt t next magic).timer t =
    { s.timer t with isActive := false, freeNext := next, magic := magic } := by
  simp only [halt, modify_timer_same]
  split <;> rfl

theorem halt_timer_of_ne {u : TimerId} (h : u ≠ t) :
    (s.halt t next magic).timer u = s.timer u := by
  rw [halt, modify_timer_of_ne _ _ _ h]
  split <;> rfl

@[simp] theorem halt_initialized : (s.halt t next magic).initialized = s.initialized := by
  rw [halt, modify_initialized]
  split <;> rfl

end Fields

section Lists

variable {s : Timers} {t : TimerId}

/-- The list after the timer has been taken out of it, if it was in it. -/
theorem Linked.unlinked_nodes (h : s.Linked) (t : TimerId) :
    (if (s.timer t).isActive then s.unlink t else s).nodes = s.nodes.erase t := by
  by_cases ht : (s.timer t).isActive = true
  · rw [if_pos ht]; rfl
  · rw [if_neg ht, List.erase_of_not_mem (mt (h.mem_nodes t).1 ht)]

theorem Inv.unlinked_wf (h : s.Inv) (t : TimerId) :
    (if (s.timer t).isActive then s.unlink t else s).activeTimers.WF := by
  by_cases ht : (s.timer t).isActive = true
  · rw [if_pos ht]; exact h.wf.remove ((h.mem_nodes t).2 ht)
  · rw [if_neg ht]; exact h.wf

theorem Linked.restart_nodes (h : s.Linked) (t : TimerId) (p : ℕ) :
    (s.restart t p).nodes = s.nodes.erase t ++ [t] := by
  rw [restart, link_nodes, modify_nodes, h.unlinked_nodes]

theorem Linked.halt_nodes (h : s.Linked) (t : TimerId) (next : Option TimerId) (magic : ℕ) :
    (s.halt t next magic).nodes = s.nodes.erase t := by
  rw [halt, modify_nodes, h.unlinked_nodes]

/-- A restart of a created timer keeps the invariant. -/
theorem Inv.restart (h : s.Inv) (hm : (s.timer t).magic = timerMagicWord) {p : ℕ} (hp : 0 < p) :
    (s.restart t p).Inv := by
  have hi : (s.restart t p).initialized = true := by
    rw [restart_initialized]; exact h.initialized t hm
  have hwf : (s.restart t p).activeTimers.WF := by
    refine (h.unlinked_wf t).insertTail fun ht => ?_
    rw [show (_ : LinkedList TimerId).nodes = _ from h.linked.unlinked_nodes t] at ht
    exact (h.nodup.mem_erase_iff.1 ht).1 rfl
  refine h.of_change (fun u => restart_timer_of_ne s t p) (fun u hu => ?_) hwf (fun _ _ => hi) ?_
    (fun _ => ⟨?_, hi⟩) (fun _ => ?_)
  · rw [h.linked.restart_nodes, List.mem_append, List.mem_singleton, h.nodup.mem_erase_iff]
    simp [hu]
  · simp [h.linked.restart_nodes]
  · rw [restart_timer_same]
    exact ⟨hm, hp, (h.created t hm).callback⟩
  · rw [restart_timer_same]
    exact ⟨hm, hp⟩

/-- Halting a timer that keeps its magic word, or gets a wrong one, keeps the invariant. -/
theorem Inv.halt (h : s.Inv) {next : Option TimerId} {magic : ℕ}
    (hm : magic = (s.timer t).magic ∨ magic ≠ timerMagicWord) : (s.halt t next magic).Inv := by
  refine h.of_change (fun u => halt_timer_of_ne s t next magic) (fun u hu => ?_) (h.unlinked_wf t)
    (fun u hu => ?_) ?_ (fun hu => ?_) (fun hu => ?_)
  · rw [h.linked.halt_nodes, h.nodup.mem_erase_iff]
    simp [hu]
  · rw [halt_initialized]; exact h.initialized u hu
  · simp [h.linked.halt_nodes, h.nodup.mem_erase_iff]
  · rw [halt_timer_same] at hu ⊢
    rcases hm with rfl | hm
    · exact ⟨⟨hu, (h.created t hu).period_pos, (h.created t hu).callback⟩,
        by rw [halt_initialized]; exact h.initialized t hu⟩
    · exact absurd hu hm
  · simp at hu

end Lists

section Calls

variable {s : Timers} {t : TimerId} {handle : Option TimerId}

theorem checkHandle_eq_some :
    s.checkHandle handle = some t ↔ handle = some t ∧ (s.timer t).magic = timerMagicWord := by
  simp [checkHandle, Option.filter_eq_some_iff]

theorem start_eq (hm : (s.timer t).magic = timerMagicWord) :
    s.start (some t) = (s.restart t (s.timer t).periodTicks, .ok) := by
  rw [start, checkHandle_eq_some.2 ⟨rfl, hm⟩]
  by_cases ha : (s.timer t).isActive = true <;> simp [restart, modify, unlink, ha]

theorem changePeriod_eq (hm : (s.timer t).magic = timerMagicWord) {p : ℕ} (hp : 0 < p) :
    s.changePeriod (some t) p = (s.restart t p, .ok) := by
  rw [changePeriod, checkHandle_eq_some.2 ⟨rfl, hm⟩]
  simp only [if_neg hp.ne', reset]
  rw [start_eq (by simpa using hm)]
  by_cases ha : (s.timer t).isActive = true <;> simp [restart, modify, unlink, ha]

/-- A timer that is not active only gets a new magic word. -/
theorem halt_of_inactive (ha : (s.timer t).isActive = false) (magic : ℕ) :
    s.halt t (s.timer t).freeNext magic = s.modify t fun b => { b with magic := magic } := by
  rw [halt, if_neg (by simp [ha])]
  refine modify_congr ?_
  rw [← ha]

theorem stop_eq (hm : (s.timer t).magic = timerMagicWord) :
    s.stop (some t) = (s.halt t (if (s.timer t).isActive then none else (s.timer t).freeNext)
      timerMagicWord, .ok) := by
  rw [stop, checkHandle_eq_some.2 ⟨rfl, hm⟩, ← hm]
  by_cases ha : (s.timer t).isActive = true
  · simp only [ha, if_true, halt]
    exact congrArg (·, Status.ok) (modify_congr rfl)
  · rw [Bool.not_eq_true] at ha
    simp only [ha, Bool.false_eq_true, if_false, halt_of_inactive ha]
    simp [modify]

theorem delete_eq (hm : (s.timer t).magic = timerMagicWord) :
    s.delete (some t) =
      (s.halt t (if (s.timer t).isActive then s.next t else (s.timer t).freeNext) 0, .ok) := by
  rw [delete, checkHandle_eq_some.2 ⟨rfl, hm⟩]
  by_cases ha : (s.timer t).isActive = true
  · simp [ha, halt, modify]
  · rw [Bool.not_eq_true] at ha
    simp [ha, halt_of_inactive ha]

end Calls

end Timers

namespace TimerOp

/-- The call arms the timer it is made on. -/
def restarts : TimerOp → Bool
  | start _ | reset _ | changePeriod _ _ => true
  | stop _ | delete _ => false

/-- The period the call arms a timer with. -/
def armedPeriod (b : Timer) : TimerOp → ℕ
  | changePeriod _ newPeriod => newPeriod
  | _ => b.periodTicks

/-- What a call can do. -/
inductive Effect (s : Timers) (o : TimerOp) : Timers × Status → Prop
  | refused : Effect s o (s, .errorInvalidParam)
  | restarted (t : TimerId) (hh : o.handle = some t) (hm : (s.timer t).magic = timerMagicWord)
      (hr : o.restarts = true) (hp : 0 < o.armedPeriod (s.timer t)) :
      Effect s o (s.restart t (o.armedPeriod (s.timer t)), .ok)
  | halted (t : TimerId) (hh : o.handle = some t) (hm : (s.timer t).magic = timerMagicWord)
      (hr : o.restarts = false) (next : Option TimerId) (magic : ℕ)
      (hmagic : magic = timerMagicWord ∧ o = stop (some t) ∧
          next = (if (s.timer t).isActive then none else (s.timer t).freeNext) ∨
        magic = 0 ∧ o = delete (some t)) :
      Effect s o (s.halt t next magic, .ok)

theorem run_of_not_valid {s : Timers} {o : TimerOp} (h : s.checkHandle o.handle = none) :
    o.run s = (s, .errorInvalidParam) := by
  cases o <;> simp only [handle] at h <;>
    simp only [run, Timers.start, Timers.stop, Timers.reset, Timers.changePeriod, Timers.delete, h]

theorem run_effect {s : Timers} (h : s.Linked) (o : TimerOp) : o.Effect s (o.run s) := by
  cases hc : s.checkHandle o.handle with
  | none => rw [run_of_not_valid hc]; exact .refused
  | some t =>
    obtain ⟨hh, hm⟩ := Timers.checkHandle_eq_some.1 hc
    have hp := h.period_pos t hm
    cases o with
    | start handle | reset handle =>
      obtain rfl : handle = some t := hh
      simp only [run, Timers.reset, Timers.start_eq hm]
      exact .restarted t rfl hm rfl hp
    | changePeriod handle p =>
      obtain rfl : handle = some t := hh
      rcases Nat.eq_zero_or_pos p with rfl | hp
      · simp only [run, Timers.changePeriod, Timers.checkHandle_eq_some.2 ⟨rfl, hm⟩, if_true]
        exact .refused
      · simp only [run, Timers.changePeriod_eq hm hp]
        exact .restarted t rfl hm rfl hp
    | stop handle =>
      obtain rfl : handle = some t := hh
      simp only [run, Timers.stop_eq hm]
      exact .halted t rfl hm rfl _ _ (.inl ⟨rfl, rfl, rfl⟩)
    | delete handle =>
      obtain rfl : handle = some t := hh
      simp only [run, Timers.delete_eq hm]
      exact .halted t rfl hm rfl _ _ (.inr ⟨rfl, rfl⟩)

variable {s : Timers} {o : TimerOp} {r : Timers × Status} {t : TimerId}

/-- On a created timer only a period of zero is refused. -/
theorem run_ok (hh : o.handle = some t) (hm : (s.timer t).magic = timerMagicWord)
    (hp : o ≠ changePeriod (some t) 0) : (o.run s).2 = .ok := by
  cases o with
  | start handle | reset handle =>
    obtain rfl : handle = some t := hh
    simp only [run, Timers.reset, Timers.start_eq hm]
  | changePeriod handle p =>
    obtain rfl : handle = some t := hh
    have hpos : 0 < p := Nat.pos_of_ne_zero fun hp0 => hp (by rw [hp0])
    simp only [run, Timers.changePeriod_eq hm hpos]
  | stop handle =>
    obtain rfl : handle = some t := hh
    simp only [run, Timers.stop_eq hm]
  | delete handle =>
    obtain rfl : handle = some t := hh
    simp only [run, Timers.delete_eq hm]

theorem Effect.inv (he : o.Effect s r) (h : s.Inv) : r.1.Inv := by
  cases he with
  | refused => exact h
  | restarted t hh hm hr hp => exact h.restart hm hp
  | halted t hh hm hr next magic hmagic =>
    refine h.halt ?_
    rcases hmagic with ⟨rfl, -, -⟩ | ⟨rfl, -⟩
    · exact .inl hm.symm
    · exact .inr (by decide)

/-- A call on another handle leaves a timer alone. -/
theorem Effect.timer_of_ne (he : o.Effect s r) (ht : o.handle ≠ some t) :
    r.1.timer t = s.timer t := by
  cases he with
  | refused => rfl
  | restarted u hh _ _ _ =>
    exact Timers.restart_timer_of_ne s u _ fun htu => ht (by rw [hh, htu])
  | halted u hh _ _ next magic _ =>
    exact Timers.halt_timer_of_ne s u next magic fun htu => ht (by rw [hh, htu])

/-- A restart that is not refused arms its timer. -/
theorem Effect.restarted_of_ok (he : o.Effect s r) (hh : o.handle = some t)
    (hr : o.restarts = true) (hok : r.2 = .ok) :
    0 < o.armedPeriod (s.timer t) ∧ r.1 = s.restart t (o.armedPeriod (s.timer t)) := by
  cases he with
  | refused => simp at hok
  | restarted u hu _ _ hp =>
    obtain rfl : u = t := Option.some_inj.1 (hu.symm.trans hh)
    exact ⟨hp, rfl⟩
  | halted _ _ _ hr' _ _ _ => simp [hr] at hr'

/-- A stop or a deletion that is not refused takes its timer out of the list; only a deletion
clears the magic word. -/
theorem Effect.halted_of_ok (he : o.Effect s r) (hh : o.handle = some t)
    (hr : o.restarts = false) (hok : r.2 = .ok) :
    (r.1.timer t).isActive = false ∧
      (o = delete (some t) → (r.1.timer t).magic ≠ timerMagicWord) := by
  cases he with
  | refused => simp at hok
  | restarted _ _ _ hr' _ => simp [hr] at hr'
  | halted u hu _ _ next magic hmagic =>
    obtain rfl : u = t := Option.some_inj.1 (hu.symm.trans hh)
    rw [Timers.halt_timer_same]
    refine ⟨rfl, fun ho => ?_⟩
    rcases hmagic with ⟨-, rfl, -⟩ | ⟨rfl, -⟩
    · cases ho
    · simp [timerMagicWord]

end TimerOp

/-! ## The tick -/

/-- What one round of the walk does to its timer. -/
def Timer.visited (b : Timer) : Timer :=
  if b.remainingTicks ≤ 1 then
    if b.isPeriodic then { b with remainingTicks := b.periodTicks }
    else { b with remainingTicks := 0, freeNext := none, isActive := false }
  else { b with remainingTicks := b.remainingTicks - 1 }

/-- The round takes its timer out of the list. -/
def Timer.leaves (b : Timer) : Bool := decide (b.remainingTicks ≤ 1) && !b.isPeriodic

namespace Timers

variable {s : Timers} {t : TimerId}

theorem visit_eq (s : Timers) (t : TimerId) :
    s.visit t = ((if (s.timer t).leaves then s.unlink t else s).modify t Timer.visited,
      decide ((s.timer t).remainingTicks ≤ 1) && (s.timer t).callback.isSome) := by
  rcases Nat.lt_or_ge 1 (s.timer t).remainingTicks with h | h
  · have h0 : 0 < (s.timer t).remainingTicks := by omega
    have h1 : ¬ (s.timer t).remainingTicks ≤ 1 := by omega
    have h2 : ¬ (s.timer t).remainingTicks - 1 = 0 := by omega
    simp [visit, modify, Timer.visited, Timer.leaves, h0, h1, h2]
  · rcases Nat.eq_zero_or_pos (s.timer t).remainingTicks with h0 | h0
    · by_cases hp : (s.timer t).isPeriodic = true <;>
        simp [visit, modify, unlink, Timer.visited, Timer.leaves, h0, hp]
    · have h1 : (s.timer t).remainingTicks - 1 = 0 := by omega
      by_cases hp : (s.timer t).isPeriodic = true <;>
        simp [visit, modify, unlink, Timer.visited, Timer.leaves, h0, h, h1, hp]

theorem visit_timer_of_ne {u : TimerId} (h : u ≠ t) : (s.visit t).1.timer u = s.timer u := by
  rw [visit_eq, modify_timer_of_ne _ _ _ h]
  split <;> rfl

theorem visit_timer_same : (s.visit t).1.timer t = (s.timer t).visited := by
  rw [visit_eq, modify_timer_same]
  split <;> rfl

theorem visit_nodes :
    (s.visit t).1.nodes = if (s.timer t).leaves then s.nodes.erase t else s.nodes := by
  rw [visit_eq, modify_nodes]
  split <;> rfl

theorem visit_initialized : (s.visit t).1.initialized = s.initialized := by
  rw [visit_eq, modify_initialized]
  split <;> rfl

theorem visited_countdown {b : Timer} (ha : b.isActive = true) :
    b.visited.countdown = b.countdown.tick := by
  by_cases h : b.remainingTicks ≤ 1 <;> by_cases hp : b.isPeriodic = true <;>
    simp [Timer.visited, Timer.countdown, Countdown.tick, Countdown.due, ha, h, hp]

theorem visited_magic (b : Timer) : b.visited.magic = b.magic := by
  rw [Timer.visited]
  split
  · split <;> rfl
  · rfl

theorem visited_created {b : Timer} (h : b.Created) : b.visited.Created := by
  obtain ⟨h1, h2, h3⟩ := h
  rw [Timer.visited]
  split
  · split
    · exact ⟨h1, h2, h3⟩
    · exact ⟨h1, h2, h3⟩
  · exact ⟨h1, h2, h3⟩

/-- A visited timer is active exactly if the round left it in the list. -/
theorem visited_isActive {b : Timer} (ha : b.isActive = true) :
    b.visited.isActive = true ↔ b.leaves = false := by
  by_cases h : b.remainingTicks ≤ 1 <;> by_cases hp : b.isPeriodic = true <;>
    simp [Timer.visited, Timer.leaves, ha, h, hp]

theorem visited_remaining_pos {b : Timer} (hp : 0 < b.periodTicks) (hl : b.leaves = false) :
    0 < b.visited.remainingTicks := by
  rw [Timer.leaves, Bool.and_eq_false_iff, decide_eq_false_iff_not, Bool.not_eq_false'] at hl
  rw [Timer.visited]
  split
  · next h =>
    rw [if_pos (hl.resolve_left (fun hn => hn h))]
    exact hp
  · next h =>
    simp only
    omega

/-- A round of the walk on an active timer keeps the invariant. -/
theorem Inv.visit (h : s.Inv) (ht : (s.timer t).isActive = true) : (s.visit t).1.Inv := by
  have hm := h.magic t ht
  have hc := h.created t hm
  have hmem := (h.mem_nodes t).2 ht
  refine h.of_change (fun u => visit_timer_of_ne) (fun u hu => ?_) ?_
    (fun u hu => by rw [visit_initialized]; exact h.initialized u hu) ?_ (fun _ => ?_) (fun ha => ?_)
  · rw [visit_nodes]
    split
    · exact List.mem_erase_of_ne hu
    · rfl
  · rw [visit_eq, modify_activeTimers]
    split
    · exact h.wf.remove hmem
    · exact h.wf
  · rw [visit_timer_same, visited_isActive ht, visit_nodes]
    by_cases hl : (s.timer t).leaves = true
    · simp [hl, h.nodup.mem_erase_iff]
    · simp [hl, hmem]
  · rw [visit_timer_same, visit_initialized]
    exact ⟨visited_created hc, h.initialized t hm⟩
  · rw [visit_timer_same] at ha ⊢
    refine ⟨by rw [visited_magic]; exact hm, ?_⟩
    exact visited_remaining_pos hc.period_pos ((visited_isActive ht).1 ha)

/-- While a node is linked, its `next` is its successor. -/
theorem next_eq {pre rest : List TimerId} (hn : s.nodes = pre ++ t :: rest) (ht : t ∉ pre) :
    s.next t = rest.head? := by
  have hidx : s.nodes.idxOf t = pre.length := by
    rw [hn, List.idxOf_append_of_notMem ht, List.idxOf_cons_self, Nat.add_zero]
  rw [next, if_pos (by simp [hn]), hidx, hn, List.getElem?_append_right (by omega),
    Nat.add_sub_cancel_left, List.getElem?_cons_succ, List.head?_eq_getElem?]

/-- A visit leaves the nodes after its own where they are. -/
theorem visit_nodes_of_append {pre rest : List TimerId} (hn : s.nodes = pre ++ t :: rest)
    (ht : t ∉ pre) : ∃ pre', (s.visit t).1.nodes = pre' ++ rest := by
  rw [visit_nodes, hn]
  split
  · refine ⟨pre, ?_⟩
    rw [List.erase_append_right _ ht, List.erase_cons_head]
  · exact ⟨pre ++ [t], by simp⟩

end Timers

end Sertos
