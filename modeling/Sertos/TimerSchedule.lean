import Sertos.TimerList
import Sertos.Lib.Trace

/-!
# Timers fire on schedule

The timers of a system whose callbacks do not call the timer interface.  Each timer is a `Countdown`
of its own (`Timer.countdown`), and all that a run does to it is this: a tick of the system is a
tick of the countdown, whatever else is in the list and whatever else expires in the same walk
(`Timers.Ticked`); a restart arms it; a stop or a deletion switches it off; and a call on another
handle leaves it alone (`TimerStep.countdown_of_not_touches`).  What is known about a single
countdown then holds for each timer over every run.
-/

set_option autoImplicit false

namespace Sertos

open Intrusive Lts

namespace Timers

section Silent

variable {s : Timers} {t : TimerId} {σ : Type} {callbacks : Callbacks σ} {e : σ} {n : ℕ}
  {r : TickResult σ} {pre rest : List TimerId}

/-- The callbacks do not call the timer interface. -/
def Silent (callbacks : Callbacks σ) : Prop := ∀ t e s, (callbacks t e s).1 = []

/-- A round of the walk when the callbacks are silent. -/
theorem visitAndCall_silent (hc : Silent callbacks) (h : s.Inv)
    (ht : (s.timer t).isActive = true) :
    (visitAndCall callbacks s e t).timers = (s.visit t).1 ∧
      (visitAndCall callbacks s e t).fired = if (s.timer t).countdown.due then [t] else [] := by
  have hcb := (h.created t (h.magic t ht)).callback
  rw [visitAndCall]
  have hdue : (s.visit t).2 = (s.timer t).countdown.due := by
    rw [visit_eq, hcb, Bool.and_true, Timer.countdown, Countdown.due, ht, Bool.true_and]
  rw [hdue]
  by_cases hd : (s.timer t).countdown.due = true
  · simp only [hd, if_true, hc t e (s.visit t).1, runCalls, List.foldl_nil, and_self]
  · simp only [hd, if_false, and_self, Bool.false_eq_true]

/-- What the walk over the nodes `rest` does when the callbacks are silent. -/
structure Walked (s : Timers) (rest : List TimerId) (r : TickResult σ) : Prop where
  inv : r.timers.Inv
  timer : ∀ t, r.timers.timer t = if t ∈ rest then (s.timer t).visited else s.timer t
  fired : r.fired = rest.filter fun t => (s.timer t).countdown.due

/-- The walk sees the nodes that were in the list at its start, each once: a round changes no
timer but its own, and the nodes it has still to visit stay where they are. -/
theorem walk_silent (hc : Silent callbacks) (h : s.Inv) (hn : s.nodes = pre ++ rest)
    (hw : walk callbacks n s e rest.head? = some r) : Walked s rest r := by
  induction rest generalizing s e n r pre with
  | nil =>
    obtain rfl : r = ⟨s, e, []⟩ := by simpa [walk] using hw.symm
    exact ⟨h, fun t => by simp, rfl⟩
  | cons t rest ih =>
    have hnodup := h.nodup
    rw [hn, List.nodup_append, List.nodup_cons] at hnodup
    obtain ⟨-, ⟨htrest, -⟩, hdisj⟩ := hnodup
    have htpre : t ∉ pre := fun hm => hdisj t hm t (by simp) rfl
    have ht : (s.timer t).isActive = true := (h.mem_nodes t).1 (by simp [hn])
    cases n with
    | zero => simp [walk] at hw
    | succ n =>
      obtain ⟨htimers, hfired⟩ := visitAndCall_silent (e := e) hc h ht
      have hlinked : ¬ s.UnlinksFree t := s.not_unlinksFree t (by simp [hn])
      simp only [List.head?_cons, walk, if_neg hlinked, next_eq hn htpre,
        Option.map_eq_some_iff] at hw
      obtain ⟨w, hw, rfl⟩ := hw
      rw [htimers] at hw
      obtain ⟨pre', hn'⟩ := visit_nodes_of_append hn htpre
      obtain ⟨hinv, htimer, hfired'⟩ := ih (h.visit ht) hn' hw
      refine ⟨hinv, fun u => ?_, ?_⟩
      · rw [htimer u]
        by_cases hut : u = t
        · subst hut
          rw [if_neg htrest, if_pos (by simp), visit_timer_same]
        · rw [visit_timer_of_ne hut]
          simp [hut]
      · simp only [hfired, hfired', List.filter_cons]
        have hrest : ∀ u ∈ rest, (s.visit t).1.timer u = s.timer u :=
          fun u hu => visit_timer_of_ne fun hut => htrest (hut ▸ hu)
        rw [List.filter_congr fun u hu => by rw [hrest u hu]]
        split <;> rfl

theorem walk_returns_of_silent (hc : Silent callbacks) (h : s.Inv) (hn : s.nodes = pre ++ rest) :
    (walk callbacks rest.length s e rest.head?).isSome = true := by
  induction rest generalizing s e pre with
  | nil => rfl
  | cons t rest ih =>
    have hnodup := h.nodup
    rw [hn, List.nodup_append] at hnodup
    have htpre : t ∉ pre := fun hm => hnodup.2.2 t hm t (by simp) rfl
    have ht : (s.timer t).isActive = true := (h.mem_nodes t).1 (by simp [hn])
    have hlinked : ¬ s.UnlinksFree t := s.not_unlinksFree t (by simp [hn])
    simp only [List.length_cons, List.head?_cons, walk, if_neg hlinked, next_eq hn htpre,
      Option.isSome_map, (visitAndCall_silent hc h ht).1]
    obtain ⟨pre', hn'⟩ := visit_nodes_of_append hn htpre
    exact ih (h.visit ht) hn'

/-- **A tick of the system is one tick of every countdown.** -/
structure Ticked (s : Timers) (r : TickResult σ) : Prop where
  inv : r.timers.Inv
  countdown : ∀ t, (r.timers.timer t).countdown = (s.timer t).countdown.tick
  magic : ∀ t, (r.timers.timer t).magic = (s.timer t).magic
  fired : ∀ t, r.fired.count t = if (s.timer t).countdown.due then 1 else 0

theorem tick_silent (hc : Silent callbacks) (h : s.Inv) (ht : tick callbacks n s e = some r) :
    Ticked s r := by
  have hw : Walked s s.nodes r := by
    rw [tick] at ht
    split at ht
    · exact walk_silent hc h (List.nil_append s.nodes).symm ht
    · next hi =>
      obtain rfl : r = ⟨s, e, []⟩ := by simpa using ht.symm
      have hnil := h.nodes_eq_nil (by simpa using hi)
      exact ⟨h, fun t => by simp [hnil], by simp [hnil]⟩
  refine ⟨hw.inv, fun t => ?_, fun t => ?_, fun t => ?_⟩
  · rw [hw.timer t]
    by_cases ha : (s.timer t).isActive = true
    · rw [if_pos ((h.mem_nodes t).2 ha), visited_countdown ha]
    · rw [Bool.not_eq_true] at ha
      rw [if_neg (h.notMem_nodes ha), Countdown.tick_of_inactive ha]
  · rw [hw.timer t]
    split
    · exact visited_magic _
    · rfl
  · rw [hw.fired]
    by_cases hd : (s.timer t).countdown.due = true
    · have ha : (s.timer t).isActive = true := by
        rw [Countdown.due, Bool.and_eq_true] at hd
        exact hd.1
      rw [if_pos hd, List.count_filter (p := fun t => (s.timer t).countdown.due) hd, h.count_nodes,
        if_pos ha]
    · rw [if_neg hd, List.count_eq_zero]
      exact fun hm => hd (List.mem_filter.1 hm).2

theorem tickReturns_of_silent (hc : Silent callbacks) (h : s.Inv) (e : σ) :
    TickReturns callbacks s e := by
  refine ⟨s.nodes.length, ?_⟩
  rw [tick]
  split
  · exact walk_returns_of_silent hc h (List.nil_append s.nodes).symm
  · rfl

end Silent

end Timers

/-! ## Runs -/

/-- A step of a run: the creation of a timer, a call on a handle, or a tick, with the timers whose
callback it invoked. -/
inductive TimerEvent
  | create (config : TimerConfig) (t : TimerId)
  | op (o : TimerOp)
  | tick (fired : List TimerId)
deriving DecidableEq, Repr

namespace TimerEvent

/-- The event is a creation of `t` or a call on it. -/
def Touches (t : TimerId) : TimerEvent → Prop
  | create _ u => u = t
  | op o => o.handle = some t
  | tick _ => False

/-- The event is a call that arms `t`, or would if the call were not refused. -/
def Restarts (t : TimerId) : TimerEvent → Prop
  | op o => o.handle = some t ∧ o.restarts = true
  | _ => False

/-- The timers fired by each tick, in order. -/
def firings : List TimerEvent → List (List TimerId)
  | [] => []
  | tick fired :: es => fired :: firings es
  | _ :: es => firings es

end TimerEvent

open TimerEvent Timers

section Runs

variable {σ : Type} {callbacks : Callbacks σ}

/-- One step of the timers and of the callbacks' state.  A timer is not created over an active
one. -/
def TimerStep (callbacks : Callbacks σ) (x : Timers × σ) : TimerEvent → Timers × σ → Prop
  | .create config t, y =>
    (x.1.timer t).isActive = false ∧ y = ((x.1.createStatic t config).1, x.2)
  | .op o, y => y = ((o.run x.1).1, x.2)
  | .tick fired, y =>
    ∃ n r, Timers.tick callbacks n x.1 x.2 = some r ∧ r.fired = fired ∧ y = (r.timers, r.env)

variable {x y : Timers × σ} {ev : TimerEvent} {es : List TimerEvent} {t : TimerId}

/-- What creation does: nothing, or a fresh timer that is not active. -/
theorem Timers.createStatic_cases (s : Timers) (t : TimerId) (config : TimerConfig) :
    (s.createStatic t config).1 = s ∨
      0 < config.period ∧ config.callback.isSome = true ∧
      (s.createStatic t config).1 =
        (if s.initialized then s else s.init).modify t fun _ => initTimer config := by
  rw [createStatic]
  split
  · exact .inl rfl
  · next h =>
    rw [not_or] at h
    exact .inr ⟨Nat.pos_of_ne_zero h.1, Option.isSome_iff_ne_none.2 h.2, rfl⟩

theorem Timers.createStatic_magic {s : Timers} {config : TimerConfig}
    (h : (s.createStatic t config).2 = .ok) :
    ((s.createStatic t config).1.timer t).magic = timerMagicWord := by
  rw [createStatic] at h ⊢
  by_cases hparam : config.period = 0 ∨ config.callback = none
  · simp [hparam] at h
  · simp [if_neg hparam, initTimer]

theorem Timers.Inv.createStatic {s : Timers} (h : s.Inv) (ha : (s.timer t).isActive = false)
    (config : TimerConfig) : (s.createStatic t config).1.Inv := by
  obtain heq | ⟨hp, hcb, heq⟩ := createStatic_cases s t config
  · rw [heq]; exact h
  · have hbase : (if s.initialized then s else s.init).activeTimers.WF ∧
        (if s.initialized then s else s.init).nodes = s.nodes ∧
        (if s.initialized then s else s.init).timer = s.timer ∧
        (if s.initialized then s else s.init).initialized = true := by
      by_cases hi : s.initialized = true
      · rw [if_pos hi]; exact ⟨h.wf, rfl, rfl, hi⟩
      · rw [if_neg hi]
        exact ⟨LinkedList.init_wf, (h.nodes_eq_nil (by simpa using hi)).symm, rfl, rfl⟩
    obtain ⟨hwf, hnodes, htimer, hi⟩ := hbase
    rw [heq]
    refine h.of_change (t := t) (fun u hu => ?_) (fun u _ => ?_) hwf (fun _ _ => hi) ?_ (fun _ => ?_)
      (fun hact => ?_)
    · rw [modify_timer_of_ne _ _ _ hu, htimer]
    · rw [modify_nodes, hnodes]
    · rw [modify_nodes, hnodes, modify_timer_same]
      simp [initTimer, h.notMem_nodes ha]
    · rw [modify_timer_same]
      exact ⟨⟨rfl, hp, hcb⟩, hi⟩
    · rw [modify_timer_same] at hact
      simp [initTimer] at hact

theorem TimerStep.inv (hc : Silent callbacks) (h : x.1.Inv) (hs : TimerStep callbacks x ev y) :
    y.1.Inv := by
  cases ev with
  | create config t =>
    obtain ⟨ha, rfl⟩ := hs
    exact h.createStatic ha config
  | op o =>
    obtain rfl := hs
    exact (o.run_effect h.linked).inv h
  | tick fired =>
    obtain ⟨n, r, ht, -, rfl⟩ := hs
    exact (tick_silent hc h ht).inv

/-- The invariant holds after every run. -/
theorem timers_inv (hc : Silent callbacks) (hx : x.1.Inv) (h : Trace (TimerStep callbacks) x es y) :
    y.1.Inv :=
  h.invariant (I := fun x => x.1.Inv) (fun _ _ _ hI hs => hs.inv hc hI) hx

/-- A step that does not touch `t` leaves its countdown alone, or is one tick of it. -/
theorem TimerStep.countdown_of_not_touches (hc : Silent callbacks) (h : x.1.Inv)
    (hs : TimerStep callbacks x ev y) (ht : ¬ ev.Touches t) :
    (y.1.timer t).countdown = (x.1.timer t).countdown.after (firings [ev]).length ∧
      ∀ fired ∈ firings [ev], fired.count t = if (x.1.timer t).countdown.due then 1 else 0 := by
  cases ev with
  | create config u =>
    obtain ⟨-, rfl⟩ := hs
    refine ⟨?_, by simp [firings]⟩
    obtain heq | ⟨-, -, heq⟩ := createStatic_cases x.1 u config
    · simp [heq, firings]
    · rw [heq, modify_timer_of_ne _ _ _ fun htu => ht htu.symm]
      split <;> rfl
  | op o =>
    obtain rfl := hs
    refine ⟨?_, by simp [firings]⟩
    rw [(o.run_effect h.linked).timer_of_ne ht]
    rfl
  | tick fired =>
    obtain ⟨n, r, htick, rfl, rfl⟩ := hs
    have hT := tick_silent hc h htick
    exact ⟨hT.countdown t, by simpa [firings] using hT.fired t⟩

theorem TimerEvent.firings_cons (ev : TimerEvent) (es : List TimerEvent) :
    firings (ev :: es) = firings [ev] ++ firings es := by
  cases ev <;> rfl

theorem TimerEvent.firings_length_le (ev : TimerEvent) : (firings [ev]).length ≤ 1 := by
  cases ev <;> simp [firings]

/-- A run that does not touch `t` is a number of ticks for it, and `t` fires on those of them on
which its countdown does. -/
theorem countdown_of_not_touched (hc : Silent callbacks) (hx : x.1.Inv)
    (h : Trace (TimerStep callbacks) x es y) (ht : ∀ ev ∈ es, ¬ ev.Touches t) :
    (y.1.timer t).countdown = (x.1.timer t).countdown.after (firings es).length ∧
      ∀ j fired, (firings es)[j]? = some fired →
        fired.count t = if ((x.1.timer t).countdown.after j).due then 1 else 0 := by
  induction h with
  | nil x => exact ⟨rfl, by simp [firings]⟩
  | @cons x z y ev es hs h ih =>
    obtain ⟨hcd, hfire⟩ := hs.countdown_of_not_touches hc hx (ht ev (by simp))
    obtain ⟨hcd', hfire'⟩ := ih (hs.inv hc hx) fun ev' hev => ht ev' (by simp [hev])
    simp only [hcd, Countdown.after_after] at hcd' hfire'
    rw [firings_cons]
    refine ⟨by rw [hcd', List.length_append], fun j fired hj => ?_⟩
    -- the step is no tick, the tick asked about, or an earlier one
    rcases Nat.lt_or_ge j (firings [ev]).length with hlt | hge
    · have hj0 : j = 0 := by have := firings_length_le ev; omega
      rw [List.getElem?_append_left hlt] at hj
      rw [hj0, Countdown.after_zero]
      exact hfire fired (List.mem_of_getElem? hj)
    · rw [List.getElem?_append_right hge] at hj
      rw [hfire' _ fired hj, Nat.add_sub_cancel' hge]

/-- A step from a state in which `t` is off does not fire it. -/
theorem TimerStep.notMem_of_inactive (hc : Silent callbacks) (h : x.1.Inv)
    (hs : TimerStep callbacks x ev y) (ha : (x.1.timer t).isActive = false) :
    ∀ fired ∈ firings [ev], t ∉ fired := by
  cases ev with
  | create _ _ | op _ => simp [firings]
  | tick fired =>
    obtain ⟨n, r, htick, rfl, rfl⟩ := hs
    have hcount := (tick_silent hc h htick).fired t
    rw [if_neg (by simp [Countdown.due, Timer.countdown, ha]), List.count_eq_zero] at hcount
    simpa [firings] using hcount

/-- If a run keeps up a condition under which `t` is off, it never fires `t`. -/
theorem notMem_firings (hc : Silent callbacks) {J : Timers → Prop} {D : TimerEvent → Prop}
    (hJ : ∀ s : Timers, s.Inv → J s → (s.timer t).isActive = false)
    (hstep : ∀ (x : Timers × σ) ev y, x.1.Inv → J x.1 → D ev → TimerStep callbacks x ev y → J y.1)
    (hx : x.1.Inv) (hJx : J x.1) (h : Trace (TimerStep callbacks) x es y)
    (hes : ∀ ev ∈ es, D ev) : ∀ fired ∈ firings es, t ∉ fired := by
  induction h with
  | nil x => simp [firings]
  | @cons x z y ev es hs h ih =>
    rw [firings_cons]
    intro fired hf
    rcases List.mem_append.1 hf with hf | hf
    · exact hs.notMem_of_inactive hc hx (hJ x.1 hx hJx) fired hf
    · exact ih (hs.inv hc hx) (hstep x ev z hx hJx (hes ev (by simp)) hs)
        (fun ev' hev => hes ev' (by simp [hev])) fired hf

/-- A timer that is off stays off until it is restarted. -/
theorem TimerStep.inactive (hc : Silent callbacks) (h : x.1.Inv) (hs : TimerStep callbacks x ev y)
    (ha : (x.1.timer t).isActive = false) (ht : ¬ ev.Restarts t) :
    (y.1.timer t).isActive = false := by
  cases ev with
  | create config u =>
    obtain ⟨-, rfl⟩ := hs
    obtain heq | ⟨-, -, heq⟩ := createStatic_cases x.1 u config
    · simp only [heq, ha]
    · by_cases hut : t = u
      · subst hut
        simp [heq, initTimer]
      · simp only [heq, modify_timer_of_ne _ _ _ hut]
        split <;> exact ha
  | op o =>
    obtain rfl := hs
    by_cases hh : o.handle = some t
    · have hr : o.restarts = false := by
        by_contra hr
        exact ht ⟨hh, by simpa using hr⟩
      have heff := o.run_effect h.linked
      cases hrun : o.run x.1 with
      | mk s' st =>
        rw [hrun] at heff
        cases heff with
        | refused => exact ha
        | restarted u _ _ hr' _ => simp [hr] at hr'
        | halted u hh' _ _ next magic _ =>
          obtain rfl : u = t := Option.some_inj.1 (hh'.symm.trans hh)
          simp
    · simp only [(o.run_effect h.linked).timer_of_ne hh, ha]
  | tick fired =>
    obtain ⟨n, r, htick, rfl, rfl⟩ := hs
    have hcd := (tick_silent hc h htick).countdown t
    rw [Countdown.tick_of_inactive ha] at hcd
    exact (congrArg Countdown.active hcd).trans ha

/-- A timer that has been deleted stays so until it is created again. -/
theorem TimerStep.magic_ne (hc : Silent callbacks) (h : x.1.Inv) (hs : TimerStep callbacks x ev y)
    (hm : (x.1.timer t).magic ≠ timerMagicWord) (ht : ∀ config, ev ≠ .create config t) :
    (y.1.timer t).magic ≠ timerMagicWord := by
  cases ev with
  | create config u =>
    obtain ⟨-, rfl⟩ := hs
    obtain heq | ⟨-, -, heq⟩ := createStatic_cases x.1 u config
    · simpa only [heq] using hm
    · rw [heq, modify_timer_of_ne _ _ _ fun htu => ht config (by rw [htu])]
      split <;> exact hm
  | op o =>
    obtain rfl := hs
    by_cases hh : o.handle = some t
    · have hcheck : x.1.checkHandle o.handle = none := by
        rw [Option.eq_none_iff_forall_ne_some]
        intro u hu
        obtain ⟨hu, hmu⟩ := checkHandle_eq_some.1 hu
        obtain rfl : u = t := Option.some_inj.1 (hu.symm.trans hh)
        exact hm hmu
      simpa only [o.run_of_not_valid hcheck] using hm
    · simpa only [(o.run_effect h.linked).timer_of_ne hh] using hm
  | tick fired =>
    obtain ⟨n, r, htick, rfl, rfl⟩ := hs
    rwa [(tick_silent hc h htick).magic t]

/-- A timer that has been created stays so until it is deleted. -/
theorem TimerStep.magic_eq (hc : Silent callbacks) (h : x.1.Inv) (hs : TimerStep callbacks x ev y)
    (hm : (x.1.timer t).magic = timerMagicWord) (ht : ev ≠ .op (.delete (some t))) :
    (y.1.timer t).magic = timerMagicWord := by
  cases ev with
  | create config u =>
    obtain ⟨-, rfl⟩ := hs
    obtain heq | ⟨-, -, heq⟩ := createStatic_cases x.1 u config
    · simpa only [heq] using hm
    · by_cases hut : t = u
      · subst hut
        simp [heq, initTimer]
      · rw [heq, modify_timer_of_ne _ _ _ hut]
        split <;> exact hm
  | op o =>
    obtain rfl := hs
    by_cases hh : o.handle = some t
    · have heff := o.run_effect h.linked
      cases hrun : o.run x.1 with
      | mk s' st =>
        rw [hrun] at heff
        cases heff with
        | refused => exact hm
        | restarted u hu _ _ _ =>
          obtain rfl : u = t := Option.some_inj.1 (hu.symm.trans hh)
          simpa only [restart_timer_same] using hm
        | halted u hu _ _ next magic hmagic =>
          obtain rfl : u = t := Option.some_inj.1 (hu.symm.trans hh)
          rcases hmagic with ⟨rfl, -, -⟩ | ⟨-, rfl⟩
          · simp
          · exact absurd rfl ht
    · simpa only [(o.run_effect h.linked).timer_of_ne hh] using hm
  | tick fired =>
    obtain ⟨n, r, htick, rfl, rfl⟩ := hs
    rwa [(tick_silent hc h htick).magic t]

/-- **A timer that has been created accepts every call** until it is deleted, except a change of its
period to zero. -/
theorem accepted_of_created (hc : Silent callbacks) (hx : x.1.Inv)
    (hm : (x.1.timer t).magic = timerMagicWord) (h : Trace (TimerStep callbacks) x es y)
    (ht : .op (.delete (some t)) ∉ es) {o : TimerOp} (hh : o.handle = some t)
    (hp : o ≠ .changePeriod (some t) 0) : (o.run y.1).2 = .ok := by
  have hmy : (y.1.timer t).magic = timerMagicWord := by
    induction h with
    | nil x => exact hm
    | @cons x z y ev es hs h ih =>
      exact ih (hs.inv hc hx) (hs.magic_eq hc hx hm fun hev => ht (by simp [hev]))
        fun hes => ht (by simp [hes])
  exact o.run_ok hh hmy hp

/-! ## The schedule -/

/-- The events `es`, which lead to the timers `s`, fire `t` on the schedule of a timer that was
armed with period `p` just before them. -/
structure FiresOnSchedule (t : TimerId) (p : ℕ) (periodic : Bool) (es : List TimerEvent)
    (s : Timers) : Prop where
  fired : ∀ j fired, (firings es)[j]? = some fired →
    fired.count t = if (if periodic then p ∣ j + 1 else j + 1 = p) then 1 else 0
  active : (s.timer t).isActive = true ↔ periodic = true ∨ (firings es).length < p

/-- An armed countdown that is left alone is on schedule. -/
theorem firesOnSchedule_of_armed (hc : Silent callbacks) (hx : x.1.Inv)
    (harmed : (x.1.timer t).countdown.Armed) (h : Trace (TimerStep callbacks) x es y)
    (ht : ∀ ev ∈ es, ¬ ev.Touches t) :
    FiresOnSchedule t (x.1.timer t).periodTicks (x.1.timer t).isPeriodic es y.1 := by
  obtain ⟨hcd, hfire⟩ := countdown_of_not_touched hc hx h ht
  have hdue : ∀ j, ((x.1.timer t).countdown.after j).due = true ↔
      (x.1.timer t).countdown.Fires (j + 1) := fun j => by simp [Countdown.Fires]
  have hact : (y.1.timer t).isActive =
      ((x.1.timer t).countdown.after (firings es).length).active := congrArg Countdown.active hcd
  by_cases hp : (x.1.timer t).isPeriodic = true
  · refine ⟨fun j fired hj => ?_, ?_⟩
    · simp only [hfire j fired hj, hdue, Countdown.fires_periodic harmed hp, hp, if_true,
        Nat.succ_pos, true_and]
      rfl
    · rw [hact, Countdown.after_periodic harmed hp]
      simp [harmed.active, hp]
  · rw [Bool.not_eq_true] at hp
    refine ⟨fun j fired hj => ?_, ?_⟩
    · simp only [hfire j fired hj, hdue, Countdown.fires_oneShot harmed hp, hp,
        Bool.false_eq_true, if_false]
      rfl
    · rw [hact, Countdown.active_oneShot harmed hp]
      simp only [hp, Bool.false_eq_true, false_or]
      rfl

/-- **Timers fire exactly on schedule.**  In every run from memory without timers, with callbacks
that do not call the timer interface, and for every timer `t`: it is linked once if it is active and
not at all otherwise; the next tick returns; a timer that was last armed with period `p` and has not
been touched since fires on the `j`-th tick after that exactly if `p` divides `j`, or, if it is a
one-shot, if `j` is `p`, and is then inactive; a stopped timer does not fire until it is restarted,
and a deleted one not before it is created again; and from its creation to its deletion every call
on it returns `OK`, except one that sets a period of zero. -/
theorem timers_fire_on_schedule (hc : Silent callbacks) {s₀ s : Timers} {e₀ e : σ}
    (h₀ : s₀.Blank) (h : Trace (TimerStep callbacks) (s₀, e₀) es (s, e)) (t : TimerId) :
    s.nodes.count t = (if (s.timer t).isActive then 1 else 0) ∧
    TickReturns callbacks s e ∧
    (∀ bs o cs x, es = bs ++ .op o :: cs → Trace (TimerStep callbacks) (s₀, e₀) bs x →
      Trace (TimerStep callbacks) ((o.run x.1).1, x.2) cs (s, e) →
      o.handle = some t → o.restarts = true → (o.run x.1).2 = .ok →
      (∀ ev ∈ cs, ¬ ev.Touches t) →
      FiresOnSchedule t (o.armedPeriod (x.1.timer t)) (x.1.timer t).isPeriodic cs s) ∧
    (∀ bs o cs x, es = bs ++ .op o :: cs → Trace (TimerStep callbacks) (s₀, e₀) bs x →
      Trace (TimerStep callbacks) ((o.run x.1).1, x.2) cs (s, e) → (o.run x.1).2 = .ok →
      o = .stop (some t) ∧ (∀ ev ∈ cs, ¬ ev.Restarts t) ∨
        o = .delete (some t) ∧ (∀ config, .create config t ∉ cs) →
      ∀ fired ∈ firings cs, t ∉ fired) ∧
    (∀ bs config cs x y, es = bs ++ .create config t :: cs →
      Trace (TimerStep callbacks) (s₀, e₀) bs x → TimerStep callbacks x (.create config t) y →
      Trace (TimerStep callbacks) y cs (s, e) → (x.1.createStatic t config).2 = .ok →
      .op (.delete (some t)) ∉ cs → ∀ o : TimerOp, o.handle = some t →
      o ≠ .changePeriod (some t) 0 → (o.run s).2 = .ok) := by
  have hinv : s.Inv := timers_inv hc h₀.inv h
  refine ⟨hinv.count_nodes t, tickReturns_of_silent hc hinv e, ?_, ?_, ?_⟩
  · intro bs o cs x _ hbs hcs hh hr hok ht
    have hx : x.1.Inv := timers_inv hc h₀.inv hbs
    have heff := o.run_effect hx.linked
    obtain ⟨hp, hrun⟩ := heff.restarted_of_ok hh hr hok
    have hb : (o.run x.1).1.timer t = { x.1.timer t with
        periodTicks := o.armedPeriod (x.1.timer t)
        remainingTicks := o.armedPeriod (x.1.timer t), isActive := true } := by
      rw [hrun, restart_timer_same]
    have harmed : ((o.run x.1).1.timer t).countdown.Armed := by rw [hb]; exact ⟨rfl, rfl, hp⟩
    have hsched := firesOnSchedule_of_armed hc (heff.inv hx) harmed hcs ht
    rw [hb] at hsched
    exact hsched
  · intro bs o cs x _ hbs hcs hok ho
    have hx : x.1.Inv := timers_inv hc h₀.inv hbs
    have heff := o.run_effect hx.linked
    rcases ho with ⟨rfl, ho⟩ | ⟨rfl, ho⟩
    · refine notMem_firings hc (J := fun s => (s.timer t).isActive = false) (fun _ _ hJ => hJ)
        (fun _ _ _ hI hJ hD hs => hs.inactive hc hI hJ hD) (heff.inv hx) ?_ hcs ho
      exact (heff.halted_of_ok rfl rfl hok).1
    · refine notMem_firings hc (J := fun s => (s.timer t).magic ≠ timerMagicWord)
        (D := fun ev => ∀ config, ev ≠ .create config t) (fun s hI hJ => ?_)
        (fun _ _ _ hI hJ hD hs => hs.magic_ne hc hI hJ hD) (heff.inv hx) ?_ hcs
        fun ev hev config hev' => ho config (hev' ▸ hev)
      · by_contra hact
        exact hJ (hI.magic t (by simpa using hact))
      · exact (heff.halted_of_ok rfl rfl hok).2 rfl
  · intro bs config cs x y _ hbs hcreate hcs hok ht o hh hp
    have hy : y.1.Inv := hcreate.inv hc (timers_inv hc h₀.inv hbs)
    obtain ⟨-, rfl⟩ := hcreate
    exact accepted_of_created hc hy (createStatic_magic hok) hcs ht hh hp

end Runs

/-! A run: a periodic timer of period two and a one-shot of period one, started together. -/

namespace Timers

/-- Memory as the loader leaves it. -/
def bss : Timers where
  activeTimers := LinkedList.init
  initialized := false
  timer := fun _ => ⟨"", 0, 0, false, false, none, 0, none, false, 0⟩

theorem bss_blank : bss.Blank := ⟨rfl, fun _ => rfl, fun _ => by simp [bss, timerMagicWord]⟩

/-- Callbacks that do nothing. -/
def idle : Callbacks Unit := fun _ _ _ => ([], ())

theorem idle_silent : Silent idle := fun _ _ _ => rfl

/-- The timers `1` and `2` are created and `2` is started. -/
def twoTimers : Timers :=
  let s := (bss.createStatic 1 ⟨none, 2, true, some 0, 0⟩).1
  let s := (s.createStatic 2 ⟨none, 1, false, some 0, 0⟩).1
  (s.start (some 2)).1

/-- The timers after two ticks have followed the start of timer `1`. -/
def twoTicks : Timers :=
  (((tick idle 2 (twoTimers.start (some 1)).1 ()).bind fun r => tick idle 2 r.timers r.env).map
    fun r => r.timers).getD bss

end Timers

theorem twoTimers_fire_on_schedule :
    FiresOnSchedule 1 2 true [.tick [2], .tick [1]] twoTicks := by
  have hpre : Trace (TimerStep idle) (bss, ())
      [.create ⟨none, 2, true, some 0, 0⟩ 1, .create ⟨none, 1, false, some 0, 0⟩ 2,
        .op (.start (some 2))] (twoTimers, ()) :=
    .cons ⟨rfl, rfl⟩ (.cons ⟨rfl, rfl⟩ (.single rfl))
  have hpost : Trace (TimerStep idle) ((twoTimers.start (some 1)).1, ())
      [.tick [2], .tick [1]] (twoTicks, ()) :=
    .cons ⟨2, _, rfl, rfl, rfl⟩ (.single ⟨2, _, rfl, rfl, rfl⟩)
  have hstart : TimerStep idle (twoTimers, ()) (.op (.start (some 1)))
      ((twoTimers.start (some 1)).1, ()) := rfl
  have hrun := hpre.append (.cons hstart hpost)
  exact (timers_fire_on_schedule idle_silent bss_blank hrun 1).2.2.1 _ (.start (some 1)) _ _ rfl
    hpre hpost rfl rfl rfl (by simp [Touches])

end Sertos
