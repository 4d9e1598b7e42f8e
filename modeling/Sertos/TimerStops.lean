import Sertos.TimerRounds

/-!
# Ticks whose callbacks stop timers

The walk of `sertos_timer_tick` reads the successor of a node before the callback of the node runs.
A callback may stop or delete any timer, its own included, and the walk takes no notice, unless it
is the one that has just been read: that timer is then visited although it is not in the list any
more, and from there the walk does not find back.  So stops are effective exactly if no callback
stops or deletes the timer that is next in the list (`stops_effective_iff`).
-/

set_option autoImplicit false

namespace Sertos

namespace Timers

variable {σ : Type} {callbacks : Callbacks σ} {s s' : Timers} {e : σ} {t u v : TimerId} {n : ℕ}
  {r : TickResult σ} {calls : List TimerOp} {curr : Option TimerId} {log : List (Visit σ)}
  {front rest : List TimerId}

/-- The callbacks stop and delete timers, and do nothing else to timers. -/
def Halting (callbacks : Callbacks σ) : Prop :=
  ∀ t e s, ∀ o ∈ (callbacks t e s).1, o.restarts = false

/-! ## What the calls leave alone -/

/-- The fields of a timer that neither a stop nor a deletion writes. -/
def kept (b : Timer) : ℕ × Bool × ℕ × Option ℕ :=
  (b.periodTicks, b.isPeriodic, b.remainingTicks, b.callback)

theorem kept_halt (u : TimerId) (next : Option TimerId) (magic : ℕ) :
    kept ((s.halt t next magic).timer u) = kept (s.timer u) := by
  by_cases hut : u = t
  · rw [hut, halt_timer_same]; rfl
  · rw [halt_timer_of_ne s t next magic hut]

theorem kept_run {o : TimerOp} (ho : o.restarts = false) (u : TimerId) :
    kept ((o.run s).1.timer u) = kept (s.timer u) := by
  cases hcheck : s.checkHandle o.handle with
  | none => rw [TimerOp.run_of_not_valid hcheck]
  | some t =>
    obtain ⟨hh, hm⟩ := checkHandle_eq_some.1 hcheck
    cases o with
    | start | reset | changePeriod => simp [TimerOp.restarts] at ho
    | stop handle =>
      obtain rfl : handle = some t := hh
      rw [TimerOp.run, stop_eq hm]
      exact kept_halt u _ _
    | delete handle =>
      obtain rfl : handle = some t := hh
      rw [TimerOp.run, delete_eq hm]
      exact kept_halt u _ _

theorem kept_runCalls (hcalls : ∀ o ∈ calls, o.restarts = false) (u : TimerId) :
    kept ((s.runCalls calls).timer u) = kept (s.timer u) := by
  induction calls generalizing s with
  | nil => rfl
  | cons o os ih =>
    exact (ih fun o' ho' => hcalls o' (List.mem_cons_of_mem o ho')).trans
      (kept_run (hcalls o List.mem_cons_self) u)

theorem kept_visitAndCall (hc : Halting callbacks) (u : TimerId) :
    kept ((visitAndCall callbacks s e t).timers.timer u) = kept ((s.visit t).1.timer u) := by
  obtain ⟨calls, hcalls, htimers, -⟩ := visitAndCall_timers callbacks s e t
  rw [htimers]
  refine kept_runCalls (fun o ho => ?_) u
  rcases hcalls with rfl | rfl
  · exact absurd ho List.not_mem_nil
  · exact hc t e _ o ho

/-- A timer that does not fire is never given more ticks, linked or not. -/
theorem remaining_le (hc : Halting callbacks) (hw : Walks callbacks s e curr log s')
    (hcb : (s.timer u).callback.isSome = true)
    (hsilent : ∀ x ∈ log, x.node = u → x.fired = false) :
    (s'.timer u).remainingTicks ≤ (s.timer u).remainingTicks := by
  induction hw with
  | done s e => exact le_rfl
  | @visit s s' e t log hw ih =>
    have hkept := kept_visitAndCall (s := s) (e := e) (t := t) hc u
    simp only [kept, Prod.mk.injEq] at hkept
    obtain ⟨-, -, hrem, hcb'⟩ := hkept
    have hvisit : ((s.visit t).1.timer u).callback = (s.timer u).callback ∧
        ((s.visit t).1.timer u).remainingTicks ≤ (s.timer u).remainingTicks := by
      by_cases hut : u = t
      · subst hut
        have hfired := hsilent ⟨s, e, u⟩ List.mem_cons_self rfl
        rw [Visit.fired, visit_eq, hcb, Bool.and_true, decide_eq_false_iff_not] at hfired
        rw [visit_timer_same, Timer.visited, if_neg hfired]
        exact ⟨rfl, Nat.sub_le _ _⟩
      · rw [visit_timer_of_ne hut]
        exact ⟨rfl, le_rfl⟩
    refine (ih (by rw [hcb', hvisit.1]; exact hcb) fun x hx => hsilent x (by simp [hx])).trans ?_
    rw [hrem]
    exact hvisit.2

/-! ## What the calls do -/

/-- What calls that stop or delete the timers `touched` do. -/
structure HaltedBy (s : Timers) (touched : List TimerId) (s' : Timers) : Prop where
  inv : s'.Inv
  nodes : s'.nodes = s.nodes.filter fun t => t ∉ touched
  timer : ∀ t, t ∉ touched → s'.timer t = s.timer t
  /-- A timer that is off stays off, and its links keep their values. -/
  off : ∀ t, (s.timer t).isActive = false →
    (s'.timer t).isActive = false ∧ (s'.timer t).freeNext = (s.timer t).freeNext

theorem HaltedBy.refl (h : s.Inv) : HaltedBy s [] s :=
  ⟨h, by simp, fun _ _ => rfl, fun _ ht => ⟨ht, rfl⟩⟩

/-- **One call.** -/
theorem haltedBy_run (h : s.Inv) {o : TimerOp} (ho : o.restarts = false) :
    HaltedBy s (if (o.run s).2 = .ok then o.handle.toList else []) (o.run s).1 := by
  have heff := o.run_effect h.linked
  have hinv := heff.inv h
  cases hrun : o.run s with
  | mk s' status =>
    rw [hrun] at heff hinv
    cases heff with
    | refused => exact .refl h
    | restarted t _ _ hr _ => simp [ho] at hr
    | halted t hh hm hr next magic hmagic =>
      rw [if_pos rfl, hh]
      refine ⟨hinv, ?_, fun u hu => halt_timer_of_ne s t next magic (by simpa using hu),
        fun u hu => ?_⟩
      · rw [h.linked.halt_nodes, h.nodup.erase_eq_filter]
        simp [bne, beq_eq_decide]
      · by_cases hut : u = t
        · subst hut
          rw [halt_timer_same]
          refine ⟨rfl, ?_⟩
          -- neither of the two functions writes the links of a timer that is off
          rcases hmagic with ⟨-, -, hnext⟩ | ⟨-, rfl⟩
          · rw [hnext, if_neg (by simp [hu])]
          · rw [TimerOp.run, delete_eq hm] at hrun
            have htimer := congrArg (fun r => (r.1.timer u).freeNext) hrun
            simpa [hu] using htimer.symm
        · rw [halt_timer_of_ne s t next magic hut]
          exact ⟨hu, rfl⟩

/-- **All calls of a callback.** -/
theorem haltedBy_runCalls (h : s.Inv) (hcalls : ∀ o ∈ calls, o.restarts = false) :
    HaltedBy s (touchedBy s calls) (s.runCalls calls) := by
  induction calls generalizing s with
  | nil => exact .refl h
  | cons o os ih =>
    have h1 := haltedBy_run h (hcalls o List.mem_cons_self)
    have h2 := ih h1.inv fun o' ho' => hcalls o' (List.mem_cons_of_mem o ho')
    rw [touchedBy]
    generalize (if (o.run s).2 = .ok then o.handle.toList else []) = first at h1 ⊢
    refine ⟨h2.inv, ?_, fun t ht => ?_, fun t ht => ?_⟩
    · show (((o.run s).1).runCalls os).nodes = _
      rw [h2.nodes, h1.nodes, List.filter_filter]
      refine List.filter_congr fun t _ => ?_
      simp [Bool.and_comm]
    · rw [List.mem_append, not_or] at ht
      exact (h2.timer t ht.2).trans (h1.timer t ht.1)
    · obtain ⟨hoff, hfree⟩ := h1.off t ht
      obtain ⟨hoff', hfree'⟩ := h2.off t hoff
      exact ⟨hoff', hfree'.trans hfree⟩

theorem haltedBy_visitAndCall (hc : Halting callbacks) (h : (s.visit t).1.Inv) :
    HaltedBy (s.visit t).1 ((Visit.mk s e t).touched callbacks)
      (visitAndCall callbacks s e t).timers := by
  obtain ⟨calls, hcalls, htimers, htouched⟩ := visitAndCall_timers callbacks s e t
  rw [htimers, htouched]
  refine haltedBy_runCalls h fun o ho => ?_
  rcases hcalls with rfl | rfl
  · exact absurd ho List.not_mem_nil
  · exact hc t e _ o ho

/-- A timer on which a call was made is off. -/
theorem HaltedBy.touched_off {touched : List TimerId} (h : HaltedBy s touched s')
    (ht : t ∈ touched) : (s'.timer t).isActive = false := by
  have hnot : t ∉ s'.nodes := by simp [h.nodes, ht]
  rw [h.inv.mem_nodes] at hnot
  simpa using hnot

/-! ## Callbacks that spare the next node -/

/-- The callback does not stop or delete the timer that the walk goes on with. -/
def SparesNext (callbacks : Callbacks σ) (x : Visit σ) : Prop :=
  ∀ u ∈ x.next, u ∉ x.touched callbacks

/-- A round in which the callback spares the next node: the walk goes on with the nodes behind `t`
that the callback has left in the list. -/
theorem spared_round (hc : Halting callbacks) (h : s.Inv) (hn : s.nodes = front ++ t :: rest)
    (hspares : SparesNext callbacks ⟨s, e, t⟩) :
    (visitAndCall callbacks s e t).timers.Inv ∧
      (∃ front', (visitAndCall callbacks s e t).timers.nodes =
        front' ++ rest.filter fun u => u ∉ (Visit.mk s e t).touched callbacks) ∧
      s.next t = (rest.filter fun u => u ∉ (Visit.mk s e t).touched callbacks).head? := by
  have hv := visitAt h hn
  have hh := haltedBy_visitAndCall (e := e) hc hv.inv
  obtain ⟨front', hn'⟩ := hv.nodes
  have hn₁ := hh.nodes
  rw [hn', List.filter_append] at hn₁
  refine ⟨hh.inv, ⟨_, hn₁⟩, ?_⟩
  rw [SparesNext, Visit.next, hv.next] at hspares
  rw [hv.next]
  cases rest with
  | nil => rfl
  | cons u rest =>
    rw [List.filter_cons_of_pos (by simpa using hspares u rfl)]
    rfl

/-- What the walk over the nodes `rest` does if every callback spares the next node. -/
structure Spared (callbacks : Callbacks σ) (s : Timers) (rest : List TimerId) (log : List (Visit σ))
    (s' : Timers) : Prop where
  inv : s'.Inv
  nodes : ∀ x ∈ log, x.node ∈ rest ∧ x.fired = decide ((s.timer x.node).remainingTicks ≤ 1)
  counted : ∀ t ∈ rest, (∀ x ∈ log, t ∉ x.touched callbacks) →
    (log.map Visit.node).count t = 1 ∧ s'.timer t = (s.timer t).visited
  others : ∀ t, t ∉ rest → (∀ x ∈ log, t ∉ x.touched callbacks) → s'.timer t = s.timer t
  off : ∀ t, (s.timer t).isActive = false → (s'.timer t).isActive = false ∧
    (s'.timer t).freeNext = (s.timer t).freeNext ∧
    (s'.timer t).remainingTicks = (s.timer t).remainingTicks
  stopped : ∀ before x after, log = before ++ x :: after → ∀ t ∈ x.touched callbacks,
    (∀ y ∈ after, y.node ≠ t) ∧ (s'.timer t).isActive = false ∧
      (s'.timer t).freeNext = ((x.result callbacks).timers.timer t).freeNext ∧
      (s'.timer t).remainingTicks = ((x.result callbacks).timers.timer t).remainingTicks

theorem spared (hc : Halting callbacks) (hw : Walks callbacks s e curr log s') (h : s.Inv)
    (hn : s.nodes = front ++ rest) (hcurr : curr = rest.head?)
    (hspares : ∀ x ∈ log, SparesNext callbacks x) : Spared callbacks s rest log s' := by
  induction hw generalizing front rest with
  | done s e =>
    obtain rfl : rest = [] := List.head?_eq_none_iff.1 hcurr.symm
    exact ⟨h, by simp, by simp, fun _ _ _ => rfl, fun t ht => ⟨ht, rfl, rfl⟩, by simp⟩
  | @visit s s' e t log hw ih =>
    obtain ⟨rest, rfl⟩ := List.head?_eq_some_iff.1 hcurr.symm
    have hnodup := h.nodup
    rw [hn, List.nodup_append, List.nodup_cons] at hnodup
    have ht : t ∉ rest := hnodup.2.1.1
    have hv := visitAt h hn
    have hh := haltedBy_visitAndCall (e := e) hc hv.inv
    have hkept := fun u => kept_visitAndCall (s := s) (e := e) (t := t) hc u
    obtain ⟨-, ⟨front', hn₁⟩, hnext⟩ := spared_round hc h hn (hspares ⟨s, e, t⟩ List.mem_cons_self)
    generalize htouched : (Visit.mk s e t).touched callbacks = touched at hh hn₁ hnext
    have hrest := ih hh.inv hn₁ hnext fun x hx => hspares x (List.mem_cons_of_mem _ hx)
    have hne : ∀ u ∈ rest, u ≠ t := fun u hu e => ht (e ▸ hu)
    have hsame : ∀ u ∈ rest, u ∉ touched →
        (visitAndCall callbacks s e t).timers.timer u = s.timer u := fun u hu hu' =>
      (hh.timer u hu').trans (hv.others u (hne u hu))
    have hoff :
        ∀ x ∈ log, ((visitAndCall callbacks s e t).timers.timer x.node).isActive = true := by
      intro x hx
      rw [← hh.inv.mem_nodes, hn₁]
      exact List.mem_append_right _ (hrest.nodes x hx).1
    refine ⟨hrest.inv, fun x hx => ?_, fun u hu hnot => ?_, fun u hu hnot => ?_, fun u hu => ?_, ?_⟩
    · rcases List.mem_cons.1 hx with rfl | hx
      · exact ⟨List.mem_cons_self, hv.fired⟩
      · obtain ⟨hm, hfired⟩ := hrest.nodes x hx
        obtain ⟨hm, hx'⟩ := List.mem_filter.1 hm
        refine ⟨List.mem_cons_of_mem _ hm, ?_⟩
        rw [hfired, hsame _ hm (by simpa using hx')]
    · have hu' : u ∉ touched := htouched ▸ hnot ⟨s, e, t⟩ List.mem_cons_self
      have hlog : ∀ x ∈ log, u ∉ x.touched callbacks := fun x hx =>
        hnot x (List.mem_cons_of_mem _ hx)
      rw [List.map_cons, List.count_cons]
      by_cases hut : u = t
      · subst hut
        have hnot' : u ∉ rest.filter fun v => v ∉ touched := fun hm => ht (List.mem_filter.1 hm).1
        have hcount : (log.map Visit.node).count u = 0 := by
          rw [List.count_eq_zero]
          intro hm
          obtain ⟨x, hx, hxu⟩ := List.mem_map.1 hm
          exact hnot' (hxu ▸ (hrest.nodes x hx).1)
        rw [hcount, hrest.others u hnot' hlog, hh.timer u hu', hv.timer]
        simp
      · have hm := (List.mem_cons.1 hu).resolve_left hut
        obtain ⟨hcount, htimer⟩ := hrest.counted u (List.mem_filter.2 ⟨hm, by simpa using hu'⟩) hlog
        rw [hcount, htimer, hsame u hm hu']
        simp [Ne.symm hut]
    · have hu' : u ∉ touched := htouched ▸ hnot ⟨s, e, t⟩ List.mem_cons_self
      rw [List.mem_cons, not_or] at hu
      rw [hrest.others u (fun hm => hu.2 (List.mem_filter.1 hm).1)
        fun x hx => hnot x (List.mem_cons_of_mem _ hx), hh.timer u hu', hv.others u hu.1]
    · have hut : u ≠ t := by
        rintro rfl
        rw [(h.mem_nodes u).1 (by simp [hn])] at hu
        exact Bool.false_ne_true hu.symm
      have hvu := hv.others u hut
      obtain ⟨hoff₁, hfree₁⟩ := hh.off u (by rw [hvu]; exact hu)
      obtain ⟨hoff₂, hfree₂, hrem₂⟩ := hrest.off u hoff₁
      have hrem₁ := congrArg (fun b => b.2.2.1) (hkept u)
      refine ⟨hoff₂, by rw [hfree₂, hfree₁, hvu], ?_⟩
      rw [hrem₂]
      exact hrem₁.trans (by rw [kept, hvu])
    · rintro (_ | ⟨y, before⟩) x after hlog u hu
      · obtain ⟨rfl, rfl⟩ := List.cons.inj hlog
        rw [htouched] at hu
        have hu' := hh.touched_off hu
        refine ⟨fun y hy hyu => ?_, hrest.off u hu'⟩
        rw [← hyu, hoff y hy] at hu'
        exact Bool.false_ne_true hu'.symm
      · obtain ⟨-, rfl⟩ := List.cons.inj hlog
        exact hrest.stopped before x after rfl u hu

/-! ## The tick -/

/-- What a tick from `s` to `s'`, made of the rounds `log`, must do if stops are to be effective. -/
structure StopsEffective (callbacks : Callbacks σ) (s : Timers) (log : List (Visit σ))
    (s' : Timers) : Prop where
  /-- Once a timer has been stopped or deleted its callback is not invoked, and the tick leaves it
  alone: it is not in the list, and its ticks and links are those the call left. -/
  stopped : ∀ before x after, log = before ++ x :: after → ∀ t ∈ x.touched callbacks,
    (∀ y ∈ after, y.node = t → y.fired = false) ∧ t ∉ s'.nodes ∧
      (s'.timer t).freeNext = ((x.result callbacks).timers.timer t).freeNext ∧
      (s'.timer t).remainingTicks = ((x.result callbacks).timers.timer t).remainingTicks
  /-- Any other timer that was active is counted down exactly once, and fires if its count runs
  out. -/
  counted : ∀ t ∈ s.nodes, (∀ x ∈ log, t ∉ x.touched callbacks) →
    (log.map Visit.node).count t = 1 ∧ s'.timer t = (s.timer t).visited ∧
      ((log.filter Visit.fired).map Visit.node).count t =
        if (s.timer t).remainingTicks ≤ 1 then 1 else 0

theorem Spared.stopsEffective (h : Spared callbacks s s.nodes log s') :
    StopsEffective callbacks s log s' := by
  refine ⟨fun before x after hlog t ht => ?_, fun t ht hnot => ?_⟩
  · obtain ⟨hlater, hoff, hfree, hrem⟩ := h.stopped before x after hlog t ht
    refine ⟨fun y hy hyt => absurd hyt (hlater y hy), ?_, hfree, hrem⟩
    rw [h.inv.mem_nodes, hoff]
    exact Bool.false_ne_true
  · obtain ⟨hcount, htimer⟩ := h.counted t ht hnot
    refine ⟨hcount, htimer, ?_⟩
    have hfired : ∀ x ∈ log, x.node = t → x.fired = decide ((s.timer t).remainingTicks ≤ 1) :=
      fun x hx hxt => by rw [(h.nodes x hx).2, hxt]
    rw [List.count_eq_countP, List.countP_map, List.countP_filter]
    rw [List.count_eq_countP, List.countP_map] at hcount
    split
    · next hle =>
      rw [← hcount]
      refine List.countP_congr fun x hx => ?_
      have := hfired x hx
      simp only [Function.comp_apply, Bool.and_eq_true, beq_iff_eq]
      exact ⟨fun hx => hx.1, fun hxt => ⟨hxt, by rw [this hxt]; simpa using hle⟩⟩
    · next hle =>
      rw [List.countP_eq_zero]
      intro x hx hboth
      simp only [Function.comp_apply, Bool.and_eq_true, beq_iff_eq] at hboth
      rw [hfired x hx hboth.1] at hboth
      exact hle (by simpa using hboth.2)

/-- **A stop of the next node is not effective.** -/
theorem spares_of_stopsEffective (hc : Halting callbacks) (hw : Walks callbacks s e curr log s')
    (h : s.Inv) (hcurr : ∀ t ∈ curr, t ∈ s.nodes)
    (hstopped : ∀ before x after, log = before ++ x :: after → ∀ t ∈ x.touched callbacks,
      (∀ y ∈ after, y.node = t → y.fired = false) ∧
        (s'.timer t).remainingTicks = ((x.result callbacks).timers.timer t).remainingTicks) :
    ∀ x ∈ log, SparesNext callbacks x := by
  induction hw with
  | done s e => simp
  | @visit s s' e t log hw ih =>
    obtain ⟨front, rest, hn⟩ := List.append_of_mem (hcurr t rfl)
    have hv := visitAt h hn
    have hh := haltedBy_visitAndCall (e := e) hc hv.inv
    obtain ⟨front', hn'⟩ := hv.nodes
    have hmem : ∀ u ∈ s.next t, u ∈ (s.visit t).1.nodes := by
      intro u hu
      rw [hv.next] at hu
      rw [hn']
      exact List.mem_append_right _ (List.mem_of_mem_head? hu)
    have hhead : SparesNext callbacks ⟨s, e, t⟩ := by
      intro u hu htouched
      rw [Visit.next] at hu
      obtain ⟨hsilent, hrem⟩ := hstopped [] ⟨s, e, t⟩ log rfl u htouched
      have hkept := kept_visitAndCall (s := s) (e := e) (t := t) hc u
      have hact := (hv.inv.mem_nodes u).1 (hmem u hu)
      have hcb := (hv.inv.created u (hv.inv.magic u hact)).callback
      rw [show (Visit.mk s e t).result callbacks = visitAndCall callbacks s e t from rfl] at hrem
      generalize visitAndCall callbacks s e t = r₁ at hw hrem hkept
      simp only [kept, Prod.mk.injEq] at hkept
      rw [← hkept.2.2.2] at hcb
      -- the next round is a visit of `u`, which does not fire and so loses a tick
      rw [Option.mem_def.1 hu] at hw
      cases hw with
      | visit hw =>
        rename_i log
        have hfired := hsilent ⟨r₁.timers, r₁.env, u⟩ List.mem_cons_self rfl
        rw [Visit.fired, visit_eq, hcb, Bool.and_true, decide_eq_false_iff_not] at hfired
        have hkept' := kept_visitAndCall (s := r₁.timers) (e := r₁.env) (t := u) hc u
        simp only [kept, Prod.mk.injEq] at hkept'
        rw [visit_timer_same, Timer.visited, if_neg hfired] at hkept'
        have hle : (s'.timer u).remainingTicks ≤ (r₁.timers.timer u).remainingTicks - 1 := by
          refine (remaining_le hc hw (u := u) ?_ fun x hx =>
            hsilent x (List.mem_cons_of_mem _ hx)).trans hkept'.2.2.1.le
          rw [hkept'.2.2.2]
          exact hcb
        have hgt : 1 < (r₁.timers.timer u).remainingTicks := not_le.1 hfired
        omega
    have hmem' : ∀ u ∈ s.next t, u ∈ (visitAndCall callbacks s e t).timers.nodes := by
      intro u hu
      rw [hh.nodes, List.mem_filter]
      exact ⟨hmem u hu, by simpa using hhead u hu⟩
    intro x hx
    rcases List.mem_cons.1 hx with rfl | hx
    · exact hhead
    · refine ih hh.inv hmem' ?_ x hx
      rintro before y after rfl
      exact hstopped (⟨s, e, t⟩ :: before) y after rfl

/-- The walk ends if no callback stops or deletes the next node. -/
theorem walk_returns_of_spares (hc : Halting callbacks) (h : s.Inv) (hn : s.nodes = front ++ rest)
    (hlen : rest.length ≤ n)
    (hspares : ∀ x ∈ visits callbacks n s e rest.head?, SparesNext callbacks x) :
    (walk callbacks n s e rest.head?).isSome = true := by
  induction n generalizing s e front rest with
  | zero =>
    obtain rfl := List.length_eq_zero_iff.1 (Nat.le_zero.1 hlen)
    rfl
  | succ n ih =>
    cases rest with
    | nil => rfl
    | cons t rest =>
      have hlinked := s.not_unlinksFree t (by simp [hn])
      rw [List.head?_cons, visits] at hspares
      obtain ⟨hinv, ⟨front', hn₁⟩, hnext⟩ :=
        spared_round hc h hn (hspares ⟨s, e, t⟩ List.mem_cons_self)
      simp only [List.head?_cons, walk, if_neg hlinked, Option.isSome_map]
      rw [hnext] at hspares ⊢
      refine ih hinv hn₁ ?_ fun x hx => hspares x (List.mem_cons_of_mem _ hx)
      exact (List.length_filter_le _ _).trans (Nat.le_of_succ_le_succ hlen)

/-- **The tick returns** if no callback stops or deletes the timer that is next in the list. -/
theorem tick_returns_of_spares (hc : Halting callbacks) (h : s.Inv) (hlen : s.nodes.length ≤ n)
    (hspares : ∀ x ∈ visits callbacks n s e s.nodes.head?, SparesNext callbacks x) :
    (tick callbacks n s e).isSome = true := by
  rw [tick]
  split
  · exact walk_returns_of_spares hc h (List.nil_append s.nodes).symm hlen hspares
  · rfl

/-- **When stops from callbacks are effective.**  Exactly if no callback stops or deletes the timer
that is next in the list when it runs. -/
theorem stops_effective_iff (hc : Halting callbacks) (h : s.Inv)
    (htick : tick callbacks n s e = some r) :
    StopsEffective callbacks s (visits callbacks n s e s.nodes.head?) r.timers ↔
      ∀ x ∈ visits callbacks n s e s.nodes.head?, SparesNext callbacks x := by
  obtain ⟨hw, -⟩ := walks_of_tick h htick
  constructor
  · intro hstops
    refine spares_of_stopsEffective hc hw h (fun t ht => List.mem_of_mem_head? ht) ?_
    intro before x after hlog t ht
    obtain ⟨hsilent, -, -, hrem⟩ := hstops.stopped before x after hlog t ht
    exact ⟨hsilent, hrem⟩
  · intro hspares
    exact (spared hc hw h (List.nil_append s.nodes).symm rfl hspares).stopsEffective

/-- The first of three timers fires, stops the last one and deletes itself. -/
theorem stops_effective_iff_last :
    ∃ r, tick (onlyCalls 1 [.stop (some 3), .delete (some 1)]) 3 (threeTimers 1 5 5) () = some r ∧
      r.timers.nodes = [2] ∧
      StopsEffective (onlyCalls 1 [.stop (some 3), .delete (some 1)]) (threeTimers 1 5 5)
        (visits (onlyCalls 1 [.stop (some 3), .delete (some 1)]) 3 (threeTimers 1 5 5) ()
          (threeTimers 1 5 5).nodes.head?) r.timers := by
  have hc : Halting (onlyCalls 1 [.stop (some 3), .delete (some 1)]) := by
    intro t e s o ho
    rw [onlyCalls] at ho
    split at ho
    · rcases List.mem_pair.1 ho with rfl | rfl <;> rfl
    · exact absurd ho List.not_mem_nil
  have hinv : (threeTimers 1 5 5).Inv :=
    ((bss_blank.inv.launch rfl 1).launch rfl 5).launch rfl 5
  exact ⟨_, rfl, rfl, (stops_effective_iff hc hinv rfl).2 (by unfold SparesNext; decide +kernel)⟩

/-- **The first of three timers stops the second.**  The walk goes on with the second all the same,
lowers its count from 5 to 4, and ends there: the third is not counted down.  If the second is due
in this tick, its callback is invoked after the stop. -/
theorem stop_not_effective :
    (∃ r, tick (onlyCalls 1 [.stop (some 2)]) 3 (threeTimers 1 5 5) () = some r ∧
      (r.timers.timer 2).isActive = false ∧ (r.timers.timer 2).remainingTicks = 4 ∧
      3 ∈ (threeTimers 1 5 5).nodes ∧ ((threeTimers 1 5 5).timer 3).remainingTicks = 5 ∧
      (r.timers.timer 3).remainingTicks = 5 ∧
      ¬ StopsEffective (onlyCalls 1 [.stop (some 2)]) (threeTimers 1 5 5)
        (visits (onlyCalls 1 [.stop (some 2)]) 3 (threeTimers 1 5 5) ()
          (threeTimers 1 5 5).nodes.head?) r.timers) ∧
    ∃ r, tick (onlyCalls 1 [.stop (some 2)]) 3 (threeTimers 1 1 5) () = some r ∧
      r.fired = [1, 2] := by
  refine ⟨⟨_, rfl, rfl, rfl, by decide, rfl, rfl, fun h => ?_⟩, _, rfl, rfl⟩
  have hcounted := h.counted 3 (by decide) (by decide +kernel)
  exact absurd hcounted.1 (by decide +kernel)

end Timers

end Sertos
