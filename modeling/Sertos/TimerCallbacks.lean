import Sertos.TimerSchedule
import Sertos.Lib.Worklist

/-!
# Callbacks that restart timers

A callback appends the timers it restarts to the end of the list that the tick is walking along, and
a timer restarted with a period of one tick expires as soon as the walk gets to it.  So the tick
need not return: two one-shots of period one that restart themselves keep it busy for ever
(`not_tickReturns_restartSelf`).

The nodes still to be visited are a list that shrinks by one in every round and grows by what the
callback restarts.  A timer restarted with a longer period runs no callback in this tick, so only
restarts with period one matter: if no timer can restart itself with period one through a chain of
callbacks, the walk ends (`tickReturns_of_acyclic`), and if some timer can, there are callbacks
that make no other such restarts and with which it does not
(`exists_not_tickReturns_of_cycle`).

A callback can also stop the timer whose node the walk has saved.  If that is a one-shot and due, the
walk unlinks it a second time, through links that are `NULL` (`exists_not_tickReturns_of_stop`).
-/

set_option autoImplicit false

namespace Sertos

open Relation Timers

namespace Timers

variable {σ : Type} {callbacks : Callbacks σ} {R Q : TimerId → TimerId → Prop}

/-- One of the calls, made in order from `s`, arms the timer `v` with a period of one tick. -/
def RestartsAtOne (v : TimerId) : Timers → List TimerOp → Prop
  | _, [] => False
  | s, o :: os =>
    o.handle = some v ∧ o.restarts = true ∧ o.armedPeriod (s.timer v) = 1 ∨
      RestartsAtOne v (o.run s).1 os

/-- The callbacks start, stop and reset timers and change their periods; the callback of `t` arms `v`
with a period of one tick only if `R t v`, and leaves the next timer `v` of the list stopped, due and
a one-shot only if `Q t v`. -/
structure Respects (callbacks : Callbacks σ) (R Q : TimerId → TimerId → Prop) : Prop where
  no_delete : ∀ t e s handle, .delete handle ∉ (callbacks t e s).1
  rearms : ∀ t e s v, RestartsAtOne v s (callbacks t e s).1 → R t v
  stops : ∀ t e s v, s.Linked → t ∈ s.nodes → s.next t = some v →
    (visitAndCall callbacks s e t).timers.UnlinksFree v → Q t v

/-! ## What is still to be visited -/

/-- The nodes a walk that has come to `curr` would visit if no callback ran. -/
def pending (s : Timers) : Option TimerId → List TimerId
  | none => []
  | some u => if u ∈ s.nodes then s.nodes.drop (s.nodes.idxOf u) else [u]

variable {s : Timers} {t u v x : TimerId} {next : Option TimerId}

theorem pending_of_linked {pre rest : List TimerId} (hn : s.nodes = pre ++ u :: rest)
    (hu : u ∉ pre) : s.pending (some u) = u :: rest := by
  have hidx : s.nodes.idxOf u = pre.length := by
    rw [hn, List.idxOf_append_of_notMem hu, List.idxOf_cons_self, Nat.add_zero]
  rw [pending, if_pos (by simp [hn]), hidx, hn, List.drop_left]

theorem pending_of_unlinked (hu : u ∉ s.nodes) : s.pending (some u) = [u] := by
  rw [pending, if_neg hu]

theorem Linked.exists_split (h : s.Linked) (hu : u ∈ s.nodes) :
    ∃ pre rest, s.nodes = pre ++ u :: rest ∧ u ∉ pre ∧ u ∉ rest := by
  obtain ⟨pre, rest, hn⟩ := List.append_of_mem hu
  have hnodup := h.nodup
  rw [hn, List.nodup_append, List.nodup_cons] at hnodup
  exact ⟨pre, rest, hn, fun hm => hnodup.2.2 u hm u (by simp) rfl, hnodup.2.1.1⟩

theorem Linked.nodup_pending (h : s.Linked) (next : Option TimerId) : (s.pending next).Nodup := by
  cases next with
  | none => exact List.nodup_nil
  | some u =>
    rw [pending]
    split
    · exact h.nodup.sublist (List.drop_sublist _ _)
    · exact List.nodup_singleton u

theorem Linked.self_mem_pending (h : s.Linked) (u : TimerId) : u ∈ s.pending (some u) := by
  by_cases hu : u ∈ s.nodes
  · obtain ⟨pre, rest, hn, hpre, -⟩ := h.exists_split hu
    rw [pending_of_linked hn hpre]
    exact List.mem_cons_self
  · rw [pending_of_unlinked hu]
    exact List.mem_singleton_self u

/-- A node that is pending and not linked is the one the walk has come to. -/
theorem eq_some_of_unlinked (hx : x ∈ s.pending next) (hn : x ∉ s.nodes) : next = some x := by
  cases next with
  | none => simp [pending] at hx
  | some u =>
    rw [pending] at hx
    split at hx
    · exact absurd (List.mem_of_mem_drop hx) hn
    · rw [List.mem_singleton.1 hx]

/-- Taking out another node moves none from before `u` to behind it. -/
theorem exists_split_erase {l pre rest : List TimerId} {u : TimerId} (hsplit : l = pre ++ u :: rest)
    (hpre : u ∉ pre) (huv : u ≠ v) : ∃ pre' rest', l.erase v = pre' ++ u :: rest' ∧ u ∉ pre' ∧
      ∀ y ∈ rest', y ∈ rest := by
  by_cases hv : v ∈ pre
  · refine ⟨pre.erase v, rest, ?_, fun hm => hpre (List.mem_of_mem_erase hm), fun y hy => hy⟩
    rw [hsplit, List.erase_append_left _ hv]
  · refine ⟨pre, rest.erase v, ?_, hpre, fun y hy => List.mem_of_mem_erase hy⟩
    rw [hsplit, List.erase_append_right _ hv, List.erase_cons_tail (by simpa using huv)]

/-- Taking a node out of the list, and perhaps putting it back at the end, brings no other node in
front of the walk. -/
theorem Linked.mem_pending_of_moved (h : s.Linked) {s' : Timers} {tail : List TimerId}
    (hn : s'.nodes = s.nodes.erase v ++ tail) (htail : tail = [] ∨ tail = [v])
    (hx : x ∈ s'.pending next) : x = v ∨ x ∈ s.pending next := by
  have hmem : ∀ y ∈ tail, y = v := by rcases htail with rfl | rfl <;> simp
  cases next with
  | none => exact .inr hx
  | some u =>
    by_cases hu : u ∈ s.nodes
    · obtain ⟨pre, rest, hsplit, hpre, hrest⟩ := h.exists_split hu
      rw [pending_of_linked hsplit hpre]
      by_cases huv : u = v
      · -- the node the walk comes to next has been moved behind all others
        subst huv
        left
        have hu' : u ∉ s.nodes.erase u := fun hm => (h.nodup.mem_erase_iff.1 hm).1 rfl
        rcases htail with rfl | rfl
        · rw [pending_of_unlinked (by rw [hn]; simpa using hu')] at hx
          simpa using hx
        · rw [pending_of_linked hn hu'] at hx
          simpa using hx
      · obtain ⟨pre', rest', hsplit', hpre', hrest'⟩ := exists_split_erase (v := v) hsplit hpre huv
        have hn' : s'.nodes = pre' ++ u :: (rest' ++ tail) := by rw [hn, hsplit']; simp
        rw [pending_of_linked hn' hpre', List.mem_cons, List.mem_append] at hx
        rcases hx with rfl | hx | hx
        · exact .inr (by simp)
        · exact .inr (List.mem_cons_of_mem u (hrest' x hx))
        · exact .inl (hmem x hx)
    · rw [pending_of_unlinked hu]
      by_cases hu' : u ∈ s'.nodes
      · obtain rfl : u = v := by
          rw [hn, List.mem_append] at hu'
          rcases hu' with hu' | hu'
          · exact absurd (List.mem_of_mem_erase hu') hu
          · exact hmem u hu'
        left
        have htail' : tail = [u] := by
          rcases htail with rfl | rfl
          · rw [hn, List.append_nil] at hu'
            exact absurd (List.mem_of_mem_erase hu') hu
          · rfl
        rw [htail'] at hn
        rw [pending_of_linked hn fun hm => hu (List.mem_of_mem_erase hm)] at hx
        simpa using hx
      · rw [pending_of_unlinked hu'] at hx
        exact .inr hx

/-! ## Calls and visits keep the list in order -/

theorem Linked.restart (h : s.Linked) (hm : (s.timer v).magic = timerMagicWord) {p : ℕ}
    (hp : 0 < p) : (s.restart v p).Linked := by
  have hv : v ∉ s.nodes.erase v := fun hm => (h.nodup.mem_erase_iff.1 hm).1 rfl
  refine ⟨?_, fun u => ?_, fun u hu => ?_, fun u hu => ?_⟩
  · rw [h.restart_nodes, List.nodup_append]
    refine ⟨h.nodup.erase v, List.nodup_singleton v, ?_⟩
    rintro a ha b hb rfl
    exact hv (List.mem_singleton.1 hb ▸ ha)
  · rw [h.restart_nodes, List.mem_append, List.mem_singleton, h.nodup.mem_erase_iff]
    by_cases huv : u = v
    · subst huv; simp
    · simp [huv, restart_timer_of_ne s v p huv, h.mem_nodes u]
  · by_cases huv : u = v
    · subst huv; rw [restart_timer_same]; exact hp
    · rw [restart_timer_of_ne s v p huv] at hu ⊢; exact h.period_pos u hu
  · by_cases huv : u = v
    · subst huv; rw [restart_timer_same]; exact hm
    · rw [restart_timer_of_ne s v p huv] at hu ⊢; exact h.magic u hu

theorem Linked.halt (h : s.Linked) {free : Option TimerId} :
    (s.halt v free (s.timer v).magic).Linked := by
  refine ⟨?_, fun u => ?_, fun u hu => ?_, fun u hu => ?_⟩
  · rw [h.halt_nodes]; exact h.nodup.erase v
  · rw [h.halt_nodes, h.nodup.mem_erase_iff]
    by_cases huv : u = v
    · subst huv; simp
    · simp [huv, halt_timer_of_ne s v free _ huv, h.mem_nodes u]
  · by_cases huv : u = v
    · subst huv; rw [halt_timer_same] at hu ⊢; exact h.period_pos u hu
    · rw [halt_timer_of_ne s v free _ huv] at hu ⊢; exact h.period_pos u hu
  · by_cases huv : u = v
    · subst huv; simp at hu
    · rw [halt_timer_of_ne s v free _ huv] at hu ⊢; exact h.magic u hu

theorem visited_periodTicks (b : Timer) : b.visited.periodTicks = b.periodTicks := by
  rw [Timer.visited]
  split
  · split <;> rfl
  · rfl

theorem visited_isActive_of_inactive {b : Timer} (ha : b.isActive = false) :
    b.visited.isActive = false := by
  rw [Timer.visited]
  split
  · split
    · exact ha
    · rfl
  · exact ha

theorem Linked.visit (h : s.Linked) (t : TimerId) : (s.visit t).1.Linked := by
  refine ⟨?_, fun u => ?_, fun u hu => ?_, fun u hu => ?_⟩
  · rw [visit_nodes]
    split
    · exact h.nodup.erase t
    · exact h.nodup
  · by_cases hut : u = t
    · subst hut
      rw [visit_timer_same, visit_nodes]
      by_cases ha : (s.timer u).isActive = true
      · rw [visited_isActive ha]
        by_cases hl : (s.timer u).leaves = true
        · simp [hl, h.nodup.mem_erase_iff]
        · simp [hl, (h.mem_nodes u).2 ha]
      · have hu : u ∉ s.nodes := mt (h.mem_nodes u).1 ha
        rw [visited_isActive_of_inactive (by simpa using ha), List.erase_of_not_mem hu, ite_self]
        simpa using hu
    · rw [visit_timer_of_ne hut, ← h.mem_nodes u, visit_nodes]
      split
      · exact List.mem_erase_of_ne hut
      · rfl
  · by_cases hut : u = t
    · subst hut
      rw [visit_timer_same, visited_magic] at hu
      rw [visit_timer_same, visited_periodTicks]
      exact h.period_pos u hu
    · rw [visit_timer_of_ne hut] at hu ⊢
      exact h.period_pos u hu
  · by_cases hut : u = t
    · subst hut
      rw [visit_timer_same] at hu ⊢
      rw [visited_magic]
      refine h.magic u ?_
      by_contra ha
      rw [visited_isActive_of_inactive (by simpa using ha)] at hu
      exact Bool.false_ne_true hu
    · rw [visit_timer_of_ne hut] at hu ⊢
      exact h.magic u hu

/-- The next node is still linked after the visit. -/
theorem Linked.mem_visit_next (h : s.Linked) (ht : t ∈ s.nodes) (hu : s.next t = some u) :
    u ≠ t ∧ u ∈ (s.visit t).1.nodes := by
  obtain ⟨pre, rest, hn, hpre, hrest⟩ := h.exists_split ht
  rw [next_eq hn hpre] at hu
  have hmem := List.mem_of_mem_head? hu
  obtain ⟨pre', hn'⟩ := visit_nodes_of_append hn hpre
  exact ⟨ne_of_mem_of_not_mem hmem hrest, by simp [hn', hmem]⟩

/-- Only a stop takes a timer out of the list, and only its own. -/
theorem Linked.mem_nodes_run (h : s.Linked) {o : TimerOp} (hu : u ∈ s.nodes)
    (ho : o.restarts = true ∨ o.handle ≠ some u) : u ∈ (o.run s).1.nodes := by
  have heff := o.run_effect h
  cases hrun : o.run s with
  | mk s' st =>
    rw [hrun] at heff
    cases heff with
    | refused => exact hu
    | restarted v =>
      rw [h.restart_nodes, List.mem_append, List.mem_singleton, h.nodup.mem_erase_iff]
      exact (em (u = v)).symm.imp_left fun huv => ⟨huv, hu⟩
    | halted v hh hm hr =>
      have huv : u ≠ v := by
        rintro rfl
        rcases ho with ho | ho
        · exact absurd (hr.symm.trans ho) (by simp)
        · exact ho hh
      rw [h.halt_nodes, h.nodup.mem_erase_iff]
      exact ⟨huv, hu⟩

theorem Linked.run_of_restarts (h : s.Linked) {o : TimerOp} (ho : o.restarts = true) :
    (o.run s).1.Linked := by
  have heff := o.run_effect h
  cases hrun : o.run s with
  | mk s' st =>
    rw [hrun] at heff
    cases heff with
    | refused => exact h
    | restarted v hh hm hr hp => exact h.restart hm hp
    | halted v hh hm hr => exact absurd (hr.symm.trans ho) (by simp)

theorem Linked.mem_nodes_runCalls (h : s.Linked) {calls : List TimerOp} (hu : u ∈ s.nodes)
    (hcalls : ∀ o ∈ calls, o.restarts = true) : u ∈ (s.runCalls calls).nodes := by
  induction calls generalizing s with
  | nil => exact hu
  | cons o os ih =>
    have ho := hcalls o List.mem_cons_self
    exact ih (h.run_of_restarts ho) (h.mem_nodes_run hu (.inl ho)) fun o' hm =>
      hcalls o' (List.mem_cons_of_mem o hm)

/-! ## The weight of what is pending -/

section Weight

variable (rank : TimerId → Ordinal.{0})

/-- A pending timer weighs nothing if the walk will only lower its count. -/
noncomputable def weight (s : Timers) (u : TimerId) : Ordinal.{0} :=
  if (s.timer u).remainingTicks ≤ 1 then Order.succ (rank u) else 0

/-- The state `s` of the timers while the callback of `t` runs that found them in the state `s₁`,
when the walk will go on at `next`. -/
structure During (t : TimerId) (s₁ : Timers) (next : Option TimerId) (s : Timers) : Prop where
  linked : s.Linked
  magic : ∀ u, (s.timer u).magic = (s₁.timer u).magic
  /-- The links of the next node are `NULL` if it has been stopped. -/
  free : ∀ u, next = some u → u ∈ s.nodes ∨ (s.timer u).freeNext = none
  /-- What is pending was so before the callback, or has been restarted and weighs less than
  `t` did. -/
  pending : ∀ x ∈ s.pending next,
    x ∈ s₁.pending next ∧ weight rank s x = weight rank s₁ x ∨
      weight rank s x < Order.succ (rank t)

variable {rank} {s₁ : Timers}

theorem weight_congr {s s' : Timers} (h : s'.timer u = s.timer u) :
    weight rank s' u = weight rank s u := by rw [weight, weight, h]

theorem During.restart (h : During rank t s₁ next s) (hm : (s.timer v).magic = timerMagicWord)
    {p : ℕ} (hp : 0 < p) (hrank : p = 1 → rank v < rank t) :
    During rank t s₁ next (s.restart v p) := by
  have hn := h.linked.restart_nodes v p
  refine ⟨h.linked.restart hm hp, fun u => ?_, fun u hu => ?_, fun x hx => ?_⟩
  · rw [← h.magic u]
    by_cases huv : u = v
    · subst huv; simp
    · rw [restart_timer_of_ne s v p huv]
  · by_cases huv : u = v
    · subst huv; simp [hn]
    · rw [restart_timer_of_ne s v p huv, hn, List.mem_append, List.mem_erase_of_ne huv]
      exact (h.free u hu).imp_left .inl
  · by_cases hxv : x = v
    · subst hxv
      right
      simp only [weight, restart_timer_same]
      split
      · exact Order.succ_lt_succ (hrank (by omega))
      · exact Order.bot_lt_succ _
    · rw [weight_congr (restart_timer_of_ne s v p hxv)]
      exact h.pending x ((h.linked.mem_pending_of_moved hn (.inr rfl) hx).resolve_left hxv)

theorem During.stop (h : During rank t s₁ next s) :
    During rank t s₁ next (s.halt v (if (s.timer v).isActive then none else (s.timer v).freeNext)
      (s.timer v).magic) := by
  generalize hf : (if (s.timer v).isActive then none else (s.timer v).freeNext) = free
  have hn := h.linked.halt_nodes v free (s.timer v).magic
  have hrem : ∀ u, ((s.halt v free (s.timer v).magic).timer u).remainingTicks =
      (s.timer u).remainingTicks := by
    intro u
    by_cases huv : u = v
    · subst huv; simp
    · rw [halt_timer_of_ne s v free _ huv]
  refine ⟨h.linked.halt, fun u => ?_, fun u hu => ?_, fun x hx => ?_⟩
  · rw [← h.magic u]
    by_cases huv : u = v
    · subst huv; simp
    · rw [halt_timer_of_ne s v free _ huv]
  · by_cases huv : u = v
    · subst huv
      right
      rw [halt_timer_same, ← hf]
      split
      · rfl
      · next ha => exact (h.free u hu).resolve_left (mt (h.linked.mem_nodes u).1 ha)
    · rw [halt_timer_of_ne s v free _ huv, hn, List.mem_erase_of_ne huv]
      exact h.free u hu
  · have hx' : x ∈ s.pending next := by
      rw [← List.append_nil (s.nodes.erase v)] at hn
      refine (h.linked.mem_pending_of_moved hn (.inl rfl) hx).elim (fun hxv => ?_) id
      have hxn : x ∉ (s.halt v free (s.timer v).magic).nodes := by
        rw [hn, List.append_nil, hxv]
        exact fun hm => (h.linked.nodup.mem_erase_iff.1 hm).1 rfl
      rw [eq_some_of_unlinked hx hxn]
      exact h.linked.self_mem_pending x
    rw [weight, hrem x]
    exact h.pending x hx'

/-- One call of the callback. -/
theorem During.run (h : During rank t s₁ next s) {o : TimerOp} (ho : ∀ handle, o ≠ .delete handle)
    (hR : ∀ v, (s.timer v).magic = timerMagicWord → o.handle = some v → o.restarts = true →
      o.armedPeriod (s.timer v) = 1 → rank v < rank t) : During rank t s₁ next (o.run s).1 := by
  have heff := o.run_effect h.linked
  cases hrun : o.run s with
  | mk s' st =>
    rw [hrun] at heff
    cases heff with
    | refused => exact h
    | restarted v hh hm hr hp => exact h.restart hm hp (hR v hm hh hr)
    | halted v hh hm hr free magic hmagic =>
      rcases hmagic with ⟨rfl, -, rfl⟩ | ⟨-, rfl⟩
      · rw [← hm]; exact h.stop
      · exact absurd rfl (ho _)

/-- All calls of the callback. -/
theorem During.runCalls (h : During rank t s₁ next s) {calls : List TimerOp}
    (hdel : ∀ handle, .delete handle ∉ calls)
    (hR : ∀ v, (s₁.timer v).magic = timerMagicWord → RestartsAtOne v s calls → rank v < rank t) :
    During rank t s₁ next (s.runCalls calls) := by
  induction calls generalizing s with
  | nil => exact h
  | cons o os ih =>
    refine ih (h.run (fun handle ho => hdel handle (by simp [ho])) fun v hm hh hr hp => ?_)
      (fun handle hm => hdel handle (by simp [hm])) fun v hm hv => hR v hm (.inr hv)
    exact hR v (by rw [← h.magic v]; exact hm) (.inl ⟨hh, hr, hp⟩)

/-! ## The walk ends -/

/-- A walk that has come to `curr`, over timers out of the set `T`. -/
structure Walking (T : Set TimerId) (s : Timers) (curr : Option TimerId) : Prop where
  linked : s.Linked
  mem : ∀ u, (s.timer u).magic = timerMagicWord → u ∈ T
  free : ∀ u, curr = some u → u ∈ s.nodes ∨ (s.timer u).freeNext = none
  created : ∀ u, curr = some u → (s.timer u).magic = timerMagicWord
  unlinks : ∀ u, curr = some u → ¬ s.UnlinksFree u

variable {T : Set TimerId} {e : σ}

/-- The nodes after the one the walk has come to, which are the ones it would still visit. -/
theorem Walking.exists_rest (h : Walking T s (some t)) :
    ∃ rest, s.pending (some t) = t :: rest ∧ (t :: rest).Nodup ∧ s.next t = rest.head? ∧
      (∀ u ∈ rest, u ∈ (s.visit t).1.nodes) ∧ (s.visit t).1.pending (s.next t) = rest := by
  have hnodup := h.linked.nodup_pending (some t)
  by_cases ht : t ∈ s.nodes
  · obtain ⟨pre, rest, hn, hpre, hrest⟩ := h.linked.exists_split ht
    rw [pending_of_linked hn hpre] at hnodup ⊢
    obtain ⟨pre', hn'⟩ := visit_nodes_of_append hn hpre
    refine ⟨rest, rfl, hnodup, next_eq hn hpre, fun u hu => by simp [hn', hu], ?_⟩
    rw [next_eq hn hpre]
    cases rest with
    | nil => rfl
    | cons u rest =>
      have hu := (h.linked.visit t).nodup
      rw [hn', List.nodup_append] at hu
      exact pending_of_linked hn' fun hm => hu.2.2 u hm u (by simp) rfl
  · have hfree := (h.free t rfl).resolve_left ht
    rw [pending_of_unlinked ht] at hnodup ⊢
    have hnext : s.next t = none := by rw [next, if_neg ht, hfree]
    exact ⟨[], rfl, hnodup, hnext, by simp, by rw [hnext]; rfl⟩

/-- The next node can be visited after the callback. -/
theorem Walking.unlinks_next (hc : Respects callbacks R Q) (hQ : ∀ t v, Q t v → t = v)
    (h : Walking T s (some t)) (hu : s.next t = some u) :
    ¬ (visitAndCall callbacks s e t).timers.UnlinksFree u := by
  intro hfree
  obtain ⟨rest, -, hnodup, hnext, -⟩ := h.exists_rest
  have hmem : u ∈ rest := List.mem_of_mem_head? (hnext.symm.trans hu)
  have ht : t ∈ s.nodes := by
    by_contra ht
    rw [next, if_neg ht, (h.free t rfl).resolve_left ht] at hu
    exact absurd hu (by simp)
  obtain rfl := hQ t u (hc.stops t e s u h.linked ht hu hfree)
  exact (List.nodup_cons.1 hnodup).1 hmem

/-- **One round of the walk** keeps it going and lowers the weight of what is pending. -/
theorem Walking.step (hc : Respects callbacks R Q) (hQ : ∀ t v, Q t v → t = v)
    (hrank : ∀ a ∈ T, ∀ b ∈ T, R a b → rank b < rank a) (h : Walking T s (some t)) :
    Walking T (visitAndCall callbacks s e t).timers (s.next t) ∧
      Multiset.IsDershowitzMannaLT
        (((visitAndCall callbacks s e t).timers.pending (s.next t) : Multiset TimerId).map
          (weight rank (visitAndCall callbacks s e t).timers))
        ((s.pending (some t) : Multiset TimerId).map (weight rank s)) := by
  obtain ⟨rest, hpend, hnodup, hnext, hmem, hpend'⟩ := h.exists_rest
  have hmagic : ∀ u, ((s.visit t).1.timer u).magic = (s.timer u).magic := by
    intro u
    by_cases hut : u = t
    · subst hut; rw [visit_timer_same, visited_magic]
    · rw [visit_timer_of_ne hut]
  have hbase : During rank t (s.visit t).1 (s.next t) (s.visit t).1 := by
    refine ⟨h.linked.visit t, fun _ => rfl, fun u hu => .inl (hmem u ?_),
      fun x hx => .inl ⟨hx, rfl⟩⟩
    rw [hnext] at hu
    exact List.mem_of_mem_head? hu
  have htT : t ∈ T := h.mem t (h.created t rfl)
  have hduring : During rank t (s.visit t).1 (s.next t) (visitAndCall callbacks s e t).timers := by
    simp only [visitAndCall]
    split
    · refine hbase.runCalls (hc.no_delete t e _) fun v hv hres => ?_
      exact hrank t htT v (h.mem v (by rw [← hmagic v]; exact hv)) (hc.rearms t e _ v hres)
    · exact hbase
  refine ⟨⟨hduring.linked, fun u hu => ?_, hduring.free, fun u hu => ?_,
    fun u hu => h.unlinks_next hc hQ hu⟩, ?_⟩
  · exact h.mem u (by rw [← hmagic u, ← hduring.magic u]; exact hu)
  · rw [hduring.magic u]
    have hu' : u ∈ (s.visit t).1.nodes := by
      rw [hnext] at hu
      exact hmem u (List.mem_of_mem_head? hu)
    exact (h.linked.visit t).magic u (((h.linked.visit t).mem_nodes u).1 hu')
  · rw [hpend]
    refine Worklist.decreases hnodup (hduring.linked.nodup_pending _) fun x hx => ?_
    have hkept : x ∈ rest → weight rank (s.visit t).1 x = weight rank s x := fun hxr =>
      weight_congr (visit_timer_of_ne fun hxt => (List.nodup_cons.1 hnodup).1 (hxt ▸ hxr))
    rcases hduring.pending x hx with ⟨hx1, hw⟩ | hlt
    · rw [hpend'] at hx1
      exact .inl ⟨hx1, hw.trans (hkept hx1)⟩
    · by_cases hexp : (s.timer t).remainingTicks ≤ 1
      · have hwt : weight rank s t = Order.succ (rank t) := by rw [weight, if_pos hexp]
        exact .inr (hwt ▸ hlt)
      · -- no callback ran
        have hsame : (visitAndCall callbacks s e t).timers = (s.visit t).1 := by
          rw [visitAndCall, if_neg (by simp [visit_eq, hexp])]
        rw [hsame] at hx ⊢
        rw [hpend'] at hx
        exact .inl ⟨hx, hkept hx⟩

theorem Walking.returns (hc : Respects callbacks R Q) (hQ : ∀ t v, Q t v → t = v)
    (hrank : ∀ a ∈ T, ∀ b ∈ T, R a b → rank b < rank a) {curr : Option TimerId}
    (h : Walking T s curr) (e : σ) : ∃ n, (walk callbacks n s e curr).isSome = true := by
  generalize hM : (s.pending curr : Multiset TimerId).map (weight rank s) = M
  have hwf : WellFounded (Multiset.IsDershowitzMannaLT (α := Ordinal.{0})) :=
    Multiset.wellFounded_isDershowitzMannaLT
  induction M using hwf.induction generalizing s e curr with
  | h M ih =>
    cases curr with
    | none => exact ⟨0, rfl⟩
    | some t =>
      obtain ⟨hw, hlt⟩ := h.step (e := e) hc hQ hrank
      obtain ⟨n, hn⟩ := ih _ (hM ▸ hlt) hw (visitAndCall callbacks s e t).env rfl
      exact ⟨n + 1, by simpa only [walk, if_neg (h.unlinks t rfl), Option.isSome_map] using hn⟩

/-- **The tick returns** if no timer can restart itself with a period of one tick through a chain of
callbacks, and no callback stops the next timer when that is a one-shot and due. -/
theorem tickReturns_of_acyclic (hc : Respects callbacks R Q) (hR : ∀ t, ¬ TransGen R t t)
    (hQ : ∀ t v, Q t v → t = v)
    (h : s.Linked) (hfin : {t | (s.timer t).magic = timerMagicWord}.Finite) (e : σ) :
    TickReturns callbacks s e := by
  obtain ⟨rank, hrank⟩ := Worklist.exists_rank hR hfin
  by_cases hi : s.initialized = true
  · have hw : Walking {t | (s.timer t).magic = timerMagicWord} s s.nodes.head? := by
      refine ⟨h, fun _ hu => hu, fun u hu => .inl (List.mem_of_mem_head? hu), fun u hu => ?_,
        fun u hu => s.not_unlinksFree u (List.mem_of_mem_head? hu)⟩
      exact h.magic u ((h.mem_nodes u).1 (List.mem_of_mem_head? hu))
    obtain ⟨n, hn⟩ := hw.returns hc hQ hrank e
    exact ⟨n, by rw [tick, if_pos hi]; exact hn⟩
  · exact ⟨0, by rw [tick, if_neg hi]; rfl⟩

end Weight

/-! ## A walk that does not end

Let `c` walk round a cycle of the relation for ever.  The `i`-th callback, that of the timer `c i`,
restarts `c (i + 1)` with a period of one tick, and one of two further timers with a period of two:
without that, `c (i + 1)` would be the last node of the list when the walk comes to it, and its
successor, read before its callback runs, would be `NULL`. -/

section Cycle

variable (N : ℕ) (c : ℕ → ℕ)

/-- The two timers that keep the walk going, in turn. -/
def spare (i : ℕ) : ℕ := N + i % 2

/-- The callbacks: a counter of the callbacks that have run is their state. -/
def chase : Callbacks ℕ := fun t i _ =>
  if t = c i then
    ([.changePeriod (some (c (i + 1))) 1, .changePeriod (some (spare N (i + 1))) 2], i + 1)
  else ([], i)

theorem chase_respects (hR : ∀ i, R (c i) (c (i + 1))) : Respects (chase N c) R Q := by
  refine ⟨fun t i s handle => ?_, fun t i s v hv => ?_, fun t i s v hs ht hv hfree => ?_⟩
  · rw [chase]
    split <;> simp
  · rw [chase] at hv
    split at hv
    · next ht =>
      rcases hv with ⟨hv, -, -⟩ | ⟨-, -, hp⟩ | hv
      · rw [ht, ← Option.some_inj.1 hv]
        exact hR i
      · simp [TimerOp.armedPeriod] at hp
      · exact hv.elim
    · exact hv.elim
  · -- restarts leave the next node linked
    have hmem := (hs.mem_visit_next ht hv).2
    refine absurd ?_ hfree.1
    simp only [visitAndCall]
    split
    · refine (hs.visit t).mem_nodes_runCalls hmem fun o ho => ?_
      rw [chase] at ho
      split at ho
      · rcases List.mem_pair.1 ho with rfl | rfl <;> rfl
      · exact absurd ho List.not_mem_nil
    · exact hmem

/-- The timers below `N` are one-shots of period one, the two after them have period two. -/
def cycleTimers (a : ℕ) : Timers where
  activeTimers := ⟨[N + 1, a, N], 3⟩
  initialized := true
  timer := fun u : ℕ =>
    { name := "Timer"
      periodTicks := if u < N then 1 else 2
      remainingTicks := if u < N then 1 else 2
      isPeriodic := false
      isActive := decide (u = N + 1 ∨ u = a ∨ u = N)
      callback := some 0
      param := 0
      freeNext := none
      isStaticallyAllocated := true
      magic := if u < N + 2 then timerMagicWord else 0 }

variable {N c} {i : ℕ}

theorem spare_lt : spare N i < N + 2 := by
  have := Nat.mod_lt i (show 0 < 2 by decide)
  rw [spare]
  omega

theorem ne_spare (hN : ∀ i, c i < N) (j : ℕ) : c j ≠ spare N i := by
  have := hN j
  rw [spare]
  omega

theorem spare_succ_ne : spare N (i + 1) ≠ spare N i := by
  rw [spare, spare]
  omega

theorem spare_add_two : spare N (i + 1 + 1) = spare N i := by
  rw [spare, spare]
  omega

theorem cycleTimers_inv {a : ℕ} (ha : a < N) : (cycleTimers N a).Inv where
  wf := by
    have h1 : N + 1 ≠ a := by omega
    have h2 : a ≠ N := by omega
    exact ⟨by simp [cycleTimers, h1, h2], rfl⟩
  mem_nodes t := by simp [Timers.nodes, cycleTimers]
  created t ht := by
    refine ⟨ht, ?_, rfl⟩
    simp only [cycleTimers]
    split <;> omega
  magic (t : ℕ) ht := by
    simp only [cycleTimers, decide_eq_true_eq] at ht ⊢
    rw [if_pos (by omega)]
  remaining_pos t _ := by
    simp only [cycleTimers]
    split <;> omega
  initialized _ _ := rfl

theorem next_of_head {rest : List TimerId} (hn : s.nodes = t :: rest) : s.next t = rest.head? := by
  have hn' : s.nodes = [] ++ t :: rest := hn
  exact next_eq hn' List.not_mem_nil

/-- A visit that only lowers the count. -/
theorem visitAndCall_of_lt {e : σ} (h : 1 < (s.timer t).remainingTicks) :
    visitAndCall callbacks s e t = ⟨(s.visit t).1, e, []⟩ := by
  rw [visitAndCall, if_neg]
  simp [visit_eq, Nat.not_le.2 h]

/-- What neither a visit nor a restart changes. -/
def Timer.fixed (b : Timer) : ℕ × Bool × Option ℕ := (b.magic, b.isPeriodic, b.callback)

theorem visit_fixed (u : TimerId) :
    Timer.fixed ((s.visit t).1.timer u) = Timer.fixed (s.timer u) := by
  by_cases hut : u = t
  · subst hut
    rw [visit_timer_same, Timer.visited]
    split
    · split <;> rfl
    · rfl
  · rw [visit_timer_of_ne hut]

theorem restart_fixed {p : ℕ} (u : TimerId) :
    Timer.fixed ((s.restart v p).timer u) = Timer.fixed (s.timer u) := by
  by_cases huv : u = v
  · subst huv; rw [restart_timer_same]; rfl
  · rw [restart_timer_of_ne s v p huv]

/-- The timers `c` and the spare ones have been created, and the former are one-shots. -/
def Ready (N : ℕ) (s : Timers) : Prop :=
  ∀ u, u < N + 2 → (s.timer u).magic = timerMagicWord ∧ (s.timer u).isPeriodic = false ∧
    (s.timer u).callback.isSome = true

theorem Ready.of_fixed {s' : Timers} (h : Ready N s)
    (hf : ∀ u, Timer.fixed (s'.timer u) = Timer.fixed (s.timer u)) : Ready N s' := by
  intro u hu
  have hfu := hf u
  simp only [Timer.fixed, Prod.mk.injEq] at hfu
  rw [hfu.1, hfu.2.1, hfu.2.2]
  exact h u hu

/-- The state in which the walk comes to `c i`. -/
structure Round (N : ℕ) (c : ℕ → ℕ) (i : ℕ) (s : Timers) : Prop where
  linked : s.Linked
  ready : Ready N s
  nodes : s.nodes = [spare N (i + 1), c i, spare N i]
  remaining : (s.timer (c i)).remainingTicks = 1
  remaining_spare : (s.timer (spare N i)).remainingTicks = 2

/-- The state in which the walk comes to the node after `c i`. -/
structure Between (N : ℕ) (c : ℕ → ℕ) (i : ℕ) (s : Timers) : Prop where
  linked : s.Linked
  ready : Ready N s
  nodes : s.nodes = [spare N i, c (i + 1), spare N (i + 1)]
  remaining : (s.timer (c (i + 1))).remainingTicks = 1
  remaining_spare : (s.timer (spare N i)).remainingTicks = 2
  remaining_spare_succ : (s.timer (spare N (i + 1))).remainingTicks = 2

/-- What the callback of `c i` does. -/
theorem Round.called_eq (hN : ∀ i, c i < N) (h : Round N c i s) :
    visitAndCall (chase N c) s i (c i) =
      ⟨((s.visit (c i)).1.restart (c (i + 1)) 1).restart (spare N (i + 1)) 2, i + 1, [c i]⟩ := by
  have hlt : ∀ j, c j < N + 2 := fun j => Nat.lt_of_lt_of_le (hN j) (Nat.le_add_right N 2)
  have hr1 := h.ready.of_fixed (visit_fixed (t := c i))
  have hr2 := hr1.of_fixed (restart_fixed (v := c (i + 1)) (p := 1))
  have hfire : (s.visit (c i)).2 = true := by
    simp [visit_eq, h.remaining, (h.ready _ (hlt i)).2.2]
  rw [visitAndCall, if_pos hfire, chase, if_pos rfl]
  simp only [runCalls, List.foldl_cons, List.foldl_nil, TimerOp.run,
    changePeriod_eq (hr1 _ (hlt (i + 1))).1 Nat.one_pos,
    changePeriod_eq (hr2 _ (spare_lt (i := i + 1))).1 Nat.two_pos]

theorem Round.between (hN : ∀ i, c i < N) (h : Round N c i s) :
    Between N c i (((s.visit (c i)).1.restart (c (i + 1)) 1).restart (spare N (i + 1)) 2) := by
  have hcs : ∀ j k, spare N k ≠ c j := fun j k => (ne_spare hN j).symm
  have hlt : ∀ j, c j < N + 2 := fun j => Nat.lt_of_lt_of_le (hN j) (Nat.le_add_right N 2)
  have hr1 := h.ready.of_fixed (visit_fixed (t := c i))
  have hr2 := hr1.of_fixed (restart_fixed (v := c (i + 1)) (p := 1))
  have hl1 := h.linked.visit (c i)
  have hl2 := hl1.restart (v := c (i + 1)) (hr1 _ (hlt (i + 1))).1 Nat.one_pos
  refine ⟨hl2.restart (hr2 _ spare_lt).1 Nat.two_pos, hr2.of_fixed restart_fixed, ?_, ?_, ?_, ?_⟩
  · have hleaves : (s.timer (c i)).leaves = true := by
      simp [Timer.leaves, h.remaining, (h.ready _ (hlt i)).2.1]
    rw [hl2.restart_nodes, hl1.restart_nodes, visit_nodes, if_pos hleaves, h.nodes]
    simp [hcs]
  · rw [restart_timer_of_ne _ _ _ (hcs (i + 1) (i + 1)).symm, restart_timer_same]
  · rw [restart_timer_of_ne _ _ _ spare_succ_ne.symm, restart_timer_of_ne _ _ _ (hcs (i + 1) i),
      visit_timer_of_ne (hcs i i)]
    exact h.remaining_spare
  · rw [restart_timer_same]

/-- A visit of the spare timer brings the walk to `c (i + 1)`. -/
theorem Between.round (hN : ∀ i, c i < N) (h : Between N c i s) :
    Round N c (i + 1) (s.visit (spare N i)).1 := by
  have hleaves : (s.timer (spare N i)).leaves = false := by
    simp [Timer.leaves, h.remaining_spare]
  refine ⟨h.linked.visit _, h.ready.of_fixed visit_fixed, ?_, ?_, ?_⟩
  · rw [visit_nodes, if_neg (by simp [hleaves]), h.nodes, spare_add_two]
  · rw [visit_timer_of_ne (ne_spare hN (i + 1))]
    exact h.remaining
  · rw [visit_timer_of_ne spare_succ_ne]
    exact h.remaining_spare_succ

theorem Round.next_eq (hN : ∀ i, c i < N) (h : Round N c i s) :
    s.next (c i) = some (spare N i) := by
  have hn : s.nodes = [spare N (i + 1)] ++ c i :: [spare N i] := h.nodes
  exact Timers.next_eq hn (by simpa using ne_spare hN i)

/-- However many rounds the walk is given, it does not end. -/
theorem Round.walk_eq_none (hN : ∀ i, c i < N) :
    ∀ (n i : ℕ) (s : Timers), Round N c i s → walk (chase N c) n s i (some (c i)) = none
  | 0, _, _, _ => rfl
  | 1, i, s, h => by simp [walk, h.next_eq hN]
  | n + 2, i, s, h => by
    have hlinked := s.not_unlinksFree (c i) (by simp [h.nodes])
    have hb := h.between hN
    have hlt : 1 < ((((s.visit (c i)).1.restart (c (i + 1)) 1).restart (spare N (i + 1)) 2).timer
        (spare N i)).remainingTicks := by rw [hb.remaining_spare]; decide
    have hlinked' := Timers.not_unlinksFree _ (spare N i) (hb.nodes ▸ List.mem_cons_self)
    have ih := walk_eq_none hN n (i + 1) _ (hb.round hN)
    simp only [walk, if_neg hlinked, h.next_eq hN, h.called_eq hN, if_neg hlinked',
      next_of_head hb.nodes, visitAndCall_of_lt hlt, List.head?_cons, ih, Option.map_none]

/-- The first visit brings the walk to `c 0`. -/
theorem cycleTimers_round (hN : ∀ i, c i < N) :
    Round N c 0 ((cycleTimers N (c 0)).visit (spare N 1)).1 := by
  have hready : Ready N (cycleTimers N (c 0)) := fun u hu => ⟨if_pos hu, rfl, rfl⟩
  have hleaves : ((cycleTimers N (c 0)).timer (spare N 1)).leaves = false := by
    simp [Timer.leaves, cycleTimers, spare]
  refine ⟨(cycleTimers_inv (hN 0)).linked.visit _, hready.of_fixed visit_fixed, ?_, ?_, ?_⟩
  · rw [visit_nodes, if_neg (by simp [hleaves])]
    rfl
  · rw [visit_timer_of_ne (ne_spare hN 0)]
    exact if_pos (hN 0)
  · rw [visit_timer_of_ne (spare_succ_ne (i := 0)).symm]
    exact if_neg (by simp [spare])

end Cycle

/-- **A cycle of restarts with period one can keep the tick from returning.** -/
theorem exists_not_tickReturns_of_cycle (hR : TransGen R t t) :
    ∃ (callbacks : Callbacks ℕ) (s : Timers), Respects callbacks R Q ∧ s.Linked ∧
      {u | (s.timer u).magic = timerMagicWord}.Finite ∧ ¬ TickReturns callbacks s 0 := by
  obtain ⟨c, hfin, hc⟩ := Worklist.exists_cycle hR
  obtain ⟨M, hM⟩ := hfin.bddAbove
  have hN : ∀ i, c i < M + 1 := fun i => Nat.lt_succ_of_le (hM ⟨i, rfl⟩)
  refine ⟨chase (M + 1) c, cycleTimers (M + 1) (c 0), chase_respects _ _ hc,
    (cycleTimers_inv (hN 0)).linked, ?_, ?_⟩
  · refine (Set.finite_lt_nat (M + 3)).subset fun u hu => ?_
    by_contra hlt
    simp [cycleTimers, timerMagicWord] at hu
    exact hlt hu
  · rintro ⟨n, hn⟩
    rw [tick, if_pos (show (cycleTimers (M + 1) (c 0)).initialized = true from rfl)] at hn
    cases n with
    | zero => exact absurd hn (by simp [walk, Timers.nodes, cycleTimers])
    | succ n =>
      have hhead : (cycleTimers (M + 1) (c 0)).nodes.head? = some (spare (M + 1) 1) := rfl
      have hnodes : (cycleTimers (M + 1) (c 0)).nodes = [spare (M + 1) 1, c 0, M + 1] := rfl
      have hlt : 1 < ((cycleTimers (M + 1) (c 0)).timer (spare (M + 1) 1)).remainingTicks := by
        simp [cycleTimers, spare]
      have hlinked := (cycleTimers (M + 1) (c 0)).not_unlinksFree (spare (M + 1) 1)
        (hnodes ▸ List.mem_cons_self)
      simp only [hhead, walk, if_neg hlinked, next_of_head hnodes, List.head?_cons,
        visitAndCall_of_lt hlt, Option.isSome_map,
        Round.walk_eq_none hN n 0 _ (cycleTimers_round hN)] at hn
      exact Bool.false_ne_true hn

/-! ## A walk that comes to a node it cannot unlink -/

section Stop

/-- The callback of `t` stops the timer `v`. -/
def stopOther (t v : TimerId) : Callbacks Unit := fun u _ _ =>
  (if u = t then [.stop (some v)] else [], ())

/-- Two one-shots that are due, with `v` behind `t`. -/
def duePair (t v : TimerId) : Timers where
  activeTimers := ⟨[t, v], 2⟩
  initialized := true
  timer := fun u : ℕ =>
    { name := "Timer"
      periodTicks := 1
      remainingTicks := 1
      isPeriodic := false
      isActive := decide (u = t ∨ u = v)
      callback := some 0
      param := 0
      freeNext := none
      isStaticallyAllocated := true
      magic := if u = t ∨ u = v then timerMagicWord else 0 }

theorem stopOther_respects (hQ : Q t v) : Respects (stopOther t v) R Q := by
  refine ⟨fun u e s handle => ?_, fun u e s w hw => ?_, fun u e s w hs hu hw hfree => ?_⟩
  · rw [stopOther]
    split <;> simp
  · rw [stopOther] at hw
    split at hw
    · rcases hw with ⟨-, hr, -⟩ | hw
      · exact absurd hr (by simp [TimerOp.restarts])
      · exact hw.elim
    · exact hw.elim
  · -- only `v` is taken out of the list, by the callback of `t`
    by_contra hnot
    have hmem := (hs.mem_visit_next hu hw).2
    refine absurd ?_ hfree.1
    simp only [visitAndCall, stopOther]
    split
    · by_cases hut : u = t
      · have hwv : w ≠ v := fun e => hnot (by rw [hut, e]; exact hQ)
        rw [if_pos hut]
        exact (hs.visit u).mem_nodes_run hmem (.inr fun e => hwv (Option.some_inj.1 e).symm)
      · rw [if_neg hut]
        exact hmem
    · exact hmem

theorem duePair_linked (hne : t ≠ v) : (duePair t v).Linked where
  nodup := by simp [Timers.nodes, duePair, hne]
  mem_nodes u := by simp [Timers.nodes, duePair]
  period_pos _ _ := Nat.one_pos
  magic u hu := by
    simp only [duePair, decide_eq_true_eq] at hu ⊢
    rw [if_pos hu]

/-- The timer `v` is due and stopped when the walk comes to it. -/
theorem duePair_unlinksFree (hne : t ≠ v) :
    (visitAndCall (stopOther t v) (duePair t v) () t).timers.UnlinksFree v := by
  have hl := (duePair_linked hne).visit t
  have hfire : ((duePair t v).visit t).2 = true := by simp [visit_eq, duePair]
  have hv : ((duePair t v).visit t).1.timer v = (duePair t v).timer v := visit_timer_of_ne hne.symm
  have hm : (((duePair t v).visit t).1.timer v).magic = timerMagicWord := by
    rw [hv]
    exact if_pos (.inr rfl)
  rw [visitAndCall, if_pos hfire]
  simp only [stopOther, if_true, runCalls, List.foldl_cons, List.foldl_nil, TimerOp.run, stop_eq hm]
  refine ⟨fun hmem => ?_, ?_, ?_⟩
  · rw [hl.halt_nodes] at hmem
    exact (hl.nodup.mem_erase_iff.1 hmem).1 rfl
  · rw [halt_timer_same, hv]
    exact Nat.le_refl 1
  · rw [halt_timer_same, hv]
    rfl

/-- **A callback that stops the next timer can keep the tick from returning**, if that is a one-shot
and due. -/
theorem exists_not_tickReturns_of_stop (hQ : Q t v) (hne : t ≠ v) :
    ∃ (callbacks : Callbacks Unit) (s : Timers), Respects callbacks R Q ∧ s.Linked ∧
      {u | (s.timer u).magic = timerMagicWord}.Finite ∧ ¬ TickReturns callbacks s () := by
  refine ⟨stopOther t v, duePair t v, stopOther_respects hQ, duePair_linked hne, ?_, ?_⟩
  · refine (Set.toFinite {t, v}).subset fun u hu => ?_
    have hmagic : (if u = t ∨ u = v then timerMagicWord else 0) = timerMagicWord := hu
    rw [Set.mem_insert_iff, Set.mem_singleton_iff]
    by_contra hnot
    rw [if_neg hnot] at hmagic
    exact absurd hmagic (by decide)
  · have hnodes : (duePair t v).nodes = [t, v] := rfl
    rintro ⟨n, hn⟩
    rw [tick, if_pos (show (duePair t v).initialized = true from rfl), hnodes] at hn
    have hlinked := (duePair t v).not_unlinksFree t (hnodes ▸ List.mem_cons_self)
    rcases n with _ | _ | n
    · exact absurd hn (by simp [walk])
    · exact absurd hn (by simp [walk, next_of_head hnodes])
    · simp only [walk, List.head?_cons, if_neg hlinked, next_of_head hnodes,
        if_pos (duePair_unlinksFree hne), Option.map_none] at hn
      exact Bool.false_ne_true hn

end Stop

/-- **When the tick returns.**  Let `R t v` say that the callback of `t` may arm `v` with a period
of one tick, and `Q t v` that it may stop `v` while that is the next timer of the list, due and a
one-shot.  The tick returns for all callbacks that respect this, whatever else they start, stop and
reset, and for every list of active timers, exactly if no timer is related to itself through a chain
of such restarts and no callback may stop another timer so. -/
theorem tickReturns_iff_acyclic (R Q : TimerId → TimerId → Prop) :
    (∀ (σ : Type) (callbacks : Callbacks σ) (s : Timers) (e : σ), Respects callbacks R Q →
      s.Linked → {t | (s.timer t).magic = timerMagicWord}.Finite → TickReturns callbacks s e) ↔
    (∀ t, ¬ TransGen R t t) ∧ ∀ t v, Q t v → t = v := by
  constructor
  · intro h
    refine ⟨fun t ht => ?_, fun t v hQ => ?_⟩
    · obtain ⟨callbacks, s, hc, hs, hfin, hnot⟩ := exists_not_tickReturns_of_cycle (Q := Q) ht
      exact hnot (h ℕ callbacks s 0 hc hs hfin)
    · by_contra hne
      obtain ⟨callbacks, s, hc, hs, hfin, hnot⟩ := exists_not_tickReturns_of_stop (R := R) hQ hne
      exact hnot (h Unit callbacks s () hc hs hfin)
  · rintro ⟨hR, hQ⟩ σ callbacks s e hc hs hfin
    exact tickReturns_of_acyclic hc hR hQ hs hfin e

/-! ## Two timers that restart themselves -/

/-- Every callback restarts its own timer. -/
def restartSelf : Callbacks Unit := fun t _ _ => ([.start (some t)], ())

/-- Two one-shots of period one, created and started. -/
def twoOneShots : Timers :=
  let s := (bss.createStatic 1 ⟨none, 1, false, some 0, 0⟩).1
  let s := (s.createStatic 2 ⟨none, 1, false, some 0, 0⟩).1
  ((s.start (some 1)).1.start (some 2)).1

/-- The list is `[a, b]`, and both timers expire on the next visit. -/
structure Facing (a b : TimerId) (s : Timers) : Prop where
  linked : s.Linked
  nodes : s.nodes = [a, b]
  expiring : ∀ u ∈ s.nodes, (s.timer u).magic = timerMagicWord ∧ (s.timer u).isPeriodic = false ∧
    (s.timer u).callback.isSome = true ∧ (s.timer u).periodTicks = 1 ∧
    (s.timer u).remainingTicks = 1

/-- A visit of the first timer puts it behind the second. -/
theorem Facing.visit {a b : TimerId} (h : Facing a b s) :
    s.next a = some b ∧ Facing b a (visitAndCall restartSelf s () a).timers := by
  have hab : a ≠ b := by
    have := h.linked.nodup
    rw [h.nodes] at this
    simpa using this
  obtain ⟨hm, hp, hcb, hper, hrem⟩ := h.expiring a (by simp [h.nodes])
  have hfire : (s.visit a).2 = true := by simp [visit_eq, hrem, hcb]
  have hm' : ((s.visit a).1.timer a).magic = timerMagicWord := by
    rw [visit_timer_same, visited_magic]; exact hm
  have hleaves : (s.timer a).leaves = true := by simp [Timer.leaves, hrem, hp]
  have heq : (visitAndCall restartSelf s () a).timers = (s.visit a).1.restart a 1 := by
    rw [visitAndCall, if_pos hfire]
    simp only [restartSelf, runCalls, List.foldl_cons, List.foldl_nil, TimerOp.run, start_eq hm']
    rw [visit_timer_same, visited_periodTicks, hper]
  have hl := h.linked.visit a
  have hn : ((s.visit a).1.restart a 1).nodes = [b, a] := by
    rw [hl.restart_nodes, visit_nodes, if_pos hleaves, h.nodes]
    simp [hab.symm]
  refine ⟨next_of_head h.nodes, ?_⟩
  rw [heq]
  refine ⟨hl.restart hm' Nat.one_pos, hn, fun u hu => ?_⟩
  rw [hn] at hu
  by_cases hua : u = a
  · subst hua
    have hfix := visit_fixed (s := s) (t := u) u
    simp only [Timer.fixed, Prod.mk.injEq] at hfix
    rw [restart_timer_same]
    exact ⟨hm', hfix.2.1.trans hp, by rw [hfix.2.2]; exact hcb, rfl, rfl⟩
  · obtain rfl : u = b := by simpa [hua] using hu
    rw [restart_timer_of_ne _ _ _ hua, visit_timer_of_ne hua]
    exact h.expiring u (by simp [h.nodes])

theorem Facing.walk_eq_none (n : ℕ) {a b : TimerId} (h : Facing a b s) :
    walk restartSelf n s () (some a) = none := by
  induction n generalizing s a b with
  | zero => rfl
  | succ n ih =>
    obtain ⟨hnext, hfacing⟩ := h.visit
    have hlinked := s.not_unlinksFree a (by simp [h.nodes])
    simp only [walk, if_neg hlinked, hnext, ih hfacing, Option.map_none]

theorem twoOneShots_linked : twoOneShots.Linked := by
  have h0 := bss_blank.inv
  have h1 := h0.createStatic (t := 1) rfl ⟨none, 1, false, some 0, 0⟩
  have h2 := h1.createStatic (t := 2) rfl ⟨none, 1, false, some 0, 0⟩
  have h3 := ((TimerOp.start (some 1)).run_effect h2.linked).inv h2
  exact (((TimerOp.start (some 2)).run_effect h3.linked).inv h3).linked

/-- The tick does not return when two one-shots of period one restart themselves. -/
theorem not_tickReturns_restartSelf :
    (∀ t e s o, o ∈ (restartSelf t e s).1 → o = .start (some t)) ∧ twoOneShots.nodes = [1, 2] ∧
      twoOneShots.Linked ∧ ¬ TickReturns restartSelf twoOneShots () := by
  refine ⟨fun t e s o ho => by simpa [restartSelf] using ho, rfl, twoOneShots_linked, ?_⟩
  have hf : Facing 1 2 twoOneShots := by
    refine ⟨twoOneShots_linked, rfl, fun u hu => ?_⟩
    obtain rfl | rfl : u = 1 ∨ u = 2 := by
      simpa [show twoOneShots.nodes = [1, 2] from rfl] using hu
    · exact ⟨rfl, rfl, rfl, rfl, rfl⟩
    · exact ⟨rfl, rfl, rfl, rfl, rfl⟩
  rintro ⟨n, hn⟩
  have hwalk : tick restartSelf n twoOneShots () = none := hf.walk_eq_none n
  rw [hwalk] at hn
  exact Bool.false_ne_true hn

end Timers

end Sertos
