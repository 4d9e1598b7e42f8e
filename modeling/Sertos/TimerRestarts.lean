import Sertos.TimerRounds

/-!
# Ticks whose callbacks restart timers

A restart unlinks a timer and appends it to the list, and the tick is under way along that list.  If
the walk has still a node to go to, it will come to the end of the list, and so to the restarted
timer, which then loses a tick that it was not armed for; and if the restarted timer is the very
node that the walk goes to next, the timers in between are not counted down at all.  Nothing of this
happens exactly if timers are restarted by the callback of the last node only
(`restarts_undisturbed_iff`).
-/

set_option autoImplicit false

namespace Sertos

namespace Timers

variable {σ : Type} {callbacks : Callbacks σ} {s s' : Timers} {e : σ} {t u v : TimerId} {n : ℕ}
  {r : TickResult σ} {calls : List TimerOp} {curr : Option TimerId} {log : List (Visit σ)}
  {front rest : List TimerId}

/-- The callbacks start and reset timers and change their periods, and do nothing else to
timers. -/
def Restarting (callbacks : Callbacks σ) : Prop :=
  ∀ t e s, ∀ o ∈ (callbacks t e s).1, o.restarts = true

/-- What calls that restart the timers `touched` do. -/
structure Rearmed (s : Timers) (touched : List TimerId) (s' : Timers) : Prop where
  inv : s'.Inv
  same : touched = [] → s' = s
  timer : ∀ t, t ∉ touched → s'.timer t = s.timer t
  armed : ∀ t ∈ touched, (s'.timer t).isActive = true ∧
    (s'.timer t).remainingTicks = (s'.timer t).periodTicks
  mem : ∀ t ∈ s.nodes, t ∈ s'.nodes
  /-- The timer that was restarted last is at the end of the list. -/
  last : ∀ t, touched.getLast? = some t → s'.nodes.getLast? = some t

theorem Rearmed.refl (h : s.Inv) : Rearmed s [] s :=
  ⟨h, fun _ => rfl, fun _ _ => rfl, by simp, fun _ ht => ht, by simp⟩

/-- **One call.** -/
theorem rearmed_run (h : s.Inv) {o : TimerOp} (ho : o.restarts = true) :
    Rearmed s (if (o.run s).2 = .ok then o.handle.toList else []) (o.run s).1 := by
  have heff := o.run_effect h.linked
  cases hrun : o.run s with
  | mk s' status =>
    rw [hrun] at heff
    cases heff with
    | refused => exact .refl h
    | halted t _ _ hr _ _ _ => simp [ho] at hr
    | restarted t hh hm hr hp =>
      rw [if_pos rfl, hh]
      have hnodes := h.linked.restart_nodes t (o.armedPeriod (s.timer t))
      refine ⟨h.restart hm hp, by simp, fun u hu => ?_, fun u hu => ?_, fun u hu => ?_, ?_⟩
      · exact restart_timer_of_ne s t _ (by simpa using hu)
      · obtain rfl : u = t := by simpa using hu
        rw [restart_timer_same]
        exact ⟨rfl, rfl⟩
      · rw [hnodes]
        by_cases hut : u = t
        · simp [hut]
        · simp [List.mem_erase_of_ne hut, hu]
      · simp [hnodes]

/-- **All calls of a callback.** -/
theorem rearmed_runCalls (h : s.Inv) (hcalls : ∀ o ∈ calls, o.restarts = true) :
    Rearmed s (touchedBy s calls) (s.runCalls calls) := by
  induction calls generalizing s with
  | nil => exact .refl h
  | cons o os ih =>
    have h1 := rearmed_run h (hcalls o List.mem_cons_self)
    have h2 := ih h1.inv fun o' ho' => hcalls o' (List.mem_cons_of_mem o ho')
    rw [touchedBy]
    generalize (if (o.run s).2 = .ok then o.handle.toList else []) = first at h1 ⊢
    refine ⟨h2.inv, fun hnil => ?_, fun t ht => ?_, fun t ht => ?_, fun t ht => h2.mem t (h1.mem t ht),
      fun t ht => ?_⟩
    · rw [List.append_eq_nil_iff] at hnil
      exact (h2.same hnil.2).trans (h1.same hnil.1)
    · rw [List.mem_append, not_or] at ht
      exact (h2.timer t ht.2).trans (h1.timer t ht.1)
    · -- a later call may restart the timer again
      by_cases ht2 : t ∈ touchedBy (o.run s).1 os
      · exact h2.armed t ht2
      · have hsame := h2.timer t ht2
        have harmed := h1.armed t ((List.mem_append.1 ht).resolve_right ht2)
        rw [← hsame] at harmed
        exact harmed
    · cases hlast : (touchedBy (o.run s).1 os).getLast? with
      | some u =>
        rw [List.getLast?_append, hlast] at ht
        exact h2.last t (hlast.trans ht)
      | none =>
        have hnil := List.getLast?_eq_none_iff.1 hlast
        rw [hnil, List.append_nil] at ht
        have hsame : s.runCalls (o :: os) = (o.run s).1 := h2.same hnil
        rw [hsame]
        exact h1.last t ht

theorem rearmed_visitAndCall (hc : Restarting callbacks) (h : (s.visit t).1.Inv) :
    Rearmed (s.visit t).1 ((Visit.mk s e t).touched callbacks)
      (visitAndCall callbacks s e t).timers := by
  obtain ⟨calls, hcalls, htimers, htouched⟩ := visitAndCall_timers callbacks s e t
  rw [htimers, htouched]
  refine rearmed_runCalls h fun o ho => ?_
  rcases hcalls with rfl | rfl
  · exact absurd ho List.not_mem_nil
  · exact hc t e _ o ho

/-! ## Restarts by the last node only -/

/-- The callback of the node restarts no timer, unless the node is the last one of the list. -/
def SparesWalk (callbacks : Callbacks σ) (x : Visit σ) : Prop :=
  x.next = none ∨ x.touched callbacks = []

/-- What the walk over the nodes `rest` does if only the last of them restarts timers. -/
structure LastRestarts (callbacks : Callbacks σ) (s : Timers) (rest : List TimerId)
    (log : List (Visit σ)) (s' : Timers) : Prop where
  nodes : log.map Visit.node = rest
  fired : ∀ x ∈ log, x.fired = decide ((s.timer x.node).remainingTicks ≤ 1)
  touched : ∀ x ∈ log, x.touched callbacks ≠ [] → rest.getLast? = some x.node
  timer : ∀ t, (∀ x ∈ log, t ∉ x.touched callbacks) →
    s'.timer t = if t ∈ rest then (s.timer t).visited else s.timer t
  armed : ∀ x ∈ log, ∀ t ∈ x.touched callbacks,
    (s'.timer t).isActive = true ∧ (s'.timer t).remainingTicks = (s'.timer t).periodTicks

/-- Such a walk visits the nodes that were in the list, each once. -/
theorem lastRestarts (hc : Restarting callbacks) (hw : Walks callbacks s e curr log s') (h : s.Inv)
    (hn : s.nodes = front ++ rest) (hcurr : curr = rest.head?)
    (hspares : ∀ x ∈ log, SparesWalk callbacks x) : LastRestarts callbacks s rest log s' := by
  induction hw generalizing front rest with
  | done s e =>
    obtain rfl : rest = [] := List.head?_eq_none_iff.1 hcurr.symm
    exact ⟨rfl, by simp, by simp, by simp, by simp⟩
  | @visit s s' e t log hw ih =>
    obtain ⟨rest, rfl⟩ := List.head?_eq_some_iff.1 hcurr.symm
    have hnodup := h.nodup
    rw [hn, List.nodup_append, List.nodup_cons] at hnodup
    have ht : t ∉ rest := hnodup.2.1.1
    have hv := visitAt h hn
    have hre := rearmed_visitAndCall (e := e) hc hv.inv
    have hhead := hspares ⟨s, e, t⟩ List.mem_cons_self
    cases rest with
    | nil =>
      -- the last node: the walk ends, whatever the callback restarts
      have hnext : s.next t = none := hv.next
      rw [hnext] at hw
      cases hw
      have hlog : ∀ x ∈ [Visit.mk s e t], x = ⟨s, e, t⟩ := fun x hx => List.mem_singleton.1 hx
      refine ⟨rfl, fun x hx => ?_, fun x hx _ => ?_, fun u hu => ?_, fun x hx u hu => ?_⟩
      · rw [hlog x hx]; exact hv.fired
      · rw [hlog x hx]; rfl
      · rw [hre.timer u (hu _ List.mem_cons_self)]
        by_cases hut : u = t
        · rw [hut, hv.timer, if_pos List.mem_cons_self]
        · rw [hv.others u hut, if_neg (by simpa using hut)]
      · rw [hlog x hx] at hu
        exact hre.armed u hu
    | cons w rest =>
      have hnone : (Visit.mk s e t).touched callbacks = [] := by
        refine hhead.resolve_left fun hnext => ?_
        rw [Visit.next, hv.next] at hnext
        simp at hnext
      have hsame := hre.same hnone
      obtain ⟨front', hn'⟩ := hv.nodes
      have hrest := ih (by rw [hsame]; exact hv.inv) (by rw [hsame]; exact hn') hv.next
        fun x hx => hspares x (List.mem_cons_of_mem _ hx)
      rw [hsame] at hrest
      have hnode : ∀ x ∈ log, x.node ≠ t := fun x hx e =>
        ht (by rw [← hrest.nodes, ← e]; exact List.mem_map_of_mem hx)
      refine ⟨by rw [List.map_cons, hrest.nodes], fun x hx => ?_, fun x hx hne => ?_, fun u hu => ?_,
        fun x hx u hu => ?_⟩
      · rcases List.mem_cons.1 hx with rfl | hx
        · exact hv.fired
        · rw [hrest.fired x hx, hv.others _ (hnode x hx)]
      · rcases List.mem_cons.1 hx with rfl | hx
        · exact absurd hnone hne
        · rw [List.getLast?_cons_cons]
          exact hrest.touched x hx hne
      · rw [hrest.timer u fun x hx => hu x (List.mem_cons_of_mem _ hx)]
        by_cases hut : u = t
        · rw [hut, if_neg ht, hv.timer, if_pos List.mem_cons_self]
        · rw [hv.others u hut]
          simp [hut]
      · rcases List.mem_cons.1 hx with rfl | hx
        · rw [hnone] at hu
          exact absurd hu List.not_mem_nil
        · exact hrest.armed x hx u hu

/-! ## The tick -/

/-- What a tick from `s` to `s'`, made of the rounds `log`, must do if restarts are not to disturb
it. -/
structure Undisturbed (callbacks : Callbacks σ) (s : Timers) (log : List (Visit σ)) (s' : Timers) :
    Prop where
  /-- A timer that was active and has not been restarted is counted down exactly once, and fires if
  its count runs out. -/
  counted : ∀ t ∈ s.nodes, (∀ x ∈ log, t ∉ x.touched callbacks) →
    (log.map Visit.node).count t = 1 ∧ s'.timer t = (s.timer t).visited ∧
      ((log.filter Visit.fired).map Visit.node).count t =
        if (s.timer t).remainingTicks ≤ 1 then 1 else 0
  /-- A timer that has been restarted ends the tick active and with its full period to go. -/
  restarted : ∀ x ∈ log, ∀ t ∈ x.touched callbacks,
    (s'.timer t).isActive = true ∧ (s'.timer t).remainingTicks = (s'.timer t).periodTicks
  /-- It does not fire in the same tick any more. -/
  later : ∀ before x after, log = before ++ x :: after → ∀ t ∈ x.touched callbacks,
    ∀ y ∈ after, y.node = t → y.fired = false

theorem LastRestarts.undisturbed (h : LastRestarts callbacks s s.nodes log s') (hs : s.Inv) :
    Undisturbed callbacks s log s' := by
  have hnodup : (log.map Visit.node).Nodup := by rw [h.nodes]; exact hs.nodup
  refine ⟨fun t ht hnot => ⟨?_, ?_, ?_⟩, h.armed, ?_⟩
  · rw [h.nodes]
    exact List.count_eq_one_of_mem hs.nodup ht
  · rw [h.timer t hnot, if_pos ht]
  · have hfilter : (log.filter Visit.fired).map Visit.node =
        s.nodes.filter fun t => decide ((s.timer t).remainingTicks ≤ 1) := by
      rw [← h.nodes, List.filter_map]
      exact congrArg _ (List.filter_congr fun x hx => h.fired x hx)
    rw [hfilter]
    split
    · next hle =>
      refine List.count_eq_one_of_mem (hs.nodup.filter _) ?_
      exact List.mem_filter.2 ⟨ht, by simpa using hle⟩
    · next hle =>
      rw [List.count_eq_zero]
      exact fun hm => hle (by simpa using (List.mem_filter.1 hm).2)
  · -- nothing comes after the round that restarts timers
    rintro before x after rfl t ht y hy -
    have hlast := h.touched x (by simp) (List.ne_nil_of_mem ht)
    rw [← h.nodes, List.map_append, List.map_cons, List.getLast?_append] at hlast
    rw [List.map_append, List.nodup_append, List.map_cons, List.nodup_cons] at hnodup
    obtain ⟨z, hz⟩ := Option.ne_none_iff_exists'.1 fun hnone =>
      List.ne_nil_of_mem (List.mem_map_of_mem (f := Visit.node) hy) (List.getLast?_eq_none_iff.1 hnone)
    rw [List.getLast?_cons, hz] at hlast
    have hzx : z = x.node := by simpa using hlast
    exact absurd (hzx ▸ List.mem_of_getLast? hz) hnodup.2.1.1

/-- **A restart by another node disturbs the tick.** -/
theorem spares_of_undisturbed (hc : Restarting callbacks) (hw : Walks callbacks s e curr log s')
    (h : s.Inv) (hcurr : ∀ t ∈ curr, t ∈ s.nodes)
    (hfull : ∀ x ∈ log, ∀ t ∈ x.touched callbacks,
      (s'.timer t).remainingTicks = (s'.timer t).periodTicks)
    (hlater : ∀ before x after, log = before ++ x :: after → ∀ t ∈ x.touched callbacks,
      ∀ y ∈ after, y.node = t → y.fired = false) :
    ∀ x ∈ log, SparesWalk callbacks x := by
  induction hw with
  | done s e => simp
  | @visit s s' e t log hw ih =>
    obtain ⟨front, rest, hn⟩ := List.append_of_mem (hcurr t rfl)
    have hv := visitAt h hn
    have hre := rearmed_visitAndCall (e := e) hc hv.inv
    have hinv := hre.inv
    obtain ⟨front', hn'⟩ := hv.nodes
    have hmem : ∀ u ∈ s.next t, u ∈ (visitAndCall callbacks s e t).timers.nodes := by
      intro u hu
      refine hre.mem u ?_
      rw [hv.next] at hu
      rw [hn']
      exact List.mem_append_right _ (List.mem_of_mem_head? hu)
    have hrest : ∀ x ∈ log, SparesWalk callbacks x := by
      refine ih hinv hmem (fun x hx => hfull x (List.mem_cons_of_mem _ hx)) ?_
      rintro before x after rfl
      exact hlater (⟨s, e, t⟩ :: before) x after rfl
    intro x hx
    rcases List.mem_cons.1 hx with rfl | hx
    swap
    · exact hrest x hx
    by_contra hspares
    rw [SparesWalk, not_or] at hspares
    obtain ⟨hnext, htouched⟩ := hspares
    obtain ⟨u, hu⟩ := Option.ne_none_iff_exists'.1 hnext
    -- the timer `v` restarted last is at the end of the list, and the walk gets there
    obtain ⟨v, hlast⟩ := Option.ne_none_iff_exists'.1 (mt List.getLast?_eq_none_iff.1 htouched)
    have hvt : v ∈ (Visit.mk s e t).touched callbacks := List.mem_of_getLast? hlast
    obtain ⟨front₂, rest₂, hn₂⟩ := List.append_of_mem (hmem u hu)
    have hend : (u :: rest₂).getLast? = some v := by
      have := hre.last v hlast
      rw [hn₂, List.getLast?_append] at this
      simpa [List.getLast?_cons] using this
    have hwalked := lastRestarts hc hw hinv hn₂ hu hrest
    have hvmem : v ∈ u :: rest₂ := List.mem_of_getLast? hend
    obtain ⟨y, hy, hyv⟩ := List.mem_map.1 (hwalked.nodes ▸ hvmem)
    have hyfired : y.fired = false := hlater [] ⟨s, e, t⟩ log rfl v hvt y hy hyv
    have hcount := hwalked.fired y hy
    rw [hyfired, hyv] at hcount
    have hnot : ∀ z ∈ log, v ∉ z.touched callbacks := by
      intro z hz hvz
      have hzv := hwalked.touched z hz (List.ne_nil_of_mem hvz)
      rw [hend, Option.some_inj] at hzv
      have hzfired := hwalked.fired z hz
      rw [← hzv, ← hcount, Visit.fired_of_touched (List.ne_nil_of_mem hvz)] at hzfired
      exact Bool.false_ne_true hzfired.symm
    have hfinal := hfull ⟨s, e, t⟩ List.mem_cons_self v hvt
    have harmed := (hre.armed v hvt).2
    have hgt : ¬ ((visitAndCall callbacks s e t).timers.timer v).remainingTicks ≤ 1 := by
      simpa using hcount.symm
    rw [hwalked.timer v hnot, if_pos hvmem, Timer.visited, if_neg hgt] at hfinal
    simp only at hfinal
    omega

/-- **When restarts from callbacks do not disturb the tick.**  Exactly if timers are restarted only
by the callback of a timer that is the last one in the list when it fires. -/
theorem restarts_undisturbed_iff (hc : Restarting callbacks) (h : s.Inv)
    (htick : tick callbacks n s e = some r) :
    Undisturbed callbacks s (visits callbacks n s e s.nodes.head?) r.timers ↔
      ∀ x ∈ visits callbacks n s e s.nodes.head?, SparesWalk callbacks x := by
  obtain ⟨hw, -⟩ := walks_of_tick h htick
  constructor
  · intro hu
    exact spares_of_undisturbed hc hw h (fun t ht => List.mem_of_mem_head? ht)
      (fun x hx t ht => (hu.restarted x hx t ht).2) hu.later
  · intro hspares
    exact (lastRestarts hc hw h (List.nil_append s.nodes).symm rfl hspares).undisturbed h

/-- The last of three timers fires, and restarts itself and the first one. -/
theorem restarts_undisturbed_iff_last :
    ∃ r, tick (onlyCalls 3 [.start (some 3), .reset (some 1)]) 3 (threeTimers 5 5 1) () = some r ∧
      r.timers.nodes = [2, 3, 1] ∧
      Undisturbed (onlyCalls 3 [.start (some 3), .reset (some 1)]) (threeTimers 5 5 1)
        (visits (onlyCalls 3 [.start (some 3), .reset (some 1)]) 3 (threeTimers 5 5 1) ()
          (threeTimers 5 5 1).nodes.head?) r.timers := by
  have hc : Restarting (onlyCalls 3 [.start (some 3), .reset (some 1)]) := by
    intro t e s o ho
    rw [onlyCalls] at ho
    split at ho
    · rcases List.mem_pair.1 ho with rfl | rfl <;> rfl
    · exact absurd ho List.not_mem_nil
  have hinv : (threeTimers 5 5 1).Inv :=
    ((bss_blank.inv.launch rfl 5).launch rfl 5).launch rfl 1
  exact ⟨_, rfl, rfl, (restarts_undisturbed_iff hc hinv rfl).2 (by unfold SparesWalk; decide +kernel)⟩

/-- **The first of three timers restarts the second.**  The walk goes on with the second, which is
now at the end of the list: it ends the tick with 4 instead of 5 ticks to go, and the third is not
counted down at all. -/
theorem restart_disturbs :
    ∃ r, tick (onlyCalls 1 [.start (some 2)]) 3 (threeTimers 1 5 5) () = some r ∧
      (visits (onlyCalls 1 [.start (some 2)]) 3 (threeTimers 1 5 5) ()
        (threeTimers 1 5 5).nodes.head?).map Visit.node = [1, 2] ∧
      (r.timers.timer 2).periodTicks = 5 ∧ (r.timers.timer 2).remainingTicks = 4 ∧
      3 ∈ (threeTimers 1 5 5).nodes ∧ ((threeTimers 1 5 5).timer 3).remainingTicks = 5 ∧
      (r.timers.timer 3).remainingTicks = 5 ∧
      ¬ Undisturbed (onlyCalls 1 [.start (some 2)]) (threeTimers 1 5 5)
        (visits (onlyCalls 1 [.start (some 2)]) 3 (threeTimers 1 5 5) ()
          (threeTimers 1 5 5).nodes.head?) r.timers := by
  refine ⟨_, rfl, rfl, rfl, rfl, by decide, rfl, rfl, fun h => ?_⟩
  have hfull := h.restarted ⟨threeTimers 1 5 5, (), 1⟩ List.mem_cons_self 2 (by decide +kernel)
  exact absurd hfull.2 (by decide +kernel)

end Timers

end Sertos
