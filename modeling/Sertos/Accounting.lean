import Mathlib.Data.Nat.ModEq
import Mathlib.Algebra.BigOperators.Group.List.Basic
import Sertos.Frames
import Sertos.BlockingWindow

/-!
# Run-time accounting

`sertos_stats_on_switch` measures the interval that ends with a switch from a time stamp in the
control block of the outgoing task, and adds it to that task's total.  What it should measure is
the time since the last switch, or the last reset, whoever it was that ran: a `Ledger` keeps the
previous sample of the counter, the time that has passed since the last reset, and the share of
each task, all of them without a bound.

The code keeps such a ledger up to the width of its counters (`Balanced`), because the time stamp of
the *current* task is always the previous sample: it is the only one that is ever read, and switches
and resets, which take the samples, both write it.

A run is made of switches, resets, creations, and of anything else that leaves the accounting, the
registry and the current task alone; `accountStep_of_section` says that the critical sections of
the kernel are such steps.
-/

set_option autoImplicit false

namespace Sertos

open Intrusive Lts Scheduler

/-! ## The ledger -/

/-- What the accounting is to keep. -/
structure Ledger where
  /-- The previous sample of the run-time counter. -/
  last : ℕ
  /-- The time that has passed since the last reset. -/
  elapsed : ℕ
  /-- The share of each task. -/
  credit : TaskId → ℕ

namespace Ledger

/-- The ledger before anything has run. -/
def empty : Ledger := ⟨0, 0, fun _ => 0⟩

/-- The time between the previous sample and this one, on a counter of 32 bits. -/
def since (l : Ledger) (now : ℕ) : ℕ := (now + 2 ^ 32 - l.last) % 2 ^ 32

/-- A switch away from `prev`, the task that ran since the previous sample. -/
def onSwitch (l : Ledger) (prev : Option TaskId) (now : ℕ) : Ledger :=
  match prev with
  | none => { l with last := now }
  | some p =>
    { last := now
      elapsed := l.elapsed + l.since now
      credit := Function.update l.credit p (l.credit p + l.since now) }

/-- A reset. -/
def onReset (now : ℕ) : Ledger := ⟨now, 0, fun _ => 0⟩

end Ledger

/-! ## Runs -/

/-- A step of a run, as far as the accounting is concerned. -/
inductive AccountEvent
  | switch
  | create (config : TaskConfig) (t : TaskId)
  | reset
  | other
deriving DecidableEq, Repr

namespace Kernel

/-- The next sample of the run-time counter. -/
def sample (k : Kernel) : ℕ := k.stats.runtimeCounter k.stats.readings

/-- `sertos_stats_reset`. -/
def statsReset (k : Kernel) : Kernel := { k with stats := k.stats.reset k.taskRegistry.nodes }

end Kernel

open Kernel

/-- One step of the kernel.  Tasks are not deleted, so the one a switch selects is registered. -/
def AccountStep (k : Kernel) : AccountEvent → Kernel → Prop
  | .switch, k' => (∀ n, selectNextTask k = some n → k.Live n) ∧ k' = performSwitch k
  | .create config t, k' => ¬ k.Live t ∧ k' = (Task.createStaticSection k config t).1
  | .reset, k' => k' = k.statsReset
  | .other, k' =>
    k'.stats = k.stats ∧ k'.currentTcb = k.currentTcb ∧ k'.taskRegistry = k.taskRegistry

/-- What the step is to enter in the ledger. -/
def Ledger.record (l : Ledger) (k : Kernel) : AccountEvent → Ledger
  | .switch => if (selectNextTask k).isSome then l.onSwitch k.currentTcb k.sample else l
  | .reset => .onReset k.sample
  | .create _ _ | .other => l

/-- One step of the kernel, with its entry. -/
def LedgerStep (x : Kernel × Ledger) (e : AccountEvent) (y : Kernel × Ledger) : Prop :=
  AccountStep x.1 e y.1 ∧ y.2 = x.2.record x.1 e

/-! ## Sums over the registry -/

section Sums

variable {f g : TaskId → ℕ} {l : List TaskId} {t : TaskId} {m : ℕ}

theorem sum_map_update (hl : l.Nodup) (ht : t ∈ l) (d : ℕ) :
    (l.map (Function.update f t (f t + d))).sum = (l.map f).sum + d := by
  induction l with
  | nil => simp at ht
  | cons u l ih =>
    obtain ⟨hu, hl⟩ := List.nodup_cons.1 hl
    rw [List.map_cons, List.map_cons, List.sum_cons, List.sum_cons]
    rcases List.mem_cons.1 ht with rfl | ht
    · have hrest : l.map (Function.update f t (f t + d)) = l.map f := by
        refine List.map_congr_left fun v hv => ?_
        have hvt : v ≠ t := fun hvt => hu (hvt ▸ hv)
        rw [Function.update_of_ne hvt]
      rw [hrest, Function.update_self]
      omega
    · have hut : u ≠ t := fun hut => hu (hut ▸ ht)
      rw [ih hl ht, Function.update_of_ne hut]
      omega

theorem sum_map_modEq (h : ∀ t ∈ l, f t ≡ g t [MOD m]) :
    (l.map f).sum ≡ (l.map g).sum [MOD m] := by
  induction l with
  | nil => rfl
  | cons u l ih =>
    simp only [List.map_cons, List.sum_cons]
    exact (h u (by simp)).add (ih fun t ht => h t (by simp [ht]))

theorem le_sum_map (ht : t ∈ l) : f t ≤ (l.map f).sum := by
  induction l with
  | nil => simp at ht
  | cons u l ih =>
    rw [List.map_cons, List.sum_cons]
    rcases List.mem_cons.1 ht with rfl | ht
    · omega
    · have := ih ht
      omega

end Sums

/-! ## The books balance -/

/-- **The invariant of the accounting.** -/
structure Balanced (k : Kernel) (l : Ledger) : Prop where
  enabled : k.stats.enabled = true
  nodup : k.taskRegistry.nodes.Nodup
  current_live : ∀ c, k.currentTcb = some c → k.Live c
  /-- The time stamp of the current task is the previous sample. -/
  lastEntry : ∀ c, k.currentTcb = some c → k.stats.runTimeLastEntry c = l.last
  total : ∀ t, k.Live t → k.stats.runTimeTotal t = l.credit t % 2 ^ 64
  credit_eq_zero : ∀ t, ¬ k.Live t → l.credit t = 0
  elapsed : (k.taskRegistry.nodes.map l.credit).sum = l.elapsed
  switches : (k.taskRegistry.nodes.map k.stats.switchInCount).sum ≡
    k.stats.totalSwitches [MOD 2 ^ 32]

section Steps

variable {k k' : Kernel} {l : Ledger} {n : TaskId}

/-- The part of the accounts that a switch updates in the same way whoever ran before. -/
theorem onSwitch_fields {s : Stats} (hen : s.enabled = true) (prev : Option TaskId) (n : TaskId) :
    (s.onSwitch prev n).enabled = true ∧
    (s.onSwitch prev n).runTimeLastEntry =
      Function.update s.runTimeLastEntry n (s.runtimeCounter s.readings) := by
  by_cases hpn : prev = some n <;> simp [Stats.onSwitch, hen, hpn]

/-- A task that is switched in is counted, unless it ran already. -/
theorem onSwitch_counts {s : Stats} (hen : s.enabled = true) (prev : Option TaskId) (n : TaskId) :
    ((s.onSwitch prev n).switchInCount = s.switchInCount ∧
      (s.onSwitch prev n).totalSwitches = s.totalSwitches) ∨
    ((s.onSwitch prev n).switchInCount =
        Function.update s.switchInCount n ((s.switchInCount n + 1) % 2 ^ 32) ∧
      (s.onSwitch prev n).totalSwitches = (s.totalSwitches + 1) % 2 ^ 32) := by
  by_cases hpn : prev = some n <;> simp [Stats.onSwitch, hen, hpn]

theorem onSwitch_total_none {s : Stats} (n : TaskId) :
    (s.onSwitch none n).runTimeTotal = s.runTimeTotal := by
  by_cases hen : s.enabled = true <;> simp [Stats.onSwitch, hen]

theorem onSwitch_total_some {s : Stats} (hen : s.enabled = true) (p n : TaskId) :
    (s.onSwitch (some p) n).runTimeTotal = Function.update s.runTimeTotal p ((s.runTimeTotal p +
      (s.runtimeCounter s.readings + 2 ^ 32 - s.runTimeLastEntry p) % 2 ^ 32) % 2 ^ 64) := by
  by_cases hpn : p = n <;> simp [Stats.onSwitch, hen, hpn]

/-- The number of times tasks were switched in, when `n` is. -/
theorem switches_onSwitch {s : Stats} (hen : s.enabled = true) {tasks : List TaskId}
    (hnd : tasks.Nodup) (hn : n ∈ tasks) (prev : Option TaskId)
    (h : (tasks.map s.switchInCount).sum ≡ s.totalSwitches [MOD 2 ^ 32]) :
    (tasks.map (s.onSwitch prev n).switchInCount).sum ≡
      (s.onSwitch prev n).totalSwitches [MOD 2 ^ 32] := by
  rcases onSwitch_counts hen prev n with ⟨hc, ht⟩ | ⟨hc, ht⟩
  · rw [hc, ht]; exact h
  · rw [hc, ht]
    have hsum : (tasks.map (Function.update s.switchInCount n
        ((s.switchInCount n + 1) % 2 ^ 32))).sum ≡ (tasks.map s.switchInCount).sum + 1
        [MOD 2 ^ 32] := by
      rw [← sum_map_update hnd hn 1]
      refine sum_map_modEq fun t _ => ?_
      by_cases htn : t = n
      · subst htn
        simp only [Function.update_self]
        exact Nat.mod_modEq _ _
      · simp only [Function.update_of_ne htn]
        rfl
    exact (hsum.trans (h.add_right 1)).trans (Nat.mod_modEq _ _).symm

/-- **A switch keeps the books balanced.** -/
theorem Balanced.dispatch (h : Balanced k l) (hn : k.Live n) :
    Balanced (dispatch k n) (l.onSwitch k.currentTcb k.sample) := by
  obtain ⟨hen, hnd, hlive, hlast, htotal, hzero, helapsed, hsw⟩ := h
  obtain ⟨hen', hentry'⟩ := onSwitch_fields hen k.currentTcb n
  have hreg := dispatch_taskRegistry k n
  have hL : ∀ t, (Scheduler.dispatch k n).Live t ↔ k.Live t := fun t => by rw [Live, Live, hreg]
  have hlastEq : (l.onSwitch k.currentTcb k.sample).last = k.sample := by
    cases k.currentTcb <;> rfl
  refine ⟨hen', hreg ▸ hnd, fun c hc => ?_, fun c hc => ?_, fun t ht => ?_,
    fun t ht => ?_, ?_, ?_⟩
  · obtain rfl : n = c := Option.some_inj.1 hc
    exact (hL n).2 hn
  · obtain rfl : n = c := Option.some_inj.1 hc
    rw [hlastEq]
    exact (congrFun hentry' n).trans (Function.update_self ..)
  · rw [hL] at ht
    cases hp : k.currentTcb with
    | none =>
      simp only [Scheduler.dispatch, hp, onSwitch_total_none, Ledger.onSwitch]
      exact htotal t ht
    | some p =>
      simp only [Scheduler.dispatch, hp, onSwitch_total_some hen, Ledger.onSwitch]
      by_cases htp : t = p
      · subst htp
        simp only [Function.update_self, htotal t ht, hlast t hp, Ledger.since, sample]
        rw [Nat.mod_add_mod]
      · simp only [Function.update_of_ne htp]
        exact htotal t ht
  · rw [hL] at ht
    cases hp : k.currentTcb with
    | none => exact hzero t ht
    | some p =>
      have htp : t ≠ p := fun htp => ht (htp ▸ hlive p hp)
      simp only [Ledger.onSwitch, Function.update_of_ne htp]
      exact hzero t ht
  · rw [hreg]
    cases hp : k.currentTcb with
    | none => exact helapsed
    | some p =>
      simp only [Ledger.onSwitch]
      rw [sum_map_update hnd (hlive p hp), helapsed]
  · rw [hreg]
    exact switches_onSwitch hen hnd hn k.currentTcb hsw

theorem Balanced.switch (h : Balanced k l) (hs : ∀ n, selectNextTask k = some n → k.Live n) :
    Balanced (performSwitch k) (l.record k .switch) := by
  cases hsel : selectNextTask k with
  | none =>
    rw [performSwitch_of_none hsel]
    simpa only [Ledger.record, hsel, Option.isSome_none, Bool.false_eq_true, if_false] using h
  | some n =>
    rw [performSwitch_of_some hsel]
    simpa only [Ledger.record, hsel, Option.isSome_some, if_true] using h.dispatch (hs n hsel)

/-- **A reset keeps the books balanced**: its sample is the time stamp of every task. -/
theorem Balanced.reset (h : Balanced k l) : Balanced k.statsReset (.onReset k.sample) where
  enabled := h.enabled
  nodup := h.nodup
  current_live := h.current_live
  lastEntry c hc := by
    have hlive : c ∈ k.taskRegistry.nodes := h.current_live c hc
    simp [statsReset, Stats.reset, Ledger.onReset, hlive, sample]
  total t ht := by
    have hlive : t ∈ k.taskRegistry.nodes := ht
    simp [statsReset, Stats.reset, Ledger.onReset, hlive]
  credit_eq_zero t _ := rfl
  elapsed := by simp [Ledger.onReset]
  switches := by
    have hzero : k.taskRegistry.nodes.map k.statsReset.stats.switchInCount =
        k.taskRegistry.nodes.map fun _ => 0 := by
      refine List.map_congr_left fun t ht => ?_
      simp [statsReset, Stats.reset, ht]
    show (k.taskRegistry.nodes.map k.statsReset.stats.switchInCount).sum ≡ 0 [MOD 2 ^ 32]
    rw [hzero]
    simp [Nat.ModEq]

/-- **A creation keeps the books balanced**: the accounts of the new task are opened empty. -/
theorem Balanced.enroll (h : Balanced k l) {t : TaskId} (ht : ¬ k.Live t)
    (config : TaskConfig) : Balanced (k.enroll t config) l := by
  have hne : ∀ u, k.Live u → u ≠ t := fun u hu hut => ht (hut ▸ hu)
  have hnodes : (k.enroll t config).taskRegistry.nodes = k.taskRegistry.nodes ++ [t] := rfl
  have hold : ∀ {f g : TaskId → ℕ}, (∀ u, u ≠ t → f u = g u) →
      k.taskRegistry.nodes.map f = k.taskRegistry.nodes.map g :=
    fun hfg => List.map_congr_left fun u hu => hfg u (hne u hu)
  refine ⟨h.enabled, ?_, fun c hc => ?_, fun c hc => ?_, fun u hu => ?_,
    fun u hu => ?_, ?_, ?_⟩
  · rw [hnodes, List.nodup_append]
    refine ⟨h.nodup, List.nodup_singleton t, ?_⟩
    rintro a ha b hb rfl
    exact ht (List.mem_singleton.1 hb ▸ ha)
  · exact live_enroll.2 (Or.inl (h.current_live c hc))
  · have hct := hne c (h.current_live c hc)
    show Function.update k.stats.runTimeLastEntry t 0 c = l.last
    rw [Function.update_of_ne hct]
    exact h.lastEntry c hc
  · show Function.update k.stats.runTimeTotal t 0 u = l.credit u % 2 ^ 64
    rcases live_enroll.1 hu with hu | rfl
    · rw [Function.update_of_ne (hne u hu)]
      exact h.total u hu
    · rw [Function.update_self, h.credit_eq_zero u ht]
      rfl
  · exact h.credit_eq_zero u fun hu' => hu (live_enroll.2 (Or.inl hu'))
  · rw [hnodes, List.map_append, List.sum_append, h.elapsed]
    simp [h.credit_eq_zero t ht]
  · show ((k.taskRegistry.nodes ++ [t]).map (Function.update k.stats.switchInCount t 0)).sum ≡
      k.stats.totalSwitches [MOD 2 ^ 32]
    rw [List.map_append, List.sum_append, hold fun u hu => Function.update_of_ne hu 0 _]
    simpa using h.switches

/-- Every step keeps the books balanced. -/
theorem Balanced.step {e : AccountEvent} (h : Balanced k l) (hs : AccountStep k e k') :
    Balanced k' (l.record k e) := by
  cases e with
  | switch =>
    obtain ⟨hsel, rfl⟩ := hs
    exact h.switch hsel
  | create config t =>
    obtain ⟨ht, rfl⟩ := hs
    rcases Task.createStaticSection_cases k config t with ⟨-, e⟩ | ⟨-, e⟩
    · rw [e]; exact h
    · rw [e]; exact h.enroll ht config
  | reset =>
    obtain rfl := hs
    exact h.reset
  | other =>
    obtain ⟨hstats, hcur, hreg⟩ := hs
    have hL : ∀ t, k'.Live t ↔ k.Live t := fun t => by rw [Live, Live, hreg]
    exact
      { enabled := by rw [hstats]; exact h.enabled
        nodup := by rw [hreg]; exact h.nodup
        current_live := fun c hc => (hL c).2 (h.current_live c (hcur ▸ hc))
        lastEntry := fun c hc => by rw [hstats]; exact h.lastEntry c (hcur ▸ hc)
        total := fun t ht => by rw [hstats]; exact h.total t ((hL t).1 ht)
        credit_eq_zero := fun t ht => h.credit_eq_zero t (mt (hL t).2 ht)
        elapsed := by rw [hreg]; exact h.elapsed
        switches := by rw [hreg, hstats]; exact h.switches }

end Steps

/-! ## The critical sections of the kernel -/

/-- The accounts, the registry and the current task are the same. -/
structure SameAccounts (k k' : Kernel) : Prop where
  stats : k'.stats = k.stats
  currentTcb : k'.currentTcb = k.currentTcb
  taskRegistry : k'.taskRegistry = k.taskRegistry

namespace SameAccounts

variable {k k' k'' : Kernel} {t : TaskId} {W : WaitList}

theorem refl (k : Kernel) : SameAccounts k k := ⟨rfl, rfl, rfl⟩

theorem trans (h : SameAccounts k k') (h' : SameAccounts k' k'') : SameAccounts k k'' :=
  ⟨h'.stats.trans h.stats, h'.currentTcb.trans h.currentTcb,
    h'.taskRegistry.trans h.taskRegistry⟩

theorem addReady (k : Kernel) (t : TaskId) : SameAccounts k (addReady k t).1 := by
  rw [Scheduler.addReady]
  split <;> exact ⟨rfl, rfl, rfl⟩

theorem removeReady (k : Kernel) (t : TaskId) : SameAccounts k (removeReady k t).1 := by
  simp only [Scheduler.removeReady]
  split
  · exact refl k
  · split
    · split <;> exact ⟨rfl, rfl, rfl⟩
    · exact refl k

theorem waitListRemove (k : Kernel) (W : WaitList) (t : TaskId) :
    SameAccounts k (waitListRemove k W t) := by
  rw [Scheduler.waitListRemove]
  split
  · exact ⟨rfl, rfl, rfl⟩
  · exact refl k

theorem modify (k : Kernel) (t : TaskId) (f : Tcb → Tcb) : SameAccounts k (k.modify t f) :=
  ⟨rfl, rfl, rfl⟩

theorem processDelayedTask (k : Kernel) (t : TaskId) :
    SameAccounts k (processDelayedTask k t).1 :=
  processDelayedTask_of_writes k t refl (fun _ _ _ => trans) (fun x => modify x t _)
    (fun _ => ⟨rfl, rfl, rfl⟩) (fun x W => (waitListRemove x W t).trans (modify _ t _))
    (fun x => addReady x t)

theorem processDelayedFrom (l : List TaskId) (k : Kernel) (b : Bool) :
    SameAccounts k (processDelayedFrom k b l).1 :=
  processDelayedFrom_of_rounds k refl (fun _ _ _ => trans)
    (fun t _ x => processDelayedTask x t) b

theorem processTimeSlicing (k : Kernel) : SameAccounts k (processTimeSlicing k) := by
  rw [Scheduler.processTimeSlicing]
  split
  · dsimp only
    split
    · exact ⟨rfl, rfl, rfl⟩
    · exact refl k
  · exact refl k

theorem tickSection (k : Kernel) : SameAccounts k (tickSection k).1 := by
  have hbump : SameAccounts k { k with systemTicks := k.systemTicks + 1 } := ⟨rfl, rfl, rfl⟩
  simp only [Scheduler.tickSection, processDelayedTasks]
  exact (hbump.trans (processDelayedFrom _ _ false)).trans (processTimeSlicing _)

theorem unblockHighest (k : Kernel) (W : WaitList) :
    SameAccounts k (waitListUnblockHighest k W).1 := by
  rw [waitListUnblockHighest]
  split
  · exact refl k
  · next t _ _ =>
    dsimp only
    refine trans ?_ (addReady _ t)
    refine (waitListRemove k W t).trans ?_
    split <;> exact ⟨rfl, rfl, rfl⟩

/-- Of the critical sections only creations concern the accounts. -/
theorem critical {a : Call} (ha : ∀ config t, a ≠ .create config t) (k : Kernel) :
    SameAccounts k (a.critical k) := by
  cases a with
  | create config t => exact absurd rfl (ha config t)
  | start tickInit => exact ⟨rfl, rfl, rfl⟩
  | tick => exact tickSection k
  | yield => exact processTimeSlicing k
  | delay n =>
    rw [Call.critical]
    split
    · exact processTimeSlicing k
    · split
      · next c _ _ =>
        simp only [delaySection]
        generalize hk : (Scheduler.removeReady k c).1 = k₁
        exact (hk ▸ removeReady k c).trans ⟨rfl, rfl, rfl⟩
      · exact refl k
  | block W timeout =>
    rw [Call.critical]
    split
    · next c _ _ =>
      simp only [waitListBlockSection]
      generalize hk : (Scheduler.removeReady k c).1 = k₁
      refine (hk ▸ removeReady k c).trans ?_
      split <;> exact ⟨rfl, rfl, rfl⟩
    · exact refl k
  | unblock W => exact unblockHighest k W
  | reschedule => exact refl k
  | lock => exact ⟨rfl, rfl, rfl⟩
  | unlock =>
    rw [Call.critical, unlockSection]
    split
    · split <;> exact ⟨rfl, rfl, rfl⟩
    · exact refl k

end SameAccounts

/-- **The critical sections of the kernel are steps of the accounting.** -/
theorem accountStep_of_section {k k' : Kernel} {s : Section} (h : k.Inv)
    (hs : Section.Step k s k') : ∃ es, Trace AccountStep k es k' := by
  have hother : ∀ {k₁ k₂ : Kernel}, SameAccounts k₁ k₂ → AccountStep k₁ .other k₂ :=
    fun hsame => ⟨hsame.stats, hsame.currentTcb, hsame.taskRegistry⟩
  have hswitch : ∀ {k₁ : Kernel}, k₁.Inv → AccountStep k₁ .switch (performSwitch k₁) :=
    fun h₁ => ⟨fun n hn => (selectNextTask_isTop h₁.lists hn).1.1, rfl⟩
  obtain ⟨ha, rfl⟩ := hs
  cases s with
  | critical a =>
    by_cases hc : ∃ config t, a = .create config t
    · obtain ⟨config, t, rfl⟩ := hc
      exact ⟨[.create config t], .single ⟨ha, rfl⟩⟩
    · refine ⟨[.other], .single (hother (SameAccounts.critical (fun config t e => ?_) k))⟩
      exact hc ⟨config, t, e⟩
  | start tickInit =>
    have hrun : ∀ b, AccountStep k .other { k with isRunning := b } :=
      fun b => hother ⟨rfl, rfl, rfl⟩
    simp only [Section.run, start]
    split
    · refine ⟨[.other, .switch], .cons (hrun true) (.single (hswitch ?_))⟩
      exact SameCore.inv (k := k) ⟨rfl, rfl, rfl, rfl, rfl, rfl⟩ h
    · exact ⟨[.other], .single (hrun false)⟩
  | switchContext =>
    simp only [Section.run, switchContext]
    split
    · exact ⟨[.other], .single (hother ⟨rfl, rfl, rfl⟩)⟩
    · split
      · exact ⟨[], .nil k⟩
      · split
        · exact ⟨[], .nil k⟩
        · exact ⟨[.switch], .single (hswitch h)⟩
  | performSwitch => exact ⟨[.switch], .single (hswitch h)⟩

/-! ## Conservation -/

/-- After an initialisation that switches the statistics on, the books are balanced and empty. -/
theorem balanced_initWithConfig {mem : Kernel} {config : Config} {idleStack : ℕ}
    (hinit : (initWithConfig mem (some config) idleStack).2 = .ok)
    (hen : config.enableRuntimeStats = true) :
    Balanced (initWithConfig mem (some config) idleStack).1 .empty := by
  have hcreate :
      (Task.createStatic (initData mem (some config)) (idleConfig (some config) idleStack)
      idleTcb).1 = (initData mem (some config)).enroll idleTcb
        (idleConfig (some config) idleStack) := by
    rcases Task.createStatic_cases (initData mem (some config)) (idleConfig (some config) idleStack)
      idleTcb with ⟨hne, -⟩ | ⟨-, -, e⟩
    · exact absurd hinit hne
    · rw [e]; rfl
  simp only [initWithConfig, hcreate]
  refine ⟨hen, List.nodup_singleton idleTcb, by simp [initData], by simp [initData],
    fun t ht => ?_, fun t _ => rfl, ?_, ?_⟩
  · have ht' : t ∈ ((initData mem (some config)).enroll idleTcb
        (idleConfig (some config) idleStack)).taskRegistry.nodes := ht
    simp [Stats.reset, ht', Ledger.empty]
  · simp [Ledger.empty]
  · simp [Stats.reset, Nat.ModEq, Kernel.enroll, initData, LinkedList.insertTail]

/-- A run of the kernel, with the ledger it is to keep. -/
abbrev LedgerTrace (k : Kernel) (l : Ledger) (es : List AccountEvent) (k' : Kernel) (l' : Ledger) :
    Prop := Trace LedgerStep (k, l) es (k', l')

/-- The ledger can be kept in every run. -/
theorem exists_ledgerTrace {k k' : Kernel} {es : List AccountEvent} (h : Trace AccountStep k es k')
    (l : Ledger) : ∃ l', LedgerTrace k l es k' l' := by
  induction h generalizing l with
  | nil k => exact ⟨l, .nil _⟩
  | @cons k k₁ _ e _ hstep _ ih =>
    obtain ⟨l', hl'⟩ := ih (l.record k e)
    exact ⟨l', .cons ⟨hstep, rfl⟩ hl'⟩

theorem Balanced.run {k k' : Kernel} {l l' : Ledger} {es : List AccountEvent} (h : Balanced k l)
    (hrun : LedgerTrace k l es k' l') : Balanced k' l' := by
  refine hrun.invariant (I := fun x => Balanced x.1 x.2) (fun x e y hx hs => ?_) h
  rw [hs.2]
  exact hx.step hs.1

/-- **Run-time accounting conserves time and switches.**  In every run of switches, creations and
resets, and of anything that leaves the accounts alone, from an initialisation with statistics:
each registered task has been credited, modulo `2 ^ 64`, with the intervals in which it was the
current task; these intervals add up to the time since the last reset, so the totals of the
registered tasks do so modulo `2 ^ 64`, and exactly as long as that time is below `2 ^ 64`; and
the switch-in counts add up to the number of switches modulo `2 ^ 32`.  Every critical section of
the kernel continues such a run. -/
theorem accounting_conserves {mem : Kernel} {config : Config} {idleStack : ℕ}
    (hinit : (initWithConfig mem (some config) idleStack).2 = .ok)
    (hen : config.enableRuntimeStats = true) {es : List AccountEvent} {k : Kernel} {l : Ledger}
    (hrun : LedgerTrace (initWithConfig mem (some config) idleStack).1 .empty es k l) :
    (∀ t ∈ k.taskRegistry.nodes, k.stats.runTimeTotal t = l.credit t % 2 ^ 64) ∧
    (k.taskRegistry.nodes.map l.credit).sum = l.elapsed ∧
    (k.taskRegistry.nodes.map k.stats.runTimeTotal).sum ≡ l.elapsed [MOD 2 ^ 64] ∧
    (l.elapsed < 2 ^ 64 → (k.taskRegistry.nodes.map k.stats.runTimeTotal).sum = l.elapsed) ∧
    (k.taskRegistry.nodes.map k.stats.switchInCount).sum ≡ k.stats.totalSwitches
      [MOD 2 ^ 32] ∧
    (k.Inv → ∀ s k', Section.Step k s k' → ∃ es' l',
      LedgerTrace (initWithConfig mem (some config) idleStack).1 .empty (es ++ es') k' l') := by
  have h := (balanced_initWithConfig hinit hen).run hrun
  refine ⟨h.total, h.elapsed, ?_, fun hlt => ?_, h.switches, fun hk s k' hs => ?_⟩
  · rw [← h.elapsed]
    refine sum_map_modEq fun t ht => ?_
    rw [h.total t ht]
    exact Nat.mod_modEq _ _
  · rw [← h.elapsed]
    refine congrArg List.sum (List.map_congr_left fun t ht => ?_)
    have hle : l.credit t ≤ l.elapsed := h.elapsed ▸ le_sum_map ht
    rw [h.total t ht, Nat.mod_eq_of_lt (by omega)]
  · obtain ⟨es', hes'⟩ := accountStep_of_section hk hs
    obtain ⟨l', hl'⟩ := exists_ledgerTrace hes' l
    exact ⟨es', l', hrun.append hl'⟩

/-- A configuration with statistics. -/
def statsConfig : Config := ⟨1000, true, none, 0, true⟩

/-- Memory beside a run-time counter with the readings `c`. -/
def withCounter (c : ℕ → ℕ) : Kernel := { bss with stats := { bss.stats with runtimeCounter := c } }

/-- The kernel with the Idle task alone, before its first switch. -/
def idleOnly (c : ℕ → ℕ) : Kernel := (initWithConfig (withCounter c) (some statsConfig) 0).1

theorem ledgerStep_switch {k : Kernel} {l : Ledger} {n : TaskId} (h : selectNextTask k = some n)
    (hn : k.Live n) :
    LedgerStep (k, l) .switch (performSwitch k, l.onSwitch k.currentTcb k.sample) := by
  refine ⟨⟨fun m hm => ?_, rfl⟩, ?_⟩
  · obtain rfl : n = m := Option.some_inj.1 (h.symm.trans hm)
    exact hn
  · simp only [Ledger.record, h, Option.isSome_some, if_true]

/-- The Idle task runs from the sample 10 to the sample 20, where a task of priority 1 comes in. -/
theorem accounting_conserves_two_switches :
    ∃ k l, LedgerTrace (idleOnly fun n => 10 * n) .empty
        [.switch, .create (.ofPriority 1) 1, .switch] k l ∧
      l.elapsed = 10 ∧ (k.taskRegistry.nodes.map k.stats.runTimeTotal).sum = l.elapsed := by
  let k₀ := idleOnly fun n => 10 * n
  let k₁ := performSwitch k₀
  let k₂ := (Task.createStaticSection k₁ (.ofPriority 1) 1).1
  let l₁ := Ledger.empty.onSwitch k₀.currentTcb k₀.sample
  have h₀ : LedgerStep (k₀, .empty) .switch (k₁, l₁) :=
    ledgerStep_switch (n := 0) (by decide +kernel) (by decide +kernel)
  have h₁ : LedgerStep (k₁, l₁) (.create (.ofPriority 1) 1) (k₂, l₁) :=
    ⟨⟨by decide +kernel, rfl⟩, rfl⟩
  have h₂ : LedgerStep (k₂, l₁) .switch (performSwitch k₂, l₁.onSwitch k₂.currentTcb k₂.sample) :=
    ledgerStep_switch (n := 1) (by decide +kernel) (by decide +kernel)
  have helapsed : (l₁.onSwitch k₂.currentTcb k₂.sample).elapsed = 10 := by decide +kernel
  have hrun : LedgerTrace k₀ .empty [.switch, .create (.ofPriority 1) 1, .switch] (performSwitch k₂)
      (l₁.onSwitch k₂.currentTcb k₂.sample) := .cons h₀ (.cons h₁ (.single h₂))
  refine ⟨_, _, hrun, helapsed, ?_⟩
  refine (accounting_conserves (by decide +kernel) rfl hrun).2.2.2.1 ?_
  rw [helapsed]
  decide

/-! ### A run of more than `2 ^ 64` counts

A counter that runs backwards by one between any two samples: every interval is `2 ^ 32 - 1`
long. -/

/-- The readings of the counter. -/
def backwards (n : ℕ) : ℕ := (2 ^ 32 - n % 2 ^ 32) % 2 ^ 32

/-- The Idle task has been switched to itself `n` times. -/
structure Idling (n : ℕ) (k : Kernel) (l : Ledger) : Prop where
  selected : selectNextTask k = some idleTcb
  current : k.currentTcb = some idleTcb
  registry : k.taskRegistry.nodes = [idleTcb]
  counter : k.stats.runtimeCounter = backwards
  enabled : k.stats.enabled = true
  last : ∃ m, k.stats.readings = m + 1 ∧ l.last = backwards m
  elapsed : l.elapsed = n * (2 ^ 32 - 1)

theorem dispatch_selectNextTask (k : Kernel) (n : TaskId) :
    selectNextTask (dispatch k n) = selectNextTask k := by
  simp only [selectNextTask, readyQueue, dispatch_readyBitmap, dispatch_stateLists]

theorem onSwitch_readings {s : Stats} (hen : s.enabled = true) (prev : Option TaskId) (n : TaskId) :
    (s.onSwitch prev n).readings = s.readings + 1 ∧
      (s.onSwitch prev n).runtimeCounter = s.runtimeCounter := by
  by_cases hpn : prev = some n <;> simp [Stats.onSwitch, hen, hpn]

/-- One more switch of the Idle task to itself. -/
theorem Idling.step {n : ℕ} {k : Kernel} {l : Ledger} (h : Idling n k l) :
    LedgerStep (k, l) .switch (performSwitch k, l.onSwitch k.currentTcb k.sample) ∧
      Idling (n + 1) (performSwitch k) (l.onSwitch k.currentTcb k.sample) := by
  have hlive : k.Live idleTcb := by rw [Live, h.registry]; exact List.mem_singleton_self _
  refine ⟨ledgerStep_switch h.selected hlive, ?_⟩
  obtain ⟨m, hm, hlast⟩ := h.last
  obtain ⟨hread, hcount⟩ := onSwitch_readings h.enabled k.currentTcb idleTcb
  rw [performSwitch_of_some h.selected]
  refine ⟨by rw [dispatch_selectNextTask]; exact h.selected, rfl,
    by rw [dispatch_taskRegistry]; exact h.registry, hcount.trans h.counter,
    (onSwitch_fields h.enabled k.currentTcb idleTcb).1, ⟨m + 1, hread.trans (by rw [hm]), ?_⟩, ?_⟩
  · simp only [h.current, Ledger.onSwitch, sample, h.counter, hm]
  · simp only [h.current, Ledger.onSwitch, Ledger.since, sample, h.counter, hm, hlast, h.elapsed,
      backwards]
    omega

theorem idling_of_run (n : ℕ) :
    ∃ k l, LedgerTrace (idleOnly backwards) .empty (.replicate (n + 1) .switch) k l ∧
      Idling n k l := by
  induction n with
  | zero =>
    refine ⟨_, _, .single (ledgerStep_switch (n := idleTcb) (by decide +kernel) (by decide +kernel)),
      by decide +kernel, by decide +kernel, by decide +kernel, rfl, by decide +kernel,
      ⟨1, by decide +kernel, rfl⟩, by decide +kernel⟩
  | succ n ih =>
    obtain ⟨k, l, hrun, hidle⟩ := ih
    obtain ⟨hstep, hidle'⟩ := hidle.step
    refine ⟨_, _, ?_, hidle'⟩
    rw [LedgerTrace, List.replicate_succ']
    exact hrun.append (.single hstep)

/-- **The totals have 64 bits.**  After `2 ^ 33` switches of the Idle task to itself, the last of
them at a time beyond `2 ^ 64`, its total is not the time that has passed. -/
theorem total_wraps :
    ∃ k l, LedgerTrace (idleOnly backwards) .empty (.replicate (2 ^ 33 + 1) .switch) k l ∧
      (k.taskRegistry.nodes.map k.stats.runTimeTotal).sum ≠ l.elapsed := by
  obtain ⟨k, l, hrun, hidle⟩ := idling_of_run (2 ^ 33)
  have hbal : Balanced k l := (balanced_initWithConfig (by decide +kernel) rfl).run hrun
  refine ⟨k, l, hrun, ?_⟩
  have hlive : k.Live idleTcb := by rw [Live, hidle.registry]; exact List.mem_singleton_self _
  have htotal := hbal.total idleTcb hlive
  have hlt : l.credit idleTcb % 2 ^ 64 < 2 ^ 64 := Nat.mod_lt _ (by decide)
  rw [hidle.registry, List.map_singleton, List.sum_singleton, htotal, hidle.elapsed]
  omega

end Sertos
