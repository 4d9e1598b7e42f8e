import Sertos.WakeUp

/-!
# Delays and timeouts expire on the right tick

A task that sleeps counts down in `delay_ticks`, whatever the other tasks do and however many of
them expire on the same tick: a tick takes one off, every other call leaves the count alone, and
the task is made ready by the tick that finds the count at one, or before that by the event that
selects it from its wait list (`Asleep.step`).  So the count is the timeout less the ticks since
the call (`Asleep.run`), and the last tick is the one the call asked for.
-/

set_option autoImplicit false

namespace Sertos

open Intrusive Lts Scheduler

namespace Kernel

variable {k k' k₁ k₂ : Kernel} {t : TaskId} {a : Call} {calls : List Call}

/-- The task `t` is blocked, on `W` if that is a wait list, with `d` ticks to go, or for ever if `d`
is zero. -/
structure Asleep (k : Kernel) (t : TaskId) (W : Option WaitList) (d : ℕ) : Prop where
  live : k.Live t
  blocked : (k.tcb t).state = .blocked
  waitList : (k.tcb t).waitList = W
  delayTicks : (k.tcb t).delayTicks = d

/-- The call is an event that selects `t` from `W`. -/
def Selects (W : WaitList) (t : TaskId) (k : Kernel) (a : Call) : Prop :=
  a = .unblock W ∧ (waitListUnblockHighest k W).2 = some t

/-- The call ends the sleep of a task with `d` ticks to go. -/
def Ends (W : Option WaitList) (t : TaskId) (d : ℕ) (k : Kernel) (a : Call) : Prop :=
  (a = .tick ∧ d = 1) ∨ ∃ V, W = some V ∧ Selects V t k a

variable {W : Option WaitList} {d : ℕ}

theorem Ready.notMem_waitLists (h : k.Ready t) (hk : k.ListInv) (V : WaitList) :
    t ∉ (k.waitLists V).nodes :=
  fun hm => TaskState.ne_blocked_of_isReady h.2 ((hk.mem_waitList V).1 hm).2.1

theorem Ready.notMem_delayList (h : k.Ready t) (hk : k.ListInv) : t ∉ k.delayList.nodes :=
  fun hm => TaskState.ne_blocked_of_isReady h.2 (hk.mem_delayList.1 hm).2.1

/-- **One call of a run**, seen by a task that sleeps. -/
theorem Asleep.step (hs : Asleep k t W d) (h : k.Settled) (ha : a.Allowed k) :
    (¬ Ends W t d k a ∧ Asleep (a.run k) t W (d - if a = .tick then 1 else 0)) ∨
    (Ends W t d k a ∧ ((a.critical k).tcb t).state = .ready ∧ (a.run k).Ready t) := by
  have he := Call.critical_effect h ha
  have hinv := he.inv h
  have hsw := Call.run_switched hinv.lists
  have hlive := he.live h hs.live
  rcases he.blocked h hs.live hs.blocked with ⟨hb, hwl, hd, hne⟩ | ⟨hw, hcause⟩
  · refine Or.inl ⟨?_, hsw.live.2 hlive, (hsw.blocked t).2 hb, ?_, ?_⟩
    · rw [hs.delayTicks] at hne
      rintro (hend | ⟨V, rfl, rfl, hsel⟩)
      · exact hne hend
      · -- the event would have made the task ready
        rcases unblockHighest_cases h.lists V with ⟨-, e⟩ | ⟨u, -, -, -, -, e⟩
        · simp [e] at hsel
        · rw [Call.critical, e] at hb
          rw [e] at hsel
          obtain rfl : u = t := Option.some_inj.1 hsel
          simp at hb
    · rw [hsw.waitList, hwl, hs.waitList]
    · rw [hsw.delayTicks, hd, hs.delayTicks]
  · refine Or.inr ⟨?_, by rw [hw]; rfl, hsw.ready.2 ⟨hlive, by rw [hw]; rfl⟩⟩
    rcases hcause with ⟨rfl, h1⟩ | ⟨V, rfl, hV, hhead⟩
    · exact Or.inl ⟨rfl, hs.delayTicks ▸ h1⟩
    · exact Or.inr ⟨V, hs.waitList.symm.trans hV, rfl, (unblockHighest_snd k V).trans hhead⟩

/-- **A run** that ends before the timeout does and in which no event selects the task. -/
theorem Asleep.run (hs : Asleep k₁ t W d) (h₁ : k₁.Unlocked)
    (h : Trace Call.UnlockedStep k₁ calls k₂) (hd : d = 0 ∨ calls.count .tick < d)
    (hsel : Trace.AllSteps Call.UnlockedStep
      (fun s a _ => ∀ V, W = some V → ¬ Selects V t s a) k₁ calls k₂) :
    Asleep k₂ t W (d - calls.count .tick) := by
  induction h generalizing d with
  | nil k => simpa using hs
  | @cons k k' k₂ a calls hstep h ih =>
    have hne : ¬ Ends W t d k a := by
      rintro (⟨rfl, h1⟩ | ⟨V, hV, hsel'⟩)
      · rw [List.count_cons_self] at hd
        omega
      · exact hsel [] a calls k k' rfl (.nil k) hstep h V hV hsel'
    have hs' : Asleep k' t W (d - if a = .tick then 1 else 0) := by
      obtain ⟨⟨ha, -⟩, rfl⟩ := hstep
      exact ((hs.step h₁.toSettled ha).resolve_right fun hend => hne hend.1).2
    have hrest := ih hs' (h₁.step hstep) ?_ ?_
    · rw [List.count_cons]
      rw [Nat.sub_sub, Nat.add_comm] at hrest
      simpa using hrest
    · rw [List.count_cons] at hd
      by_cases htick : a = .tick
      · subst htick
        simp at hd ⊢
        omega
      · simp [htick] at hd ⊢
        exact hd
    · intro bs b cs s s' hsplit h1 hR h2
      exact hsel (a :: bs) b cs s s' (by simp [hsplit]) (.cons hstep h1) hR h2

/-- A task that has been made ready stays so until it blocks again. -/
theorem Ready.run (hr : k₁.Ready t) (h₁ : k₁.Unlocked)
    (h : Trace Call.UnlockedStep k₁ calls k₂)
    (hb : Trace.AllSteps Call.UnlockedStep (fun s a _ => ¬ a.Blocks s t) k₁ calls k₂) :
    k₂.Ready t := by
  have hall := hb.invariant (I := fun s => s.Unlocked ∧ s.Ready t)
    (fun s a s' hs hstep hnb => by
      refine ⟨hs.1.step hstep, ?_⟩
      obtain ⟨⟨ha, -⟩, rfl⟩ := hstep
      have he := Call.critical_effect hs.1.toSettled ha
      exact (Call.run_switched (he.inv hs.1.toSettled).lists).ready.2
        (he.ready hs.1.toSettled hs.2 hnb)) ⟨h₁, hr⟩
  exact (hall calls [] k₂ (by simp) h (.nil k₂)).2

/-! ## The two calls that put a task to sleep -/

theorem Settled.asleep_park (h : k.Settled) (hc : k.currentTcb = some t)
    (hw : 0 < d ∨ W ≠ none) : Asleep (Scheduler.switchContext (k.park t W d)) t W d := by
  have hready := h.ready_current hc
  have hsw := Switched.switchContext (h.toInv.park hready hw).lists
  refine ⟨hsw.live.2 hready.1, (hsw.blocked t).2 ?_, ?_, ?_⟩
  · rw [park_tcb_same]; rfl
  · rw [hsw.waitList, park_tcb_same]; rfl
  · rw [hsw.delayTicks, park_tcb_same]; rfl

theorem Settled.asleep_delay (h : k.Settled) (hrun : k.isRunning = true)
    (hc : k.currentTcb = some t) {n : ℕ} (hn : 0 < n) :
    Asleep ((Call.delay n).run k) t none n := by
  have hready := h.ready_current hc
  have heq : (Call.delay n).run k = Scheduler.switchContext (k.park t none n) := by
    simp only [Call.run, delay, if_neg hn.ne', hrun, hc,
      delaySection_eq_park h.lists hready.1 hready.2 hn]
  rw [heq]
  exact h.asleep_park hc (Or.inl hn)

theorem Settled.asleep_block (h : k.Settled) (hrun : k.isRunning = true)
    (hc : k.currentTcb = some t) {V : WaitList} {n : ℕ} (hn : n ≠ 0) :
    Asleep ((Call.block V n).run k) t (some V) (timeoutTicks n) := by
  rw [Call.run, waitListBlock_eq_park h hrun hc hn]
  exact h.asleep_park hc (Or.inr (by simp))

/-- From the end of its sleep on, until it blocks again, a task is ready and in neither list. -/
def StaysAwake (W : WaitList) (t : TaskId) (k : Kernel) : Prop :=
  ∀ calls k', Trace Call.UnlockedStep k calls k' →
    Trace.AllSteps Call.UnlockedStep (fun s a _ => ¬ a.Blocks s t) k calls k' →
    k'.Ready t ∧ t ∉ (k'.waitLists W).nodes ∧ t ∉ k'.delayList.nodes

theorem Ready.staysAwake (hr : k.Ready t) (h : k.Unlocked) (W : WaitList) :
    StaysAwake W t k := by
  intro calls k' hrun hb
  have hr' := hr.run h hrun hb
  have h' : k'.Unlocked := hrun.invariant (fun _ _ _ => Unlocked.step) h
  exact ⟨hr', hr'.notMem_waitLists h'.lists W, hr'.notMem_delayList h'.lists⟩

/-- A delay of `n` ticks ends in the `n`-th tick after it. -/
theorem Unlocked.delay_ends {k₀ k₁ k₂ : Kernel} (h₀ : k₀.Unlocked) (hrunning : k₀.isRunning = true)
    (ht : k₀.currentTcb = some t) {n : ℕ} {calls : List Call} (hn : 0 < n)
    (hstep : Call.UnlockedStep k₀ (.delay n) k₁) (hrun : Trace Call.UnlockedStep k₁ calls k₂)
    (hcount : calls.count .tick < n) :
    (k₂.tcb t).state = .blocked ∧
      ∀ k₃, Call.UnlockedStep k₂ .tick k₃ → calls.count .tick + 1 = n →
        ((tickSection k₂).1.tcb t).state = .ready ∧ k₃.Ready t := by
  have h₁ := h₀.step hstep
  have h₂ : k₂.Unlocked := hrun.invariant (fun _ _ _ => Unlocked.step) h₁
  have hs₁ : Asleep k₁ t none n := by
    rw [hstep.2]
    exact h₀.toSettled.asleep_delay hrunning ht hn
  have hs₂ := hs₁.run h₁ hrun (Or.inr hcount) fun _ _ _ _ _ _ _ _ _ V hV => by simp at hV
  refine ⟨hs₂.blocked, fun k₃ htick hlast => ?_⟩
  rcases hs₂.step h₂.toSettled htick.1.1 with ⟨hne, -⟩ | ⟨-, hst, hr⟩
  · exact absurd (Or.inl ⟨rfl, by omega⟩) hne
  · rw [htick.2]
    exact ⟨hst, hr⟩

/-- What ends a wait, `j` ticks after it began. -/
theorem ends_wait_iff {W : WaitList} {n j : ℕ} (hj : n = waitForever ∨ j < n) :
    Ends (some W) t (timeoutTicks n - j) k a ↔
      Selects W t k a ∨ n ≠ waitForever ∧ a = .tick ∧ j + 1 = n := by
  have hd : timeoutTicks n - j = 1 ↔ n ≠ waitForever ∧ j + 1 = n := by
    rw [timeoutTicks]
    by_cases hf : n = waitForever
    · simp [hf]
    · simp only [hf, if_false, ne_eq, not_false_eq_true, true_and]
      have := hj.resolve_left hf
      omega
  simp only [Ends, hd, Option.some_inj, exists_eq_left']
  tauto

/-- A wait ends when the task is selected, or in the last tick of its timeout. -/
theorem Unlocked.wait_ends {k₀ k₁ k₂ : Kernel} {W : WaitList} (h₀ : k₀.Unlocked)
    (hrunning : k₀.isRunning = true) (ht : k₀.currentTcb = some t) {n : ℕ} {calls : List Call}
    (hstep : Call.UnlockedStep k₀ (.block W n) k₁) (hrun : Trace Call.UnlockedStep k₁ calls k₂)
    (hsel : Trace.AllSteps Call.UnlockedStep (fun s a _ => ¬ Selects W t s a) k₁ calls k₂)
    (hcount : n = waitForever ∨ calls.count .tick < n) :
    t ∈ (k₂.waitLists W).nodes ∧
      ∀ a k₃, Call.UnlockedStep k₂ a k₃ →
        (t ∉ (k₃.waitLists W).nodes ↔ Selects W t k₂ a ∨
          n ≠ waitForever ∧ a = .tick ∧ calls.count .tick + 1 = n) ∧
        (t ∉ (k₃.waitLists W).nodes →
          ((a.critical k₂).tcb t).state = .ready ∧ StaysAwake W t k₃) := by
  have h₁ := h₀.step hstep
  have h₂ : k₂.Unlocked := hrun.invariant (fun _ _ _ => Unlocked.step) h₁
  have hs₁ : Asleep k₁ t (some W) (timeoutTicks n) := by
    rw [hstep.2]
    exact h₀.toSettled.asleep_block hrunning ht hstep.1.1.1
  have hticks : timeoutTicks n = 0 ∨ calls.count .tick < timeoutTicks n := by
    rw [timeoutTicks]
    by_cases hf : n = waitForever
    · exact Or.inl (if_pos hf)
    · rw [if_neg hf]
      exact Or.inr (hcount.resolve_left hf)
  have hs₂ := hs₁.run h₁ hrun hticks fun bs a cs s s' hsplit h1 hR h2 V hV => by
    rw [← Option.some_inj.1 hV]
    exact hsel bs a cs s s' hsplit h1 hR h2
  have hon : ∀ {s : Kernel} {d : ℕ}, s.ListInv → Asleep s t (some W) d →
      t ∈ (s.waitLists W).nodes :=
    fun hl hs => (hl.mem_waitList W).2 ⟨hs.live, hs.blocked, hs.waitList⟩
  refine ⟨hon h₂.lists hs₂, fun a k₃ hstep₃ => ?_⟩
  have h₃ := h₂.step hstep₃
  have hends := ends_wait_iff (W := W) (t := t) (k := k₂) (a := a) hcount
  rcases hs₂.step h₂.toSettled hstep₃.1.1 with ⟨hne, hs₃⟩ | ⟨hend, hst, hr⟩
  · rw [← hstep₃.2] at hs₃
    have hin := hon h₃.lists hs₃
    exact ⟨⟨fun hout => absurd hin hout, fun hend => absurd (hends.2 hend) hne⟩,
      fun hout => absurd hin hout⟩
  · rw [← hstep₃.2] at hr
    have hout := hr.notMem_waitLists h₃.lists W
    exact ⟨⟨fun _ => hends.1 hend, fun _ => hout⟩, fun _ => ⟨hst, hr.staysAwake h₃ W⟩⟩

/-- **Delays and timeouts expire on exactly the right tick.**  In every run with the scheduler
unlocked, a task that calls `sertos_scheduler_delay(n)` is blocked as long as fewer than `n` ticks
have followed, and the `n`-th makes it ready.  A task that calls
`sertos_scheduler_wait_list_block(W, n)` is on `W` as long as no event has selected it and, unless
it waits for ever, fewer than `n` ticks have followed; the next call takes it off exactly if it is
an event that selects it or the `n`-th tick, and then the task is ready, and in neither list until
it blocks again. -/
theorem sleep_ends_on_time {mem : Kernel} {config : Option Config} {idleStack : ℕ}
    (hinit : (initWithConfig mem config idleStack).2 = .ok) {pre : List Call} {k₀ : Kernel}
    (hpre : Trace Call.UnlockedStep (initWithConfig mem config idleStack).1 pre k₀)
    (hrunning : k₀.isRunning = true) (ht : k₀.currentTcb = some t) :
    (∀ n k₁ calls k₂, 0 < n → Call.UnlockedStep k₀ (.delay n) k₁ →
      Trace Call.UnlockedStep k₁ calls k₂ → calls.count .tick < n →
      (k₂.tcb t).state = .blocked ∧
      ∀ k₃, Call.UnlockedStep k₂ .tick k₃ → calls.count .tick + 1 = n →
        ((tickSection k₂).1.tcb t).state = .ready ∧ k₃.Ready t) ∧
    (∀ W n k₁ calls k₂, Call.UnlockedStep k₀ (.block W n) k₁ →
      Trace Call.UnlockedStep k₁ calls k₂ →
      Trace.AllSteps Call.UnlockedStep (fun s a _ => ¬ Selects W t s a) k₁ calls k₂ →
      n = waitForever ∨ calls.count .tick < n →
      t ∈ (k₂.waitLists W).nodes ∧
      ∀ a k₃, Call.UnlockedStep k₂ a k₃ →
        (t ∉ (k₃.waitLists W).nodes ↔ Selects W t k₂ a ∨
          n ≠ waitForever ∧ a = .tick ∧ calls.count .tick + 1 = n) ∧
        (t ∉ (k₃.waitLists W).nodes →
          ((a.critical k₂).tcb t).state = .ready ∧ StaysAwake W t k₃)) := by
  have h₀ : k₀.Unlocked :=
    hpre.invariant (fun _ _ _ => Unlocked.step) (initWithConfig_unlocked hinit)
  exact ⟨fun _ _ _ _ => h₀.delay_ends hrunning ht, fun _ _ _ _ _ => h₀.wait_ends hrunning ht⟩

/-- Task 1 delays itself for two ticks: it is blocked after the first and ready after the second. -/
theorem sleep_ends_on_time_after_two :
    (([.delay 2, .tick] : List Call).foldl Call.run oneTask |>.tcb 1).state = .blocked ∧
      (([.delay 2, .tick, .tick] : List Call).foldl Call.run oneTask).Ready 1 := by
  have hpre : Trace Call.UnlockedStep (initWithConfig bss none 0).1
      [.create (.ofPriority 1) 1, .start .ok] oneTask := Trace.of_guards (by decide +kernel)
  have hrun : Trace Call.UnlockedStep ((Call.delay 2).run oneTask) [.tick]
      ([Call.tick].foldl Call.run ((Call.delay 2).run oneTask)) :=
    Trace.of_guards (by decide +kernel)
  have h := (sleep_ends_on_time (t := 1) (by decide) hpre (by decide +kernel) (by decide +kernel)).1
    2 _ [.tick] _ (by decide) ⟨by decide +kernel, rfl⟩ hrun (by decide)
  exact ⟨h.1, (h.2 _ ⟨by decide +kernel, rfl⟩ rfl).2⟩

end Kernel

end Sertos
