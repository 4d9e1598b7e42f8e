import Sertos.BlockingWindow
import Sertos.WakeUp
import Sertos.Lib.Turns

/-!
# Round-robin

Between two calls the current task is the head of its ready queue (`Kernel.Fronted`): queues grow at
the tail only, and whatever takes the head away, the rotation of a tick or a yield or a blocking
call, asks for a switch at once.  So a rotation of *the current task*, which is what
`process_time_slicing` makes, is a rotation of a queue, also when the tick has made other tasks
ready before it or a task of higher priority runs next, and every call is one `Turns.Move` of each
queue (`Kernel.Fronted.queue_move`).  Fairness is then what the theory of such queues says.
-/

set_option autoImplicit false

namespace Sertos

open Intrusive Lts Scheduler

namespace Call

/-- The call rotates the queue of the current task, if time slicing is enabled. -/
def PassesTurn : Call → Prop
  | .tick | .yield => True
  | .delay n => n = 0
  | _ => False

instance : DecidablePred PassesTurn
  | .tick | .yield => .isTrue trivial
  | .delay n => inferInstanceAs (Decidable (n = 0))
  | .create _ _ | .start _ | .block _ _ | .unblock _ | .reschedule | .lock | .unlock => .isFalse id

instance (k : Kernel) (c : TaskId) : DecidablePred (Blocks k c)
  | .delay n => inferInstanceAs (Decidable (n ≠ 0 ∧ k.isRunning = true ∧ k.currentTcb = some c))
  | .block _ _ => inferInstanceAs (Decidable (k.isRunning = true ∧ k.currentTcb = some c))
  | .create _ _ | .start _ | .tick | .yield | .unblock _ | .reschedule | .lock | .unlock =>
    .isFalse id

/-- The current task of priority `p` whose turn the call ends: it is rotated, or it blocks. -/
def endsTurn (p : ℕ) (k : Kernel) (a : Call) : Option TaskId :=
  match k.currentTcb with
  | some c => if (k.tcb c).priority = p ∧ (a.PassesTurn ∨ a.Blocks k c) then some c else none
  | none => none

variable {k : Kernel} {a : Call} {c t : TaskId} {p : ℕ}

theorem endsTurn_eq_some :
    a.endsTurn p k = some c ↔
      k.currentTcb = some c ∧ (k.tcb c).priority = p ∧ (a.PassesTurn ∨ a.Blocks k c) := by
  rw [endsTurn]
  cases hc : k.currentTcb with
  | none => simp
  | some d =>
    dsimp only
    split
    · rename_i h
      rw [Option.some_inj]
      exact ⟨fun e => ⟨e, e ▸ h⟩, fun h => h.1⟩
    · rename_i h
      refine ⟨fun e => by simp at e, fun ⟨e, h'⟩ => absurd ?_ h⟩
      rw [Option.some_inj] at e
      exact e ▸ h'

theorem endsTurn_eq_none :
    a.endsTurn p k = none ↔
      ∀ c, k.currentTcb = some c → (k.tcb c).priority = p → ¬ a.PassesTurn ∧ ¬ a.Blocks k c := by
  rw [Option.eq_none_iff_forall_ne_some]
  refine forall_congr' fun c => ?_
  rw [ne_eq, endsTurn_eq_some]
  tauto

end Call

namespace Kernel

variable {k k' : Kernel} {c t u : TaskId} {a : Call} {p : ℕ} {calls : List Call}

/-! ## The ready queues after each move -/

theorem Ready.mem_readyQueue (hr : k.Ready t) (h : k.ListInv) :
    t ∈ (k.readyQueue (k.tcb t).priority).nodes :=
  h.mem_readyQueue_iff_ready.2 hr

/-- A ready task is in no queue but its own. -/
theorem ListInv.erase_readyQueue (h : k.ListInv) (hp : (k.tcb c).priority ≠ p) :
    (k.readyQueue p).nodes.erase c = (k.readyQueue p).nodes :=
  List.erase_of_not_mem fun hm => hp ((h.mem_readyQueue p).1 hm).2.2

theorem park_readyQueue (k : Kernel) (c : TaskId) (W : Option WaitList) (n p : ℕ) :
    ((k.park c W n).readyQueue p).nodes = (k.readyQueue p).nodes.erase c := by
  simp only [readyQueue, park]
  split
  · rw [Bundle.insertTail_of_ne (by simp)]
    rfl
  · rfl

theorem wake_readyQueue (h : k.ListInv) (hb : (k.tcb t).state = .blocked) (p : ℕ) :
    ((k.wake t).readyQueue p).nodes =
      (k.readyQueue p).nodes ++ if (k.tcb t).priority = p then [t] else [] := by
  have hfree : t ∉ (k.readyQueue p).nodes := fun hm =>
    TaskState.ne_blocked_of_isReady ((h.mem_readyQueue p).1 hm).2.1 hb
  have hoff : ((if 0 < (k.tcb t).delayTicks then k.stateLists.remove .delay t
      else k.stateLists) (.ready p)).nodes = (k.readyQueue p).nodes := by
    split
    · exact List.erase_of_not_mem hfree
    · rfl
  simp only [readyQueue, wake] at hoff ⊢
  by_cases hp : (k.tcb t).priority = p
  · subst hp
    simp [LinkedList.insertTail, hoff]
  · rw [Bundle.insertTail_of_ne (by simpa using Ne.symm hp), hoff]
    simp [hp]

theorem enroll_readyQueue (k : Kernel) (t : TaskId) (config : TaskConfig) (p : ℕ) :
    ((k.enroll t config).readyQueue p).nodes =
      (k.readyQueue p).nodes ++ if config.priority = p then [t] else [] := by
  simp only [readyQueue, enroll]
  by_cases hp : config.priority = p
  · subst hp
    simp [LinkedList.insertTail]
  · rw [Bundle.insertTail_of_ne (by simpa using Ne.symm hp)]
    simp [hp]

theorem rotate_readyQueue (h : k.ListInv) (p : ℕ) :
    ((k.rotate c).readyQueue p).nodes =
      if (k.tcb c).priority = p then (k.readyQueue p).nodes.erase c ++ [c]
      else (k.readyQueue p).nodes := by
  simp only [readyQueue, rotate]
  by_cases hp : (k.tcb c).priority = p
  · subst hp
    simp [LinkedList.insertTail, Bundle.remove]
  · rw [Bundle.insertTail_of_ne (by simpa using Ne.symm hp), if_neg hp]
    exact h.erase_readyQueue hp

/-- Time slicing rotates the queue of the current task; a queue of one is its own rotation. -/
theorem processTimeSlicing_readyQueue (h : k.ListInv) (hc : k.currentTcb = some c) (hr : k.Ready c)
    (hs : k.timeSlicingEnabled = true) (p : ℕ) :
    ((processTimeSlicing k).readyQueue p).nodes =
      if (k.tcb c).priority = p then (k.readyQueue p).nodes.erase c ++ [c]
      else (k.readyQueue p).nodes := by
  rw [processTimeSlicing_of_ready h hc hr.1 hr.2]
  split
  · exact rotate_readyQueue h p
  · rename_i hlen
    by_cases hp : (k.tcb c).priority = p
    · subst hp
      have hm := hr.mem_readyQueue h
      have hlen' : (k.readyQueue (k.tcb c).priority).nodes.length ≤ 1 :=
        Nat.not_lt.1 fun hlt => hlen ⟨hs, hlt⟩
      have hone : (k.readyQueue (k.tcb c).priority).nodes = [c] := by
        obtain ⟨d, hd⟩ := List.length_eq_one_iff.1
          (Nat.le_antisymm hlen' (List.length_pos_of_mem hm))
        rw [hd, List.mem_singleton] at hm
        rw [hd, hm]
      simp [hone]
    · rw [if_neg hp]

theorem processTimeSlicing_of_disabled (hs : k.timeSlicingEnabled = false) :
    processTimeSlicing k = k := by
  simp [processTimeSlicing, hs]

end Kernel

namespace Call

variable {k k' S : Kernel} {a : Call} {c t : TaskId} {p : ℕ}

/-! ## One call, seen by a ready queue -/

/-- What happens to a queue in a call that does not block: the current task is rotated behind the
newcomers, or there are newcomers only. -/
def QueueServed (k : Kernel) (a : Call) (p : ℕ) (k' : Kernel) : Prop :=
  (∃ c ys, a.PassesTurn ∧ k.timeSlicingEnabled = true ∧ k.currentTcb = some c ∧
    (k.tcb c).priority = p ∧
    (k'.readyQueue p).nodes = ((k.readyQueue p).nodes ++ ys).erase c ++ [c]) ∨
  ((k.timeSlicingEnabled = true → a.PassesTurn → ∀ c, k.currentTcb = some c →
      (k.tcb c).priority ≠ p) ∧
    ∃ ys, (k'.readyQueue p).nodes = (k.readyQueue p).nodes ++ ys)

/-- Time slicing in the state `S`, with the newcomers `ys` already there. -/
theorem queueServed_processTimeSlicing (ha : a.PassesTurn) (hS : S.Settled)
    (hcur : S.currentTcb = k.currentTcb) (hen : S.timeSlicingEnabled = k.timeSlicingEnabled)
    (hprio : ∀ c, (S.tcb c).priority = (k.tcb c).priority) (ys : List TaskId)
    (hq : (S.readyQueue p).nodes = (k.readyQueue p).nodes ++ ys) :
    QueueServed k a p (processTimeSlicing S) := by
  by_cases hs : k.timeSlicingEnabled = true
  · cases hc : k.currentTcb with
    | none =>
      refine Or.inr ⟨fun _ _ c hc' => by simp [hc] at hc', ys, ?_⟩
      rw [show processTimeSlicing S = S by simp [processTimeSlicing, hcur, hc], hq]
    | some c =>
      have hq' := Kernel.processTimeSlicing_readyQueue hS.lists (hcur.trans hc)
        (hS.ready_current (hcur.trans hc)) (hen.trans hs) p
      rw [hprio] at hq'
      by_cases hp : (k.tcb c).priority = p
      · rw [if_pos hp, hq] at hq'
        exact Or.inl ⟨c, ys, ha, hs, hc, hp, hq'⟩
      · rw [if_neg hp, hq] at hq'
        refine Or.inr ⟨fun _ _ d hd => ?_, ys, hq'⟩
        rw [hc, Option.some_inj] at hd
        exact hd ▸ hp
  · rw [Kernel.processTimeSlicing_of_disabled (hen.trans (by simpa using hs))]
    exact Or.inr ⟨fun hs' => absurd hs' hs, ys, hq⟩

/-- Without a rotation and without blocking a queue can only grow at the tail. -/
theorem Effect.queue_grows (he : Effect k a k') (h : k.Settled) (hpass : ¬ a.PassesTurn)
    (hb : ∀ c, ¬ a.Blocks k c) (p : ℕ) :
    ∃ ys, (k'.readyQueue p).nodes = (k.readyQueue p).nodes ++ ys := by
  cases he with
  | none => exact ⟨[], by simp⟩
  | enroll => exact ⟨_, Kernel.enroll_readyQueue k _ _ p⟩
  | start => exact ⟨[], by simp [Kernel.readyQueue]⟩
  | tick => exact absurd trivial hpass
  | rotate hr => rcases hr with rfl | rfl <;> exact absurd (by trivial) hpass
  | park hbl => exact absurd hbl (hb _)
  | wake _ _ hblocked => exact ⟨_, Kernel.wake_readyQueue h.lists hblocked p⟩
  | lock => exact ⟨[], by simp [Kernel.readyQueue, Scheduler.lock]⟩
  | unlock => exact ⟨[], by simp [Kernel.readyQueue, (sameCore_unlockSection k).stateLists]⟩

/-- **One critical section, seen by the ready queue of priority `p`**: the caller leaves it, or it
is served. -/
theorem critical_queue (h : k.Settled) (ha : a.Allowed k) (p : ℕ) :
    (∃ c, a.Blocks k c ∧ ((a.critical k).readyQueue p).nodes = (k.readyQueue p).nodes.erase c) ∨
    (∀ c, ¬ a.Blocks k c) ∧ QueueServed k a p (a.critical k) := by
  by_cases hpass : a.PassesTurn
  · have hnb : ∀ c, ¬ a.Blocks k c := fun c hb => by
      cases a with
      | delay n => exact hb.1 hpass
      | block W timeout => exact hpass
      | _ => exact hb
    refine Or.inr ⟨hnb, ?_⟩
    cases a with
    | tick =>
      have hadv := Kernel.ticked_advance h.toInv
      rw [critical, Kernel.tickSection_eq h.toInv]
      exact queueServed_processTimeSlicing hpass h.advance hadv.currentTcb hadv.timeSlicingEnabled
        hadv.priority _ (Kernel.advance_readyQueue h.toInv p)
    | yield => exact queueServed_processTimeSlicing hpass h rfl rfl (fun _ => rfl) [] (by simp)
    | delay n =>
      obtain rfl : n = 0 := hpass
      rw [critical, if_pos rfl]
      exact queueServed_processTimeSlicing rfl h rfl rfl (fun _ => rfl) [] (by simp)
    | _ => exact hpass.elim
  · by_cases hb : ∃ c, a.Blocks k c
    · obtain ⟨c, hb⟩ := hb
      obtain ⟨W, ticks, -, e⟩ := (critical_effect h ha).of_blocks hb
      exact Or.inl ⟨c, hb, by rw [e, Kernel.park_readyQueue]⟩
    · exact Or.inr ⟨not_exists.1 hb, Or.inr ⟨fun _ hp => absurd hp hpass,
        (critical_effect h ha).queue_grows h hpass (not_exists.1 hb) p⟩⟩

theorem Effect.priority (he : Effect k a k') (h : k.Settled) (ht : k.Live t) :
    (k'.tcb t).priority = (k.tcb t).priority := by
  cases he with
  | enroll hnew => rw [Kernel.enroll_tcb_of_live ht hnew]
  | tick => exact (Kernel.Ticked.settled h).priority t
  | rotate => rw [(rotated_processTimeSlicing h).tcb]
  | @park _ c W ticks =>
    by_cases htc : t = c
    · subst htc; simp
    · rw [Kernel.park_tcb_of_ne k _ _ _ htc]
  | @wake W u =>
    by_cases htu : t = u
    · subst htu; simp
    · rw [Kernel.wake_tcb_of_ne k u htu]
  | unlock => rw [(sameCore_unlockSection k).tcb]
  | _ => rfl

/-- No call changes the priority of a task. -/
theorem run_priority (h : k.Settled) (ha : a.Allowed k) (ht : k.Live t) :
    ((a.run k).tcb t).priority = (k.tcb t).priority := by
  have he := critical_effect h ha
  rw [(run_switched (he.inv h).lists).tcb]
  exact he.priority h ht

theorem Effect.timeSlicingEnabled (he : Effect k a k') (h : k.Settled) :
    k'.timeSlicingEnabled = k.timeSlicingEnabled := by
  cases he with
  | tick => exact (Kernel.Ticked.settled h).timeSlicingEnabled
  | rotate => exact (rotated_processTimeSlicing h).timeSlicingEnabled
  | unlock =>
    rw [unlockSection]
    split
    · split <;> rfl
    · rfl
  | _ => rfl

/-- Time slicing is configured once and for all. -/
theorem run_timeSlicingEnabled (h : k.Settled) (ha : a.Allowed k) :
    (a.run k).timeSlicingEnabled = k.timeSlicingEnabled := by
  have he := critical_effect h ha
  exact (run_switched (he.inv h).lists).timeSlicingEnabled.trans (he.timeSlicingEnabled h)

/-- A call that ends a turn requests a switch. -/
theorem run_of_passesTurn (h : k.Settled) (hs : k.timeSlicingEnabled = true) (ha : a.PassesTurn) :
    a.run k = switchContext (a.critical k) := by
  cases a with
  | tick =>
    simp only [run, critical, Scheduler.tick, (Kernel.Ticked.settled h).timeSlicingEnabled, hs,
      Bool.or_true, if_true]
  | yield => rfl
  | delay n =>
    obtain rfl : n = 0 := ha
    rfl
  | _ => exact ha.elim

end Call

namespace Kernel

variable {k k' S : Kernel} {c t u n : TaskId} {a : Call} {p : ℕ} {calls : List Call}

/-! ## The current task is the head of its queue -/

def Fronted (k : Kernel) : Prop :=
  ∀ c, k.currentTcb = some c → (k.readyQueue (k.tcb c).priority).nodes.head? = some c

theorem ListInv.fronted_dispatch (h : k.ListInv) (hn : selectNextTask k = some n) :
    (Scheduler.dispatch k n).Fronted := by
  intro c hc
  rw [dispatch_currentTcb, Option.some_inj] at hc
  subst hc
  rw [readyQueue, dispatch_stateLists, dispatch_tcb]
  exact h.readyInv.head?_of_selectNextTask hn

/-- A switch puts the head of a queue on the CPU, or leaves the current task there. -/
theorem Fronted.performSwitch (hf : k.Fronted) (h : k.ListInv) :
    (Scheduler.performSwitch k).Fronted := by
  cases hn : selectNextTask k with
  | none => rw [performSwitch_of_none hn]; exact hf
  | some n => rw [performSwitch_of_some hn]; exact h.fronted_dispatch hn

theorem Fronted.switchContext (hf : k.Fronted) (h : k.ListInv) :
    (Scheduler.switchContext k).Fronted := by
  rw [Scheduler.switchContext]
  split
  · exact hf
  · split
    · exact hf
    · split
      · exact hf
      · exact hf.performSwitch h

theorem Fronted.reschedule (hf : k.Fronted) (h : k.ListInv) : (Scheduler.reschedule k).Fronted := by
  rcases reschedule_cases h with e | ⟨e, -⟩ <;> rw [e]
  · exact hf.switchContext h
  · exact hf

/-- Unlocked, a switch does so whatever the current task was. -/
theorem ListInv.fronted_switchContext (h : k.ListInv) (hl : k.lockNesting = 0) (ht : k.Ready t) :
    (Scheduler.switchContext k).Fronted := by
  obtain ⟨n, hn, -⟩ := exists_selectNextTask h ht
  have hsel : Scheduler.switchContext k =
      if k.currentTcb = some n then k else Scheduler.dispatch k n := by
    simp [Scheduler.switchContext, hl, hn, performSwitch_of_some hn]
  rw [hsel]
  split
  · rename_i hc
    intro c hc'
    obtain rfl := Option.some_inj.1 (hc.symm.trans hc')
    exact h.readyInv.head?_of_selectNextTask hn
  · exact h.fronted_dispatch hn

/-- **Every call keeps the current task at the head of its queue**, if a call that ends a turn finds
the scheduler unlocked. -/
theorem Fronted.run (hf : k.Fronted) (h : k.Steady) (ha : a.Allowed k)
    (hb : ∀ c, a.Blocks k c → k.lockNesting = 0)
    (hpass : k.timeSlicingEnabled = true → a.PassesTurn → k.lockNesting = 0) :
    (a.run k).Fronted := by
  have he := Call.critical_effect h.toSettled ha
  have hinv := he.inv h.toSettled
  have hidle : (a.critical k).Ready idleTcb :=
    he.ready h.toSettled h.idle_ready fun hbl => hbl.ne_idle ha rfl
  by_cases hend : (∃ c, a.Blocks k c) ∨ k.timeSlicingEnabled = true ∧ a.PassesTurn
  · -- a turn ends, and the switch that follows is made
    have hunlocked : k.lockNesting = 0 ∧ ¬ a.TouchesLock ∧
        a.run k = Scheduler.switchContext (a.critical k) := by
      rcases hend with ⟨c, hbl⟩ | ⟨hs, hp⟩
      · refine ⟨hb c hbl, fun hlock => ?_, Call.run_of_blocks hbl⟩
        cases a <;> first | exact hlock.elim | exact hbl.elim
      · refine ⟨hpass hs hp, fun hlock => ?_, Call.run_of_passesTurn h.toSettled hs hp⟩
        cases a <;> first | exact hlock.elim | exact hp.elim
    obtain ⟨hl, hlock, e⟩ := hunlocked
    rw [e]
    refine hinv.lists.fronted_switchContext ?_ hidle
    rw [he.lockNesting h.toSettled hlock, hl]
  · rw [not_or, not_exists, not_and] at hend
    have hcrit : (a.critical k).Fronted := fun c hc => by
      rw [he.currentTcb h.toSettled] at hc
      rw [he.priority h.toSettled (h.ready_current hc).1]
      rcases Call.critical_queue h.toSettled ha (k.tcb c).priority with
        ⟨d, hd, -⟩ | ⟨-, ⟨d, ys, hp, hs, -⟩ | ⟨-, ys, e⟩⟩
      · exact absurd hd (hend.1 d)
      · exact absurd hp (hend.2 hs)
      · rw [e, List.head?_append, hf c hc, Option.some_or]
    rcases Call.run_cases k a with e | e | e | ⟨s, -, e⟩ <;> rw [e]
    · exact hcrit
    · exact hcrit.switchContext hinv.lists
    · exact hcrit.reschedule hinv.lists
    · exact hcrit.performSwitch hinv.lists

/-! ## Fairness -/

/-- The invariant of runs with the scheduler unlocked and time slicing enabled. -/
structure Served (k : Kernel) : Prop extends Unlocked k where
  fronted : k.Fronted
  slicing : k.timeSlicingEnabled = true

theorem Served.step (h : k.Served) (hs : Call.UnlockedStep k a k') : k'.Served := by
  have hk' := h.toUnlocked.step hs
  obtain ⟨⟨ha, -⟩, rfl⟩ := hs
  exact { hk' with
    fronted := h.fronted.run h.toSteady ha (fun _ _ => h.lockNesting_eq) fun _ _ => h.lockNesting_eq
    slicing := (Call.run_timeSlicingEnabled h.toSettled ha).trans h.slicing }

/-- **A call is one move of every ready queue.** -/
theorem Served.queue_move (h : k.Served) (ha : a.Allowed k) (p : ℕ) :
    Turns.Move (k.readyQueue p).nodes (a.endsTurn p k) ((a.run k).readyQueue p).nodes := by
  have hinv := (Call.critical_effect h.toSettled ha).inv h.toSettled
  have hq : (a.run k).readyQueue p = (a.critical k).readyQueue p :=
    congrFun (Call.run_switched hinv.lists).stateLists (.ready p)
  rw [hq]
  have hhead : ∀ c, k.currentTcb = some c → (k.tcb c).priority = p →
      ∃ rest, (k.readyQueue p).nodes = c :: rest := by
    rintro c hc rfl
    exact List.head?_eq_some_iff.1 (h.fronted c hc)
  rcases Call.critical_queue h.toSettled ha p with
    ⟨c, hb, e⟩ | ⟨hb, ⟨c, ys, hpass, -, hc, hp, e⟩ | ⟨hne, ys, e⟩⟩ <;> rw [e]
  · by_cases hp : (k.tcb c).priority = p
    · obtain ⟨rest, hrest⟩ := hhead c hb.current hp
      rw [Call.endsTurn_eq_some.2 ⟨hb.current, hp, Or.inr hb⟩, hrest, List.erase_cons_head]
      exact .leave c rest
    · have hnone : a.endsTurn p k = none := Call.endsTurn_eq_none.2 fun d hd hdp => by
        obtain rfl := Option.some_inj.1 (hb.current.symm.trans hd)
        exact absurd hdp hp
      rw [hnone, h.lists.erase_readyQueue hp]
      exact .refl _
  · obtain ⟨rest, hrest⟩ := hhead c hc hp
    rw [Call.endsTurn_eq_some.2 ⟨hc, hp, Or.inl hpass⟩, hrest, List.cons_append,
      List.erase_cons_head]
    exact .turn c rest ys
  · have hnone : a.endsTurn p k = none := Call.endsTurn_eq_none.2 fun c hc hcp =>
      ⟨fun hpass => hne h.slicing hpass c hc hcp, hb c⟩
    rw [hnone]
    exact .arrive _ ys

/-- The number of tasks ahead of `t` in the ready queue of its priority. -/
def position (k : Kernel) (t : TaskId) : ℕ := (k.readyQueue (k.tcb t).priority).nodes.idxOf t

/-- The number of turns of tasks of priority `p` that end in a run. -/
def turns (p : ℕ) (k : Kernel) (calls : List Call) : ℕ :=
  (outputs Call.run (fun s a => (a.endsTurn p s).isSome) k calls).count true

theorem turns_cons (p : ℕ) (k : Kernel) (a : Call) (calls : List Call) :
    turns p k (a :: calls) =
      turns p (a.run k) calls + if (a.endsTurn p k).isSome then 1 else 0 := by
  rw [turns, outputs, List.count_cons, turns]
  simp

/-- **One call, seen by a ready task**: it moves up by exactly one place if the call ends the turn
of another task of its priority, and by none otherwise. -/
theorem Served.position_step (h : k.Served) (ht : k.Ready t) (hs : Call.UnlockedStep k a k')
    (hne : a.endsTurn (k.tcb t).priority k ≠ some t) :
    k'.Ready t ∧ (k'.tcb t).priority = (k.tcb t).priority ∧
      k'.position t + (if (a.endsTurn (k.tcb t).priority k).isSome then 1 else 0)
        = k.position t := by
  have h' := h.step hs
  obtain ⟨⟨ha, -⟩, rfl⟩ := hs
  have hprio := Call.run_priority h.toSettled ha ht.1
  obtain ⟨hm, hidx⟩ := (h.queue_move ha _).idxOf_add (ht.mem_readyQueue h.lists) hne
  refine ⟨?_, hprio, ?_⟩
  · rw [← hprio] at hm
    exact h'.lists.mem_readyQueue_iff_ready.1 hm
  · rw [position, position, hprio]
    exact hidx

/-- **A run, seen by a ready task**, until its own turn ends. -/
theorem Served.position_run (h : k.Served) (ht : k.Ready t)
    (hrun : Trace Call.UnlockedStep k calls k')
    (hne : Trace.AllSteps Call.UnlockedStep
      (fun s a _ => a.endsTurn (k.tcb t).priority s ≠ some t) k calls k') :
    k'.Ready t ∧ (k'.tcb t).priority = (k.tcb t).priority ∧
      k'.position t + turns (k.tcb t).priority k calls = k.position t := by
  generalize hp : (k.tcb t).priority = p at hne ⊢
  induction hrun with
  | nil k => exact ⟨ht, hp, rfl⟩
  | @cons k k₁ k' a calls hstep hrun ih =>
    have hfirst := hne [] a calls k k₁ rfl (.nil k) hstep hrun
    obtain ⟨ht₁, hprio, hpos⟩ := h.position_step ht hstep (hp.symm ▸ hfirst)
    rw [hp] at hprio hpos
    obtain ⟨hk', hprio', hpos'⟩ := ih (h.step hstep) ht₁ hprio
      fun bs b cs s s' hsplit h1 hR h2 =>
        hne (a :: bs) b cs s s' (by simp [hsplit]) (.cons hstep h1) hR h2
    refine ⟨hk', hprio', ?_⟩
    rw [turns_cons, ← hstep.2]
    omega

/-! ## Cyclic order -/

/-- `p` is the highest ready priority, and `l` are the tasks that are ready at it. -/
structure ReadyAt (p : ℕ) (l : List TaskId) (k : Kernel) : Prop where
  highest : ∀ u, k.Ready u → (k.tcb u).priority ≤ p
  members : ∀ u, u ∈ (k.readyQueue p).nodes ↔ u ∈ l

/-- A call leaves the current task where it is, or puts a ready task of maximal priority there. -/
theorem Unlocked.current_run (h : k.Unlocked) (ha : a.Allowed k) (hlock : ¬ a.TouchesLock) :
    (a.run k).currentTcb = k.currentTcb ∨
      ∃ n, (a.run k).currentTcb = some n ∧ (a.run k).IsTop n := by
  have he := Call.critical_effect h.toSettled ha
  have hinv := he.inv h.toSettled
  have hidle : (a.critical k).Ready idleTcb :=
    he.ready h.toSettled h.idle_ready fun hbl => hbl.ne_idle ha rfl
  have hl : (a.critical k).lockNesting = 0 :=
    (he.lockNesting h.toSettled hlock).trans h.lockNesting_eq
  rcases Call.run_cases k a with e | e | e | ⟨s, -, e⟩ <;> rw [e]
  · exact Or.inl (he.currentTcb h.toSettled)
  · exact Or.inr (hinv.switchContext_top hl hidle)
  · rcases reschedule_cases hinv.lists with e' | ⟨e', -⟩ <;> rw [e']
    · exact Or.inr (hinv.switchContext_top hl hidle)
    · exact Or.inl (he.currentTcb h.toSettled)
  · obtain ⟨n, hn, htop⟩ := exists_selectNextTask hinv.lists hidle
    rw [performSwitch_of_some hn]
    exact Or.inr ⟨n, dispatch_currentTcb _ n, isTop_dispatch htop⟩

variable {l : List TaskId}

/-- The queue of the tasks `l` after `j` turns, with its head on the CPU. -/
structure Turned (p : ℕ) (l : List TaskId) (j : ℕ) (k : Kernel) : Prop where
  nodes : (k.readyQueue p).nodes = l.rotate j
  current : k.currentTcb = l[j % l.length]?
  priority : ∀ c, k.currentTcb = some c → (k.tcb c).priority = p

theorem Turned.step {j : ℕ} (ht : Turned p l j k) (h : k.Served) (hl : l ≠ []) (hnodup : l.Nodup)
    (hs : Call.UnlockedStep k a k') (h' : ReadyAt p l k') :
    Turned p l (j + if a.PassesTurn then 1 else 0) k' := by
  have hk' := h.step hs
  obtain ⟨⟨ha, hlock⟩, rfl⟩ := hs
  have hperm : ((a.run k).readyQueue p).nodes.Perm l :=
    (List.perm_ext_iff_of_nodup (hk'.lists.stateWF.list _).nodup hnodup).2 h'.members
  have hpos : 0 < l.length := List.length_pos_iff.2 hl
  obtain ⟨c, hc⟩ : ∃ c, k.currentTcb = some c :=
    ⟨_, ht.current.trans (List.getElem?_eq_getElem (Nat.mod_lt _ hpos))⟩
  have hcp := ht.priority c hc
  -- the current task would no longer be ready, had it blocked
  have hnb : ¬ a.Blocks k c := fun hb => by
    have hcl : c ∈ l := by
      have hm := h.fronted c hc
      rw [hcp, ht.nodes] at hm
      exact List.mem_rotate.1 (List.mem_of_mem_head? hm)
    obtain ⟨W, ticks, hw, e⟩ := (Call.critical_effect h.toSettled ha).of_blocks hb
    have hm := (h'.members c).2 hcl
    have hinv := (Call.critical_effect h.toSettled ha).inv h.toSettled
    rw [show (a.run k).readyQueue p = (a.critical k).readyQueue p from
      congrFun (Call.run_switched hinv.lists).stateLists (.ready p), e, park_readyQueue] at hm
    exact (h.lists.stateWF.list (.ready p)).nodup.not_mem_erase hm
  have hends : (a.endsTurn p k).isSome = decide a.PassesTurn := by
    by_cases hpass : a.PassesTurn
    · rw [Call.endsTurn_eq_some.2 ⟨hc, hcp, Or.inl hpass⟩]
      simp [hpass]
    · rw [Call.endsTurn_eq_none.2 fun d hd _ => by
        obtain rfl := Option.some_inj.1 (hc.symm.trans hd)
        exact ⟨hpass, hnb⟩]
      simp [hpass]
  have hnodes : ((a.run k).readyQueue p).nodes = l.rotate (j + if a.PassesTurn then 1 else 0) := by
    have hmove := (h.queue_move ha p).eq_rotate
      (hperm.trans (by rw [ht.nodes]; exact (l.rotate_perm j).symm))
    rw [hmove, ht.nodes, List.rotate_rotate, hends]
    simp
  have hprio : ∀ d, (a.run k).currentTcb = some d → ((a.run k).tcb d).priority = p := by
    intro d hd
    rcases h.toUnlocked.current_run ha hlock with e | ⟨n, e, htop⟩
    · rw [e, hc, Option.some_inj] at hd
      subst hd
      rw [Call.run_priority h.toSettled ha (h.current_live _ hc)]
      exact hcp
    · obtain rfl := Option.some_inj.1 (hd.symm.trans e)
      obtain ⟨u, hu⟩ := List.exists_mem_of_ne_nil l hl
      obtain ⟨hlive, hr, hup⟩ := (hk'.lists.mem_readyQueue p).1 ((h'.members u).2 hu)
      exact Nat.le_antisymm (h'.highest d htop.ready) (hup ▸ htop.max u ⟨hlive, hr⟩)
  refine ⟨hnodes, ?_, hprio⟩
  obtain ⟨d, hd⟩ : ∃ d, (a.run k).currentTcb = some d := by
    rcases h.toUnlocked.current_run ha hlock with e | ⟨n, e, -⟩
    · exact ⟨c, e.trans hc⟩
    · exact ⟨n, e⟩
  have hhead := hk'.fronted d hd
  rw [hprio d hd, hnodes, ← List.rotate_mod, List.head?_rotate (Nat.mod_lt _ hpos)] at hhead
  rw [hd, hhead]

/-- **With nobody coming or leaving, the tasks run in cyclic order.** -/
theorem Turned.run (hrun : Trace Call.UnlockedStep k calls k') {j : ℕ} (ht : Turned p l j k)
    (h : k.Served) (hl : l ≠ []) (hnodup : l.Nodup)
    (hready : Trace.AllStates Call.UnlockedStep (ReadyAt p l) k calls k') :
    Turned p l (j + calls.countP fun a => a.PassesTurn) k' := by
  induction hrun generalizing j with
  | nil k => simpa using ht
  | @cons k k₁ k' a calls hstep hrun ih =>
    have h₁ : ReadyAt p l k₁ := hready [a] calls k₁ rfl (.single hstep) hrun
    have hrest := ih (ht.step h hl hnodup hstep h₁) (h.step hstep) fun bs cs s hsplit h1 h2 =>
      hready (a :: bs) cs s (by simp [hsplit]) (.cons hstep h1) h2
    rw [List.countP_cons]
    simpa [Nat.add_assoc, Nat.add_comm, Nat.add_left_comm] using hrest

theorem initWithConfig_served {mem : Kernel} {config : Option Config} {idleStack : ℕ}
    (h : (initWithConfig mem config idleStack).2 = .ok)
    (hs : (initWithConfig mem config idleStack).1.timeSlicingEnabled = true) :
    (initWithConfig mem config idleStack).1.Served :=
  { initWithConfig_unlocked h with
    fronted := fun c hc => by
      rw [(initWithConfig_eq h).1.currentTcb] at hc
      exact absurd hc (by simp [initData])
    slicing := hs }

/-- **Round-robin is fair.**  With time slicing enabled, in every run with the scheduler unlocked: a
ready task moves up in its queue by exactly one place each time the turn of another task of its
priority ends, by a tick, a yield or a blocking call, and its place changes in no other way until
its own turn ends.  And while the tasks `l` stay the ones of the highest ready priority, they run in
the cyclic order of their queue, each exactly once in as many consecutive ticks and yields as there
are tasks. -/
theorem round_robin_fair {mem : Kernel} {config : Option Config} {idleStack : ℕ}
    (hinit : (initWithConfig mem config idleStack).2 = .ok)
    (hslicing : (initWithConfig mem config idleStack).1.timeSlicingEnabled = true)
    {pre : List Call} (hpre : Trace Call.UnlockedStep (initWithConfig mem config idleStack).1 pre k)
    (hrun : Trace Call.UnlockedStep k calls k') :
    (∀ t, k.Ready t → Trace.AllSteps Call.UnlockedStep
      (fun s a _ => a.endsTurn (k.tcb t).priority s ≠ some t) k calls k' →
      k'.Ready t ∧ (k'.tcb t).priority = (k.tcb t).priority ∧
        k'.position t + turns (k.tcb t).priority k calls = k.position t) ∧
    (∀ c l, k.currentTcb = some c → l = (k.readyQueue (k.tcb c).priority).nodes →
      Trace.AllStates Call.UnlockedStep (ReadyAt (k.tcb c).priority l) k calls k' →
      k'.currentTcb = l[(calls.countP fun a => a.PassesTurn) % l.length]? ∧
      ∀ i u, i + l.length ≤ (calls.countP fun a => a.PassesTurn) + 1 → u ∈ l →
        ∃! j, (i ≤ j ∧ j < i + l.length) ∧ ∃ bs cs s, calls = bs ++ cs ∧
          Trace Call.UnlockedStep k bs s ∧ Trace Call.UnlockedStep s cs k' ∧
          (bs.countP fun a => a.PassesTurn) = j ∧ s.currentTcb = some u) := by
  have h : k.Served :=
    hpre.invariant (fun _ _ _ hs hstep => hs.step hstep) (initWithConfig_served hinit hslicing)
  refine ⟨fun t ht hne => h.position_run ht hrun hne, ?_⟩
  rintro c l hc rfl hready
  have hnodup : (k.readyQueue (k.tcb c).priority).nodes.Nodup := (h.lists.stateWF.list _).nodup
  obtain ⟨rest, hrest⟩ := List.head?_eq_some_iff.1 (h.fronted c hc)
  have hne : (k.readyQueue (k.tcb c).priority).nodes ≠ [] := by simp [hrest]
  have hstart : Turned (k.tcb c).priority (k.readyQueue (k.tcb c).priority).nodes 0 k := by
    refine ⟨by simp, ?_, fun d hd => by rw [Option.some_inj.1 (hc.symm.trans hd)]⟩
    rw [hrest, hc]
    simp
  have hcurrent : ∀ bs cs s, calls = bs ++ cs → Trace Call.UnlockedStep k bs s →
      Trace Call.UnlockedStep s cs k' → s.currentTcb = (k.readyQueue (k.tcb c).priority).nodes[
        (bs.countP fun a => a.PassesTurn) % (k.readyQueue (k.tcb c).priority).nodes.length]? := by
    rintro bs cs s rfl h1 h2
    simpa using (hstart.run h1 h hne hnodup (hready.of_append h2)).current
  refine ⟨hcurrent calls [] k' (by simp) hrun (.nil k'), fun i u hi hu => ?_⟩
  obtain ⟨j, ⟨hj, hget⟩, huniq⟩ := Turns.existsUnique_turn hnodup hu i
  obtain ⟨bs, cs, rfl, hbs⟩ :=
    Turns.exists_prefix_countP (fun a => decide (Call.PassesTurn a)) (l := calls) (j := j) (by omega)
  obtain ⟨s, h1, h2⟩ := Trace.append_iff.1 hrun
  have hs := hcurrent bs cs s rfl h1 h2
  rw [hbs, hget] at hs
  refine ⟨j, ⟨hj, bs, cs, s, rfl, h1, h2, hbs, hs⟩, ?_⟩
  rintro j' ⟨hj', bs', cs', s', hsplit, h1', h2', rfl, hs'⟩
  exact huniq _ ⟨hj', by rw [← hcurrent bs' cs' s' hsplit h1' h2', hs']⟩

instance (p : ℕ) (l : List TaskId) (k : Kernel) : Decidable (ReadyAt p l k) :=
  decidable_of_iff ((∀ u ∈ k.taskRegistry.nodes, (k.tcb u).state.isReady = true →
      (k.tcb u).priority ≤ p) ∧ (∀ u ∈ (k.readyQueue p).nodes, u ∈ l) ∧
      ∀ u ∈ l, u ∈ (k.readyQueue p).nodes)
    ⟨fun ⟨h, h₁, h₂⟩ => ⟨fun u hu => h u hu.1 hu.2, fun u => ⟨h₁ u, h₂ u⟩⟩,
      fun h => ⟨fun u hu hr => h.highest u ⟨hu, hr⟩, fun u => (h.members u).1,
        fun u => (h.members u).2⟩⟩

/-- Two tasks of priority 1, the first of them running. -/
def twoTasks : Kernel :=
  [.create (.ofPriority 1) 1, .create (.ofPriority 1) 2, .start .ok].foldl Call.run
    (initWithConfig bss none 0).1

/-- One tick: task 2 moves up to the head, and the CPU goes from task 1 to task 2. -/
theorem round_robin_fair_two :
    (Call.tick.run twoTasks).position 2 + turns 1 twoTasks [.tick] = twoTasks.position 2 ∧
    (Call.tick.run twoTasks).currentTcb = some 2 := by
  have hpre : Trace Call.UnlockedStep (initWithConfig bss none 0).1
      [.create (.ofPriority 1) 1, .create (.ofPriority 1) 2, .start .ok] twoTasks :=
    Trace.of_guards (by decide +kernel)
  have hstep : Call.UnlockedStep twoTasks .tick (Call.tick.run twoTasks) :=
    ⟨by decide +kernel, rfl⟩
  obtain ⟨hposition, hcyclic⟩ := round_robin_fair (by decide) (by decide) hpre (.single hstep)
  have hprio : (twoTasks.tcb 2).priority = 1 := by decide +kernel
  have h2 := hposition 2 ⟨by decide +kernel, by decide +kernel⟩ fun bs a cs s s' hsplit h1 hR _ => by
    obtain ⟨rfl, rfl, rfl⟩ : bs = [] ∧ a = .tick ∧ cs = [] := by
      rcases bs with _ | ⟨b, bs⟩ <;> simp_all
    rw [Trace.nil_iff] at h1
    rw [← h1]
    decide +kernel
  have hready :
      Trace.AllStates Call.UnlockedStep (ReadyAt (twoTasks.tcb 1).priority [1, 2]) twoTasks
      [.tick] (Call.tick.run twoTasks) :=
    (Trace.allStates_iff_allSteps (by decide +kernel)).2 fun bs a cs s s' hsplit h1 hR _ => by
      obtain ⟨rfl, rfl, rfl⟩ : bs = [] ∧ a = .tick ∧ cs = [] := by
        rcases bs with _ | ⟨b, bs⟩ <;> simp_all
      rw [Trace.nil_iff] at h1
      rw [hR.2, ← h1]
      decide +kernel
  refine ⟨hprio ▸ h2.2.2, ?_⟩
  rw [(hcyclic 1 [1, 2] (by decide +kernel) (by decide +kernel) hready).1]
  decide

end Kernel

end Sertos
