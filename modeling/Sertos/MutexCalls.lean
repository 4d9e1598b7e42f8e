import Sertos.Calls
import Sertos.Interleaving

/-!
# Runs of mutex calls

Here a step is a whole call: a call of the scheduler's interface, `sertos_mutex_unlock`, or
`sertos_mutex_lock` up to the point where its caller waits.  What the caller does when it runs
again is a step of its own, `Api.resume`.  Besides the switches that the calls themselves make,
`Api.dispatch` gives the processor to any task, for statements that hold whatever the scheduling.

`LockEffect` and `UnlockEffect` list everything the two mutex functions can do; what is proved about
runs goes through them.
-/

set_option autoImplicit false

namespace Sertos

open Intrusive Lts Scheduler

namespace Mutex

/-- All that `sertos_mutex_lock` can do up to its blocking point, with the status it returns. -/
inductive LockEffect (s : System) (m timeout : ℕ) : System × Option Status → Prop
  | invalid (h : (s.mutexes m).magic ≠ mutexMagicWord) :
    LockEffect s m timeout (s, some .errorInvalidParam)
  | noTask (h : s.kernel.currentTcb = none) :
    LockEffect s m timeout (s, some .errorNotInitialized)
  | acquire {c : TaskId} (hc : s.kernel.currentTcb = some c) (ho : (s.mutexes m).owner = none) :
    LockEffect s m timeout (s.setMutex m { s.mutexes m with
      owner := some c
      lockCount := 1
      originalOwnerPriority := (s.kernel.tcb c).priority }, some .ok)
  | again {c : TaskId} (hc : s.kernel.currentTcb = some c) (ho : (s.mutexes m).owner = some c) :
    LockEffect s m timeout (s.setMutex m { s.mutexes m with
      lockCount := ((s.mutexes m).lockCount + 1) % 2 ^ 32 }, some .ok)
  /-- The owner inherits the priority of the caller, and the call returns an error. -/
  | fail {c o : TaskId} {status : Status} (hc : s.kernel.currentTcb = some c)
    (ho : (s.mutexes m).owner = some o) (hoc : o ≠ c) (hs : status ≠ .ok) :
    LockEffect s m timeout
      ({ s with kernel := applyPriorityInheritance s.kernel o c }, some status)
  | wait {c o : TaskId} (hc : s.kernel.currentTcb = some c) (ho : (s.mutexes m).owner = some o)
    (hoc : o ≠ c) (ht : timeout ≠ noWait) (hrun : s.kernel.isRunning = true) :
    LockEffect s m timeout (({ s with
      kernel := switchContext (waitListBlockSection (applyPriorityInheritance s.kernel o c) c
        (.mutex m) timeout) } : System).setPc c (.mutexWait m timeout), none)

theorem lock_effect (s : System) (m timeout : ℕ) : LockEffect s m timeout (lock s m timeout) := by
  rw [lock]
  by_cases hmagic : (s.mutexes m).magic ≠ mutexMagicWord
  · rw [if_pos hmagic]
    exact .invalid hmagic
  · rw [if_neg hmagic]
    cases hc : s.kernel.currentTcb with
    | none => exact .noTask hc
    | some c =>
      cases ho : (s.mutexes m).owner with
      | none =>
        simp only [lockSection_of_free ho]
        exact .acquire hc ho
      | some o =>
        by_cases hoc : o = c
        · subst hoc
          simp only [lockSection_of_owner ho]
          exact .again hc ho
        · simp only [lockSection_of_other ho hoc]
          by_cases ht : timeout = noWait
          · simp only [ht, if_true]
            exact .fail hc ho hoc (by simp)
          · have hframe := applyPriorityInheritance_frame s.kernel o c
            have hrun : (applyPriorityInheritance s.kernel o c).isRunning = s.kernel.isRunning := by
              rw [hframe]
            have hcur : (applyPriorityInheritance s.kernel o c).currentTcb = some c := by
              rw [hframe]
              exact hc
            simp only [ht, if_false, waitListBlock, hcur, hrun]
            cases hr : s.kernel.isRunning with
            | true => exact .wait hc ho hoc ht hr
            | false => exact .fail hc ho hoc (by simp)

/-- All that `sertos_mutex_unlock` can do. -/
inductive UnlockEffect (s : System) (m : ℕ) : System × Status → Prop
  | invalid (h : (s.mutexes m).magic ≠ mutexMagicWord ∨
      ∀ c, s.kernel.currentTcb = some c → (s.mutexes m).owner ≠ some c) :
    UnlockEffect s m (s, .errorInvalidParam)
  | nested {c : TaskId} (hc : s.kernel.currentTcb = some c) (ho : (s.mutexes m).owner = some c)
    (hcount : (s.mutexes m).lockCount ≠ 1) :
    UnlockEffect s m
      (s.setMutex m { s.mutexes m with lockCount := decrement (s.mutexes m).lockCount }, .ok)
  | release {c : TaskId} (hc : s.kernel.currentTcb = some c) (ho : (s.mutexes m).owner = some c)
    (hcount : (s.mutexes m).lockCount = 1) (hW : s.waiters m = []) :
    UnlockEffect s m (({ s with
      kernel := reschedule (restoreOwnerPriority s.kernel (s.mutexes m) c) } : System).setMutex m
        { s.mutexes m with owner := none, lockCount := 0 }, .ok)
  | handOver {c w : TaskId} {rest : List TaskId} (hc : s.kernel.currentTcb = some c)
    (ho : (s.mutexes m).owner = some c) (hcount : (s.mutexes m).lockCount = 1)
    (hW : s.waiters m = w :: rest) :
    UnlockEffect s m (({ s with kernel := reschedule (handedKernel s m c) } : System).setMutex m
      { s.mutexes m with
        owner := some w
        lockCount := 1
        originalOwnerPriority := ((handedKernel s m c).tcb w).basePriority }, .ok)

theorem reschedule_of_not_running {k : Kernel} (h : ¬ k.isRunning = true) : reschedule k = k := by
  simp [reschedule, h]

theorem unlock_effect (s : System) (m : ℕ) : UnlockEffect s m (unlock s m) := by
  rw [unlock]
  by_cases hmagic : (s.mutexes m).magic ≠ mutexMagicWord
  · rw [if_pos hmagic]
    exact .invalid (Or.inl hmagic)
  · rw [if_neg hmagic]
    cases hc : s.kernel.currentTcb with
    | none => exact .invalid (Or.inr (by simp [hc]))
    | some c =>
      by_cases ho : (s.mutexes m).owner = some c
      · simp only [ho, ne_eq, not_true_eq_false, if_false]
        by_cases hcount : (s.mutexes m).lockCount = 1
        · -- the function tests `s_is_running` before the reschedule, which does so again
          cases hW : s.waiters m with
          | nil =>
            rw [unlockSection_release hcount hW]
            simp only
            split
            · exact .release hc ho hcount hW
            · rename_i hrun
              have heff := UnlockEffect.release hc ho hcount hW
              rwa [reschedule_of_not_running (k := restoreOwnerPriority _ _ _) hrun] at heff
          | cons w rest =>
            rw [unlockSection_handOver hcount hW]
            simp only
            split
            · exact .handOver hc ho hcount hW
            · rename_i hrun
              have heff := UnlockEffect.handOver hc ho hcount hW
              rwa [reschedule_of_not_running (k := handedKernel _ _ _) hrun] at heff
        · rw [unlockSection_of_ne_one hcount]
          exact .nested hc ho hcount
      · simp only [ho, ne_eq, not_false_eq_true, if_true]
        refine .invalid (Or.inr fun c' hc' => ?_)
        rw [← hc', hc]
        exact fun e => ho (e ▸ rfl)

end Mutex

/-- The wait list of a mutex. -/
def WaitList.OfMutex : WaitList → Prop
  | .mutex _ => True
  | _ => False

instance : DecidablePred WaitList.OfMutex
  | .mutex _ => .isTrue trivial
  | .sem _ | .other _ => .isFalse id

/-- One call. -/
inductive Api
  /-- A call of the scheduler's interface. -/
  | sched (a : Call)
  /-- The processor is given to `t`. -/
  | dispatch (t : TaskId)
  /-- `sertos_mutex_lock` up to its blocking point. -/
  | lock (m timeout : ℕ)
  /-- The current task comes back from its wait in `sertos_mutex_lock`. -/
  | resume
  | unlock (m : ℕ)
deriving DecidableEq, Repr

namespace Api

/-- The end of `sertos_mutex_lock` for the current task, with the mutex and the status it
returns. -/
def returned (s : System) : Option (ℕ × System × Status) :=
  match s.kernel.currentTcb with
  | some c => match s.pc c with
    | .mutexWait m timeout => some (m, Mutex.lockResume s m c timeout)
    | _ => none
  | none => none

/-- The state change of a call. -/
def run (s : System) : Api → System
  | .sched a => { s with kernel := a.run s.kernel }
  | .dispatch t => { s with kernel := { s.kernel with currentTcb := some t } }
  | .lock m timeout => (Mutex.lock s m timeout).1
  | .resume => match returned s with
    | some (_, s', _) => s'
    | none => s
  | .unlock m => (Mutex.unlock s m).1

/-- The calls of the scheduler's interface: the wait lists of the mutexes are used by the mutex
functions only, and the current task makes a call only when it is in no other call. -/
def AllowedCall (s : System) : Call → Prop
  | .block W _ => ¬ W.OfMutex ∧ s.InNoCall
  | .unblock W => ¬ W.OfMutex
  | .create _ _ | .yield | .delay _ | .lock | .unlock => s.InNoCall
  | _ => True

instance (s : System) : DecidablePred (AllowedCall s)
  | .block W _ => inferInstanceAs (Decidable (¬ W.OfMutex ∧ s.InNoCall))
  | .unblock W => inferInstanceAs (Decidable (¬ W.OfMutex))
  | .create _ _ | .yield | .delay _ | .lock | .unlock => inferInstanceAs (Decidable s.InNoCall)
  | .start _ | .tick | .reschedule => .isTrue trivial

/-- The calls that can come next. -/
def Allowed (s : System) : Api → Prop
  | .sched a => a.Allowed s.kernel ∧ AllowedCall s a
  | .dispatch _ => True
  | .lock _ _ | .unlock _ => s.InNoCall
  | .resume => (returned s).isSome = true

instance (s : System) : DecidablePred (Allowed s)
  | .sched a => inferInstanceAs (Decidable (a.Allowed s.kernel ∧ AllowedCall s a))
  | .dispatch _ => .isTrue trivial
  | .lock _ _ | .unlock _ => inferInstanceAs (Decidable s.InNoCall)
  | .resume => inferInstanceAs (Decidable ((returned s).isSome = true))

/-- One step of a run of calls. -/
abbrev Step : System → Api → System → Prop := Guarded Allowed run

theorem returned_eq {s : System} {c : TaskId} {m timeout : ℕ} (hc : s.kernel.currentTcb = some c)
    (hpc : s.pc c = .mutexWait m timeout) :
    returned s = some (m, Mutex.lockResume s m c timeout) := by
  simp only [returned, hc, hpc]

theorem returned_cases {s : System} (h : (returned s).isSome = true) :
    ∃ c m timeout, s.kernel.currentTcb = some c ∧ s.pc c = .mutexWait m timeout ∧
      Api.run s .resume = (Mutex.lockResume s m c timeout).1 := by
  cases hc : s.kernel.currentTcb with
  | none => simp [returned, hc] at h
  | some c =>
    cases hpc : s.pc c with
    | mutexWait m timeout =>
      exact ⟨c, m, timeout, rfl, hpc, by simp only [Api.run, returned_eq hc hpc]⟩
    | _ => simp [returned, hc, hpc] at h

end Api

namespace System

/-- The active priority of a task. -/
def priority (s : System) (t : TaskId) : ℕ := (s.kernel.tcb t).priority

/-- The priority a task was created with. -/
def basePriority (s : System) (t : TaskId) : ℕ := (s.kernel.tcb t).basePriority

/-- The current task `c` unlocks `m` for the last time. -/
def FullRelease (s : System) (m : ℕ) (c : TaskId) : Prop :=
  s.kernel.currentTcb = some c ∧ (s.mutexes m).owner = some c ∧ (s.mutexes m).lockCount = 1

/-- The last unlock leaves the mutex free, or hands it to the first waiter. -/
theorem FullRelease.unlock_cases {s : System} {m : ℕ} {c : TaskId} (hr : s.FullRelease m c)
    (hmagic : (s.mutexes m).magic = mutexMagicWord) :
    (s.waiters m = [] ∧ (Mutex.unlock s m).1 =
      ({ s with kernel := reschedule (Mutex.restoreOwnerPriority s.kernel (s.mutexes m) c) } :
        System).setMutex m { s.mutexes m with owner := none, lockCount := 0 }) ∨
    ∃ w rest, s.waiters m = w :: rest ∧ (Mutex.unlock s m).1 =
      ({ s with kernel := reschedule (Mutex.handedKernel s m c) } : System).setMutex m
        { s.mutexes m with
          owner := some w
          lockCount := 1
          originalOwnerPriority := ((Mutex.handedKernel s m c).tcb w).basePriority } := by
  obtain ⟨hc, ho, hcount⟩ := hr
  have he := Mutex.unlock_effect s m
  generalize Mutex.unlock s m = r at he ⊢
  cases he with
  | invalid hinv =>
    rcases hinv with hwrong | hne
    · exact absurd hmagic hwrong
    · exact absurd ho (hne c hc)
  | nested _ _ hne => exact absurd hcount hne
  | @release c' hc' _ _ hW =>
    obtain rfl := Option.some_inj.1 (hc.symm.trans hc')
    exact .inl ⟨hW, rfl⟩
  | @handOver c' w rest hc' _ _ hW =>
    obtain rfl := Option.some_inj.1 (hc.symm.trans hc')
    exact .inr ⟨w, rest, hW, rfl⟩

/-- Any other unlock at most counts. -/
theorem unlock_cases_of_not_fullRelease {s : System} {m : ℕ} (hr : ¬ ∃ c, s.FullRelease m c) :
    (Mutex.unlock s m).1 = s ∨ (Mutex.unlock s m).1 = s.setMutex m
      { s.mutexes m with lockCount := Mutex.decrement (s.mutexes m).lockCount } := by
  have he := Mutex.unlock_effect s m
  generalize Mutex.unlock s m = r at he ⊢
  cases he with
  | invalid => exact .inl rfl
  | nested => exact .inr rfl
  | release hc ho hcount => exact absurd ⟨_, hc, ho, hcount⟩ hr
  | handOver hc ho hcount => exact absurd ⟨_, hc, ho, hcount⟩ hr

/-- A release with nothing to give back wakes the first waiter and reschedules. -/
theorem unlock_kernel {s : System} {m : ℕ} {c : TaskId}
    (hmagic : (s.mutexes m).magic = mutexMagicWord) (hr : s.FullRelease m c)
    (hp : s.priority c = (s.mutexes m).originalOwnerPriority) :
    (Mutex.unlock s m).1.kernel = reschedule (waitListUnblockHighest s.kernel (.mutex m)).1 := by
  have hrestore : Mutex.restoreOwnerPriority s.kernel (s.mutexes m) c = s.kernel := by
    rw [System.priority] at hp
    rw [Mutex.restoreOwnerPriority, if_neg (not_not.2 hp)]
  rcases hr.unlock_cases hmagic with ⟨hW, e⟩ | ⟨w, rest, hW, e⟩
  · rw [e, waitListUnblockHighest_nil hW, System.setMutex_kernel, hrestore]
  · rw [e, System.setMutex_kernel, Mutex.handedKernel, hrestore]

/-- The system after an initialisation with the default configuration. -/
def freshSystem : System := System.init (initWithConfig bss none 0).1 fun _ => ⟨0, 1, semMagicWord⟩

theorem InNoCall.idle {s : System} {c : TaskId} (h : s.InNoCall)
    (hc : s.kernel.currentTcb = some c) : s.pc c = .idle := by
  rcases h with h | h
  · simp [currentPc, hc] at h
  · simpa [currentPc, hc] using h

end System

end Sertos
