import Sertos.PendingLocks

/-!
# Locks that fail

`sertos_mutex_lock` raises the owner of the mutex before it decides whether its caller waits, and
nothing lowers the owner again if the caller does not get the mutex: not the call itself, which
returns at once for `SERTOS_NO_WAIT`, and not the tick that ends a wait, which knows no mutexes.

Here is when this leaves a trace.  A call that returns at once leaves one exactly if its caller has
a higher priority than the owner.  A tick that ends waits for a mutex leaves the owner too high
exactly if one of these waiters has a higher priority than the owner's base priority and all that go
on waiting (`failed_lock_undone_iff`).
-/

set_option autoImplicit false

namespace Sertos

open Intrusive Lts Scheduler

namespace System

/-! ## The property -/

/-- The call has left the priorities, the ready queues and their bitmap, and the mutex with its wait
list as they were. -/
structure Untouched (s : System) (m : ℕ) (s' : System) : Prop where
  priority : ∀ t, s'.priority t = s.priority t
  readyQueue : ∀ p, s'.kernel.readyQueue p = s.kernel.readyQueue p
  readyBitmap : s'.kernel.readyBitmap = s.kernel.readyBitmap
  mutex : s'.mutexes m = s.mutexes m
  waitList : s'.kernel.waitLists (.mutex m) = s.kernel.waitLists (.mutex m)

/-- A task that holds one mutex has the highest of its base priority and the priorities of the tasks
waiting for the mutex, and a task that holds none has its base priority. -/
structure PriorityExact (s : System) : Prop where
  free : ∀ t, s.kernel.Live t → (∀ m, s.holderOf m ≠ some t) → s.priority t = s.basePriority t
  only : ∀ m o, s.HoldsAlone o m → s.priority o = s.inheritedPriority m o

/-- If this step is a tick that ends the wait of a task for `m`, the owner of `m` alone has the
priority that the tasks still waiting account for. -/
def UndoesBoost (s : System) (a : SystemOp) (s' : System) : Prop :=
  a = .call (.api (.sched .tick)) → ∀ m o w, s.HoldsAlone o m → w ∈ s.waiters m →
    w ∉ s'.waiters m → s'.priority o = s'.inheritedPriority m o

/-! ## The conditions -/

/-- The caller `c` of a lock does not raise the owner `o` of the mutex for nothing, and if it raises
it, a task that `o` waits for itself has the priority of `c` already. -/
structure LockAccounted (s : System) (timeout : ℕ) (c o : TaskId) : Prop where
  fails : timeout = noWait ∨ s.kernel.isRunning ≠ true → s.priority c ≤ s.priority o
  waits : s.priority o < s.priority c → ∀ n p, o ∈ s.waiters n → s.HoldsAlone p n →
    s.priority c ≤ s.priority p

/-- The priority that `m` has recorded is right for `t`, which holds it, when it holds it no
more. -/
structure RecordAccounted (s : System) (m : ℕ) (t : TaskId) : Prop where
  last : s.HoldsAlone t m → (s.mutexes m).originalOwnerPriority = s.basePriority t
  kept : ∀ n, n ≠ m → (∀ l, s.holderOf l = some t ↔ l = m ∨ l = n) →
    (s.mutexes m).originalOwnerPriority = s.inheritedPriority n t

/-- The first waiter of `m` is right for the others. -/
structure UnlockAccounted (s : System) (m : ℕ) (c : TaskId) : Prop extends
    RecordAccounted s m c where
  first : ∀ w, (s.waiters m).head? = some w → (∀ n, s.holderOf n ≠ some w) →
    ∀ u ∈ s.waiters m, s.priority u ≤ s.priority w

/-- The priority `q` is at most that of the task that keeps `t` waiting, and if it is lower than
before, something else accounts for the priority of that task. -/
def WaiterAccounted (s : System) (t : TaskId) (q : ℕ) : Prop :=
  ∀ n p, t ∈ s.waiters n → s.HoldsAlone p n → q ≤ s.priority p ∧
    (s.priority t ≤ q ∨ s.priority p = s.basePriority p ∨
      ∃ u ∈ s.waiters n, u ≠ t ∧ s.priority u = s.priority p)

/-- The priority `q` is at least that of the tasks that `t` keeps waiting, and right for the task
that keeps `t` waiting. -/
structure SetAccounted (s : System) (t : TaskId) (q : ℕ) : Prop where
  holder : ∀ m, s.HoldsAlone t m → ∀ w ∈ s.waiters m, s.priority w ≤ q
  waiter : s.WaiterAccounted t q

/-- The condition on a step that is not a tick. -/
def CallAccounted (s : System) : SystemOp → Prop
  | .call (.api (.lock m timeout)) => ∀ c o, s.kernel.currentTcb = some c →
    s.holderOf m = some o → o ≠ c → s.LockAccounted timeout c o
  | .call (.api (.unlock m)) => ∀ c, s.Releases m c → s.UnlockAccounted m c
  | .call (.setPriority handle p) => ∀ t q,
    (PriorityCall.setPriority handle p).sets s t = some q → s.SetAccounted t q
  | .deleteMutex m => ∀ o, s.holderOf m = some o →
    s.RecordAccounted m o ∧ s.WaiterAccounted o (s.mutexes m).originalOwnerPriority
  | .call (.api _) | .suspend _ | .resume _ | .delete _ => True

/-- The condition on all calls but ticks: each is in place, and keeps the accounts. -/
def CallInOrder (s : System) (a : SystemOp) : Prop := a.InPlace s ∧ s.CallAccounted a

/-- The condition on a tick: a waiter whose time is up has no higher priority than the owner of the
mutex alone has by itself, or than a waiter whose time is not up. -/
def TickAccounted (s : System) (a : SystemOp) : Prop :=
  a = .call (.api (.sched .tick)) → ∀ m o w, s.HoldsAlone o m → w ∈ s.waiters m →
    s.kernel.Expires w → s.priority w ≤ s.basePriority o ∨
      ∃ u ∈ s.waiters m, ¬ s.kernel.Expires u ∧ s.priority w ≤ s.priority u

end System

/-! ## A lock that returns at once -/

namespace Mutex

variable {s : System} {m : ℕ}

/-- **A lock without waiting** leaves no trace exactly if its caller has no higher priority than the
owner. -/
theorem lock_noWait_untouched_iff (h : (lock s m noWait).2 = some .errorTimeout) :
    s.Untouched m (lock s m noWait).1 ↔
      ∀ c o, s.kernel.currentTcb = some c → (s.mutexes m).owner = some o →
        s.priority c ≤ s.priority o := by
  have he := lock_effect s m noWait
  generalize lock s m noWait = r at he h ⊢
  cases he with
  | invalid | noTask | acquire | again => exact absurd h (by simp)
  | wait _ _ _ ht => exact absurd rfl ht
  | @fail c o _ hc ho hoc =>
    have hprio := applyPriorityInheritance_priority s.kernel o o c
    constructor
    · intro htouched c' o' hc' ho'
      obtain rfl := Option.some_inj.1 (hc.symm.trans hc')
      obtain rfl := Option.some_inj.1 (ho.symm.trans ho')
      have hsame := (hprio.symm.trans (htouched.priority o)).le
      rw [if_pos rfl] at hsame
      exact (Nat.le_max_right _ _).trans hsame
    · intro hle
      have hnot : ¬ (s.kernel.tcb o).priority < (s.kernel.tcb c).priority :=
        not_lt.2 (hle c o hc ho)
      rw [applyPriorityInheritance, if_neg hnot]
      exact ⟨fun _ => rfl, fun _ => rfl, rfl, rfl, rfl⟩

end Mutex

namespace System

variable {s s' : System} {m n timeout : ℕ} {c o t w : TaskId}

/-! ## What accounts for a priority -/

theorem foldr_max_spec (b : ℕ) (l : List ℕ) :
    b ≤ l.foldr max b ∧ (∀ x ∈ l, x ≤ l.foldr max b) ∧ (l.foldr max b = b ∨ l.foldr max b ∈ l) := by
  induction l with
  | nil => simp
  | cons x l ih =>
    obtain ⟨hb, hl, hatt⟩ := ih
    rw [List.foldr_cons]
    refine ⟨hb.trans (Nat.le_max_right _ _), fun y hy => ?_, ?_⟩
    · rcases List.mem_cons.1 hy with rfl | hy
      · exact Nat.le_max_left _ _
      · exact (hl y hy).trans (Nat.le_max_right _ _)
    · rcases Nat.le_total x (l.foldr max b) with hle | hle
      · rw [Nat.max_eq_right hle]
        exact hatt.imp_right (List.mem_cons_of_mem x)
      · rw [Nat.max_eq_left hle]
        exact .inr List.mem_cons_self

/-- The inherited priority is an upper bound that somebody accounts for. -/
theorem eq_inheritedPriority_iff {p : ℕ} : p = s.inheritedPriority m o ↔
    s.basePriority o ≤ p ∧ (∀ w ∈ s.waiters m, s.priority w ≤ p) ∧
      (p = s.basePriority o ∨ ∃ w ∈ s.waiters m, s.priority w = p) := by
  obtain ⟨hb, hl, hatt⟩ := foldr_max_spec (s.basePriority o) ((s.waiters m).map s.priority)
  rw [List.mem_map] at hatt
  constructor
  · rintro rfl
    exact ⟨hb, fun w hw => hl _ (List.mem_map_of_mem hw), hatt⟩
  · rintro ⟨hb', hl', hatt'⟩
    refine Nat.le_antisymm ?_ ?_
    · rcases hatt' with e | ⟨w, hw, e⟩
      · exact e ▸ hb
      · exact e ▸ hl _ (List.mem_map_of_mem hw)
    · rcases hatt with e | ⟨w, hw, e⟩
      · exact e.trans_le hb'
      · exact e.symm.trans_le (hl' w hw)

/-- It sees the wait list as a set. -/
theorem inheritedPriority_congr (hW : ∀ t, t ∈ s'.waiters m ↔ t ∈ s.waiters m)
    (hprio : ∀ t ∈ s.waiters m, s'.priority t = s.priority t)
    (hbase : s'.basePriority o = s.basePriority o) :
    s'.inheritedPriority m o = s.inheritedPriority m o := by
  obtain ⟨hb, hl, hatt⟩ := eq_inheritedPriority_iff.1 (Eq.refl (s.inheritedPriority m o))
  refine (eq_inheritedPriority_iff.2 ⟨hbase.trans_le hb, fun w hw => ?_, ?_⟩).symm
  · have hw' := (hW w).1 hw
    exact (hprio w hw').trans_le (hl w hw')
  · rw [hbase]
    refine hatt.imp_right fun ⟨w, hw, e⟩ => ⟨w, (hW w).2 hw, ?_⟩
    exact (hprio w hw).trans e

/-! ## Steps -/

theorem Dozing.live_of_mem (h : s.Dozing) (ht : t ∈ s.waiters m) : s.kernel.Live t :=
  (h.mem_waiters.1 ht).1

theorem PriorityExact.of_same (h : s.PriorityExact) (hd : s.Dozing) (hs : s.SameAccount s') :
    s'.PriorityExact := by
  refine ⟨fun t ht hfree => ?_, fun m o ho => ?_⟩
  · rcases hs.born t ht with hold | e
    · rw [(hs.kept t hold).1, (hs.kept t hold).2]
      exact h.free t hold fun m => by rw [← hs.holder m]; exact hfree m
    · exact e
  · have ho' : s.HoldsAlone o m := fun n => by rw [← hs.holder n]; exact ho n
    have hlive := (hd.owner m o ((ho' m).2 rfl)).1
    rw [(hs.kept o hlive).1, h.only m o ho']
    exact (inheritedPriority_congr (hs.waiters m)
      (fun t ht => (hs.kept t (hd.live_of_mem ht)).1) (hs.kept o hlive).2).symm

/-! ### The tick -/

/-- **A tick** leaves the owner of `m` alone the right priority exactly if what it takes away is
accounted for. -/
theorem PriorityExact.tick_iff (h : s.PriorityExact) (hd : s.Dozing) (ho : s.HoldsAlone o m)
    (hs' : s' = { s with kernel := Scheduler.tick s.kernel }) :
    s'.priority o = s'.inheritedPriority m o ↔
      ∀ w ∈ s.waiters m, s.kernel.Expires w → s.priority w ≤ s.basePriority o ∨
        ∃ u ∈ s.waiters m, ¬ s.kernel.Expires u ∧ s.priority w ≤ s.priority u := by
  subst hs'
  obtain ⟨-, hW, hsame⟩ := hd.tick
  obtain ⟨hb, hl, hatt⟩ := eq_inheritedPriority_iff.1 (h.only m o ho)
  have hlive := (hd.owner m o ((ho m).2 rfl)).1
  have hprio : ∀ {t}, s.kernel.Live t →
      ({ s with kernel := Scheduler.tick s.kernel } : System).priority t = s.priority t :=
    fun ht => hsame.priority ht
  have hbase : ({ s with kernel := Scheduler.tick s.kernel } : System).basePriority o =
      s.basePriority o := hsame.basePriority hlive
  rw [eq_inheritedPriority_iff, hprio hlive, hbase]
  constructor
  · rintro ⟨-, -, hatt'⟩ w hw -
    rcases hatt' with e | ⟨u, hu, e⟩
    · exact .inl ((hl w hw).trans e.le)
    · obtain ⟨hu', hexp⟩ := (hW m u).1 hu
      rw [hprio (hd.live_of_mem hu')] at e
      exact .inr ⟨u, hu', hexp, (hl w hw).trans e.ge⟩
  · intro hcond
    refine ⟨hb, fun w hw => ?_, ?_⟩
    · have hw' := ((hW m w).1 hw).1
      rw [hprio (hd.live_of_mem hw')]
      exact hl w hw'
    · rcases hatt with e | ⟨w, hw, e⟩
      · exact .inl e
      · -- the waiter that accounted for the priority goes on waiting, or somebody replaces it
        have hstay : ∀ u ∈ s.waiters m, ¬ s.kernel.Expires u → s.priority u = s.priority o →
            ∃ v ∈ ({ s with kernel := Scheduler.tick s.kernel } : System).waiters m,
              ({ s with kernel := Scheduler.tick s.kernel } : System).priority v = s.priority o :=
          fun u hu hexp e => ⟨u, (hW m u).2 ⟨hu, hexp⟩, (hprio (hd.live_of_mem hu)).trans e⟩
        by_cases hexp : s.kernel.Expires w
        · rcases hcond w hw hexp with hle | ⟨u, hu, hexp', hle⟩
          · exact .inl (Nat.le_antisymm (e.symm.trans_le hle) hb)
          · exact .inr (hstay u hu hexp' (Nat.le_antisymm (hl u hu) (e.symm.trans_le hle)))
        · exact .inr (hstay w hw hexp e)

theorem PriorityExact.tick (h : s.PriorityExact) (hd : s.Dozing)
    (hs' : s' = { s with kernel := Scheduler.tick s.kernel })
    (hcond : s.TickAccounted (.call (.api (.sched .tick)))) : s'.PriorityExact := by
  refine ⟨fun t ht hfree => ?_, fun m o ho => ?_⟩
  · subst hs'
    have hsame := hd.tick.2.2
    rcases hsame.born t ht with hold | ⟨p, -, e⟩
    · exact (hsame.priority hold).trans ((h.free t hold hfree).trans (hsame.basePriority hold).symm)
    · exact (Prod.mk.inj e).1.trans (Prod.mk.inj e).2.symm
  · subst hs'
    have ho' : s.HoldsAlone o m := fun n => ho n
    exact (h.tick_iff hd ho' rfl).2 fun w hw hexp => hcond rfl m o w ho' hw hexp

/-! ### The mutexes -/

/-- The owner is raised to the priority of the caller, which joins the wait list. -/
theorem PriorityExact.boost (h : s.PriorityExact) (hd : s.Dozing)
    (howner : ∀ n, s'.holderOf n = s.holderOf n)
    (hlive : ∀ t, s'.kernel.Live t ↔ s.kernel.Live t)
    (hprio : ∀ u, s'.priority u = if u = o then max (s.priority o) (s.priority c) else s.priority u)
    (hbase : ∀ u, s.kernel.Live u → s'.basePriority u = s.basePriority u)
    (hW : ∀ n t, t ∈ s'.waiters n ↔ t ∈ s.waiters n ∨ n = m ∧ t = c)
    (ho : s.holderOf m = some o) (hoc : o ≠ c)
    (hcond : s.priority o < s.priority c → ∀ n p, o ∈ s.waiters n → s.HoldsAlone p n →
      s.priority c ≤ s.priority p) : s'.PriorityExact := by
  have hc : s'.priority c = s.priority c := by rw [hprio, if_neg (Ne.symm hoc)]
  refine ⟨fun t ht hfree => ?_, fun n p hp => ?_⟩
  · have hto : t ≠ o := by
      rintro rfl
      exact hfree m ((howner m).trans ho)
    have ht' := (hlive t).1 ht
    rw [hprio, if_neg hto, hbase t ht']
    exact h.free t ht' fun n => by rw [← howner n]; exact hfree n
  · have hp' : s.HoldsAlone p n := fun l => by rw [← howner l]; exact hp l
    have hplive := (hd.owner n p ((hp' n).2 rfl)).1
    obtain ⟨hb, hl, hatt⟩ := eq_inheritedPriority_iff.1 (h.only n p hp')
    rw [eq_inheritedPriority_iff, hbase p hplive]
    by_cases hpo : p = o
    · -- the owner itself: it has what it had, or the priority of the caller
      subst hpo
      obtain rfl : m = n := (hp' m).1 ho
      rw [hprio p, if_pos rfl]
      refine ⟨hb.trans (Nat.le_max_left _ _), fun w hw => ?_, ?_⟩
      · rw [hprio w]
        split
        · exact Nat.le_refl _
        · rcases (hW m w).1 hw with hw | ⟨-, rfl⟩
          · exact (hl w hw).trans (Nat.le_max_left _ _)
          · exact Nat.le_max_right _ _
      · rcases Nat.le_total (s.priority c) (s.priority p) with hle | hle
        · rw [Nat.max_eq_left hle]
          refine hatt.imp_right fun ⟨w, hw, e⟩ => ⟨w, (hW m w).2 (.inl hw), ?_⟩
          rw [hprio w]
          split
          · exact Nat.max_eq_left hle
          · exact e
        · rw [Nat.max_eq_right hle]
          exact .inr ⟨c, (hW m c).2 (.inr ⟨rfl, rfl⟩), hc⟩
    · have hnm : n ≠ m := by
        rintro rfl
        exact hpo (Option.some_inj.1 (((hp' n).2 rfl).symm.trans ho))
      have hW' : ∀ t, t ∈ s'.waiters n ↔ t ∈ s.waiters n := fun t => by simp [hW, hnm]
      rw [hprio p, if_neg hpo]
      refine ⟨hb, fun w hw => ?_, ?_⟩
      · have hw' := (hW' w).1 hw
        rw [hprio w]
        split
        · next hwo =>
          subst hwo
          rcases Nat.lt_or_ge (s.priority w) (s.priority c) with hlt | hge
          · exact Nat.max_le.2 ⟨hl w hw', hcond hlt n p hw' hp'⟩
          · exact Nat.max_le.2 ⟨hl w hw', hge.trans (hl w hw')⟩
        · exact hl w hw'
      · refine hatt.imp_right fun ⟨w, hw, e⟩ => ⟨w, (hW' w).2 hw, ?_⟩
        rw [hprio w]
        split
        · next hwo =>
          subst hwo
          rcases Nat.lt_or_ge (s.priority w) (s.priority c) with hlt | hge
          · have hle := hcond hlt n p hw hp'
            omega
          · rw [Nat.max_eq_left hge, e]
        · exact e

theorem PriorityExact.acquire (h : s.PriorityExact) (hd : s.Dozing) (hc : s.kernel.Live c)
    (ho : s.holderOf m = none) {x : Mutex} (hx : (s.setMutex m x).holderOf m = some c) :
    (s.setMutex m x).PriorityExact := by
  have hother : ∀ n, n ≠ m → (s.setMutex m x).holderOf n = s.holderOf n := fun n hn =>
    holderOf_setMutex_of_ne x hn
  refine ⟨fun t ht hfree => h.free t ht fun n hn => ?_, fun n p hp => ?_⟩
  · have hnm : n ≠ m := by
      rintro rfl
      exact absurd (ho.symm.trans hn) (by simp)
    exact hfree n ((hother n hnm).trans hn)
  · by_cases hpc : p = c
    · subst hpc
      obtain rfl : m = n := (hp m).1 hx
      -- the caller held no mutex, and nobody waits for this one
      have hnone : ∀ l, s.holderOf l ≠ some p := by
        intro l hl
        by_cases hlm : l = m
        · subst hlm
          exact absurd (ho.symm.trans hl) (by simp)
        · exact hlm ((hp l).1 ((hother l hlm).trans hl))
      have hW : (s.setMutex m x).waiters m = [] := hd.free m ho
      rw [inheritedPriority_of_nil hW]
      exact h.free p hc hnone
    · refine h.only n p fun l => ?_
      by_cases hlm : l = m
      · subst hlm
        have hln : l ≠ n := by
          rintro rfl
          exact hpc (Option.some_inj.1 (((hp l).2 rfl).symm.trans hx))
        simp [ho, hln]
      · rw [← hother l hlm]
        exact hp l

end System

/-- A lock that finds another owner waits, if it is to wait and the scheduler runs. -/
theorem Mutex.lock_snd_of_other {s : System} {m timeout : ℕ} {c o : TaskId}
    (hmagic : (s.mutexes m).magic = mutexMagicWord) (hc : s.kernel.currentTcb = some c)
    (ho : (s.mutexes m).owner = some o) (hoc : o ≠ c) (ht : timeout ≠ noWait)
    (hrun : s.kernel.isRunning = true) : (lock s m timeout).2 = none := by
  have hframe := applyPriorityInheritance_frame s.kernel o c
  have hrun' : (applyPriorityInheritance s.kernel o c).isRunning = true := by
    rw [hframe]
    exact hrun
  have hc' : (applyPriorityInheritance s.kernel o c).currentTcb = some c := by
    rw [hframe]
    exact hc
  simp only [lock, hmagic, ne_eq, not_true_eq_false, if_false, hc, lockSection_of_other ho hoc, ht,
    waitListBlock, hrun', hc']

namespace System

variable {s s' : System} {m n timeout : ℕ} {c o t w : TaskId}

theorem PriorityExact.lock (h : s.PriorityExact) (hd : s.Dozing) (hawake : s.CallerAwake)
    (hcond : s.CallAccounted (.call (.api (.lock m timeout)))) :
    (Mutex.lock s m timeout).1.PriorityExact := by
  by_cases hv : (s.mutexes m).magic = mutexMagicWord
  swap
  · rw [Mutex.lock, if_pos hv]
    exact h
  have hsnd : ∀ {c o}, s.kernel.currentTcb = some c → (s.mutexes m).owner = some o → o ≠ c →
      timeout ≠ noWait → s.kernel.isRunning = true → (Mutex.lock s m timeout).2 = none :=
    Mutex.lock_snd_of_other hv
  have he := Mutex.lock_effect s m timeout
  generalize Mutex.lock s m timeout = r at he hsnd ⊢
  cases he with
  | invalid => exact h
  | noTask => exact h
  | @acquire c hc ho =>
    exact h.acquire hd (hawake c hc).1 ((holderOf_of_valid hv).trans ho) (holderOf_setMutex_same hv)
  | @again c hc ho =>
    exact h.of_same hd (.of_same (holderOf_setMutex_of_eq rfl fun _ => rfl) (fun _ _ => Iff.rfl)
      (.refl _))
  | @fail c o _ hc ho hoc =>
    have hle := (hcond c o hc (holderOf_eq_some.2 ⟨hv, ho⟩) hoc).fails (by
      by_contra hcon
      obtain ⟨ht, hrun⟩ := not_or.1 hcon
      exact absurd (hsnd hc ho hoc ht (not_not.1 hrun)) (by simp))
    have hnot : ¬ (s.kernel.tcb o).priority < (s.kernel.tcb c).priority := not_lt.2 hle
    rw [Mutex.applyPriorityInheritance, if_neg hnot]
    exact h
  | @wait c o hc ho hoc =>
    refine h.boost hd (c := c) (o := o) (m := m) (fun _ => rfl) (fun t => ?_) (fun u => ?_)
      (fun u hu => ?_) (fun n t => ?_) (holderOf_eq_some.2 ⟨hv, ho⟩) hoc
      (hcond c o hc (holderOf_eq_some.2 ⟨hv, ho⟩) hoc).waits
    · rw [setPc_kernel, Kernel.Live, switchContext_frame]
      exact (Kernel.waitListBlockSection_live _ _ _ _ t).trans
        (by rw [Kernel.Live, Kernel.Live, Mutex.applyPriorityInheritance_frame])
    · rw [priority, setPc_kernel, switchContext_priority, Kernel.waitListBlockSection_priority]
      exact Mutex.applyPriorityInheritance_priority s.kernel u o c
    · have hlive : (Mutex.applyPriorityInheritance s.kernel o c).Live u := by
        rw [Kernel.Live, Mutex.applyPriorityInheritance_frame]
        exact hu
      have hsame :=
        (Kernel.SamePriorities.waitListBlockSection (c := c) (W := .mutex m) timeout).trans
        Kernel.SamePriorities.switchContext (k := Mutex.applyPriorityInheritance s.kernel o c)
      refine (hsame.basePriority hlive).trans ?_
      rw [Mutex.applyPriorityInheritance_tcb]
      rfl
    · rw [waiters, setPc_kernel, switchContext_waitLists,
        mem_waiters_block { s with kernel := Mutex.applyPriorityInheritance s.kernel o c }]
      simp only [waiters, Mutex.applyPriorityInheritance_waitLists]

/-- The task `t` gets the priority `q`, which is right for the task that keeps it waiting. -/
theorem PriorityExact.keepsWaiting (h : s.PriorityExact) {p : TaskId} {q : ℕ}
    (hacc : s.WaiterAccounted t q) (hp : s.HoldsAlone p n) (hpt : p ≠ t)
    (hW : ∀ u, u ∈ s'.waiters n ↔ u ∈ s.waiters n)
    (hprio : ∀ u, u ∈ s.waiters n ∨ u = p → s'.priority u = if u = t then q else s.priority u)
    (hbase : s'.basePriority p = s.basePriority p) : s'.priority p = s'.inheritedPriority n p := by
  obtain ⟨hb, hl, hatt⟩ := eq_inheritedPriority_iff.1 (h.only n p hp)
  rw [eq_inheritedPriority_iff, hprio p (.inr rfl), if_neg hpt, hbase]
  refine ⟨hb, fun w hw => ?_, ?_⟩
  · have hw' := (hW w).1 hw
    rw [hprio w (.inl hw')]
    split
    · next hwt => exact (hacc n p (hwt ▸ hw') hp).1
    · exact hl w hw'
  · -- whoever accounted for the priority of `p` still does, or is replaced
    have hstay : ∀ u ∈ s.waiters n, u ≠ t → s.priority u = s.priority p →
        ∃ v ∈ s'.waiters n, s'.priority v = s.priority p := fun u hu hut e =>
      ⟨u, (hW u).2 hu, by rw [hprio u (.inl hu), if_neg hut, e]⟩
    rcases hatt with hpb | ⟨w, hw, hwp⟩
    · exact .inl hpb
    · by_cases hwt : w = t
      · subst hwt
        obtain ⟨hle, hcase⟩ := hacc n p hw hp
        rcases hcase with hge | e | ⟨u, hu, hut, e⟩
        · refine .inr ⟨w, (hW w).2 hw, ?_⟩
          rw [hprio w (.inl hw), if_pos rfl]
          exact Nat.le_antisymm hle (hwp.symm.trans_le hge)
        · exact .inl e
        · exact .inr (hstay u hu hut e)
      · exact .inr (hstay w hw hwt hwp)

/-- The mutex `m` changes hands or is gone, and `c`, which held it, gets the priority that `m` has
recorded. -/
theorem PriorityExact.handOver (h : s.PriorityExact) (hd : s.Dozing) (hc : s.holderOf m = some c)
    (hrecord : s.RecordAccounted m c)
    (hwaiter : s.WaiterAccounted c (s.mutexes m).originalOwnerPriority)
    (hlive : ∀ t, s'.kernel.Live t ↔ s.kernel.Live t)
    (hholder : ∀ n, n ≠ m → s'.holderOf n = s.holderOf n)
    (hwaiters : ∀ n, n ≠ m → ∀ t, t ∈ s'.waiters n ↔ t ∈ s.waiters n)
    (hprio : ∀ t, s.kernel.Live t → s'.priority t =
      if t = c then (s.mutexes m).originalOwnerPriority else s.priority t)
    (hbase : ∀ t, s.kernel.Live t → s'.basePriority t = s.basePriority t)
    (hnew : ∀ p, s'.HoldsAlone p m → s'.priority p = s'.inheritedPriority m p) :
    s'.PriorityExact := by
  refine ⟨fun t ht hfree => ?_, fun n p hp => ?_⟩
  · have ht' := (hlive t).1 ht
    rw [hprio t ht', hbase t ht']
    split
    · next htc =>
      subst htc
      refine hrecord.last fun l => ⟨fun hl => ?_, fun e => e ▸ hc⟩
      by_contra hlm
      exact hfree l ((hholder l hlm).trans hl)
    · next htc =>
      refine h.free t ht' fun l hl => ?_
      by_cases hlm : l = m
      · subst hlm
        exact htc (Option.some_inj.1 (hl.symm.trans hc))
      · exact hfree l ((hholder l hlm).trans hl)
  · by_cases hnm : n = m
    · subst hnm
      exact hnew p hp
    · have hplive := (hd.owner n p ((hholder n hnm).symm.trans ((hp n).2 rfl))).1
      have hprio' : ∀ u, u ∈ s.waiters n ∨ u = p → s'.priority u =
          if u = c then (s.mutexes m).originalOwnerPriority else s.priority u := fun u hu =>
        hprio u (hu.elim hd.live_of_mem fun e => e ▸ hplive)
      by_cases hpc : p = c
      · -- the task that held `m` still holds `n`
        subst hpc
        obtain ⟨hb, hl, hatt⟩ := eq_inheritedPriority_iff.1 (hrecord.kept n hnm fun l => by
          by_cases hlm : l = m
          · simp [hlm, hc]
          · rw [← hholder l hlm, hp l]
            simp [hlm])
        rw [eq_inheritedPriority_iff, hprio' p (.inr rfl), if_pos rfl, hbase p hplive]
        refine ⟨hb, fun w hw => ?_, hatt.imp_right fun ⟨w, hw, e⟩ =>
          ⟨w, (hwaiters n hnm w).2 hw, ?_⟩⟩
        · have hw' := (hwaiters n hnm w).1 hw
          rw [hprio' w (.inl hw')]
          split
          · exact Nat.le_refl _
          · exact hl w hw'
        · rw [hprio' w (.inl hw), e]
          simp
      · refine h.keepsWaiting hwaiter (fun l => ?_) hpc (hwaiters n hnm) hprio' (hbase p hplive)
        by_cases hlm : l = m
        · subst hlm
          have hne : c ≠ p := Ne.symm hpc
          simp [hc, hne, Ne.symm hnm]
        · rw [← hholder l hlm]
          exact hp l

theorem PriorityExact.release (h : s.PriorityExact) (hd : s.Dozing) (hr : s.Releases m c)
    (hc : ∀ n, c ∉ s.waiters n) (hcond : s.UnlockAccounted m c) {k : Kernel} {x : Mutex}
    (hrel : s.Released m c k x) :
    (({ s with kernel := k } : System).setMutex m x).PriorityExact := by
  have hown : s.holderOf m = some c := holderOf_eq_some.2 ⟨hr.1, hr.2.2.1⟩
  generalize hs' : (({ s with kernel := k } : System).setMutex m x) = s'
  have hother : ∀ n, n ≠ m → s'.holderOf n = s.holderOf n := fun n hn => by
    rw [← hs', holderOf_setMutex_of_ne x hn]
    rfl
  have hnew : s'.holderOf m = (s.waiters m).head? := by
    rw [← hs', holderOf_setMutex_same hrel.magic, hrel.owner]
  have hprio : ∀ t, s'.priority t =
      if t = c then (s.mutexes m).originalOwnerPriority else s.priority t := fun t => by
    rw [← hs', priority, setMutex_kernel, hrel.priority]
  have hbase : ∀ t, s'.basePriority t = s.basePriority t := fun t => by
    rw [← hs']
    exact hrel.basePriority t
  refine h.handOver hd hown hcond.toRecordAccounted (fun n p hn => absurd hn (hc n)) (fun t => ?_)
    hother (fun n hn t => ?_) (fun t _ => hprio t) (fun t _ => hbase t) fun p hp => ?_
  · rw [← hs', setMutex_kernel, Kernel.Live, Kernel.Live, hrel.registry]
  · rw [← hs', show (({ s with kernel := k } : System).setMutex m x).waiters n = s.waiters n from
      hrel.other n hn]
  · -- the first waiter has got the mutex
    have hpo := hnew.symm.trans ((hp m).2 rfl)
    have hpw := List.mem_of_mem_head? hpo
    have hne : ∀ {u}, u ∈ s.waiters m → u ≠ c := fun hu e => hc m (e ▸ hu)
    have hnone : ∀ l, s.holderOf l ≠ some p := by
      intro l hl
      by_cases hlm : l = m
      · subst hlm
        exact hne hpw (Option.some_inj.1 (hl.symm.trans hown))
      · exact hlm ((hp l).1 ((hother l hlm).trans hl))
    have hpb := h.free p (hd.live_of_mem hpw) hnone
    rw [eq_inheritedPriority_iff, hprio, if_neg (hne hpw), hbase]
    refine ⟨hpb.ge, fun w hw => ?_, .inl hpb⟩
    have hw' : w ∈ s.waiters m := by
      rw [← hs'] at hw
      exact List.mem_of_mem_tail (hrel.rest ▸ hw)
    rw [hprio, if_neg (hne hw')]
    exact hcond.first p hpo hnone w hw'

theorem PriorityExact.unlock (h : s.PriorityExact) (hd : s.Dozing) (hawake : s.CallerAwake)
    (hcond : s.CallAccounted (.call (.api (.unlock m)))) : (Mutex.unlock s m).1.PriorityExact := by
  by_cases hv : (s.mutexes m).magic = mutexMagicWord
  swap
  · rw [Mutex.unlock, if_pos hv]
    exact h
  by_cases hfull : ∃ c, s.FullRelease m c
  · obtain ⟨c, hr⟩ := hfull
    obtain ⟨k, x, e, hrel⟩ := FullRelease.released hr hv
      (fun t ht => hd.waiters.linked _ t ht) fun n t ht ht' =>
        WaitList.mutex.inj (Option.some_inj.1 ((hd.mem_waiters.1 ht').2.symm.trans
          (hd.mem_waiters.1 ht).2))
    rw [e]
    exact h.release hd ⟨hv, hr⟩ (hd.notMem_waiters (hawake c hr.1).2.1) (hcond c ⟨hv, hr⟩) hrel
  · rcases unlock_cases_of_not_fullRelease hfull with e | e <;> rw [e]
    · exact h
    · exact h.of_same hd (.of_same (holderOf_setMutex_of_eq rfl fun _ => rfl) (fun _ _ => Iff.rfl)
        (.refl _))

theorem PriorityExact.deleteMutex (h : s.PriorityExact) (hd : s.Dozing)
    (hcond : s.CallAccounted (.deleteMutex m)) : (Mutex.delete s m).1.PriorityExact := by
  by_cases hv : (s.mutexes m).magic = mutexMagicWord
  swap
  · rw [Mutex.delete, if_pos hv]
    exact h
  obtain ⟨hd', hgone, hholder, hwaiters, hlive, hbase, hprio⟩ := hd.deleteMutex hv
  cases ho : s.holderOf m with
  | none =>
    refine h.of_same hd ⟨fun n => ?_, fun n t => ?_, fun t ht => ⟨?_, hbase t ht⟩, fun t ht =>
      .inl ((hlive t).1 ht)⟩
    · by_cases hn : n = m
      · rw [hn, hgone, ho]
      · exact hholder n hn
    · by_cases hn : n = m
      · rw [hn, hd.free m ho, hd'.free m hgone]
      · exact hwaiters n hn t
    · rw [hprio t ht, ho]
      simp
  | some o =>
    obtain ⟨hrecord, hwaiter⟩ := hcond o ho
    refine h.handOver hd ho hrecord hwaiter hlive hholder hwaiters (fun t ht => ?_) hbase
      fun p hp => absurd (hgone.symm.trans ((hp m).2 rfl)) (by simp)
    rw [hprio t ht, ho]
    simp [eq_comm]

/-! ### Priorities that are set -/

theorem PriorityExact.set (h : s.PriorityExact) (hd : s.Dozing) {handle : Option TaskId} {p : ℕ}
    (hcond : s.CallAccounted (.call (.setPriority handle p))) :
    ((PriorityCall.setPriority handle p).run s).PriorityExact := by
  have hlive := (hd.set handle p).2
  rcases Task.setPriority_cases s.kernel s.kernel.taskMagic handle p with ⟨-, e⟩ | ⟨t, ht, -, -, e⟩
  · rw [PriorityCall.run, e]
    exact h
  · have hset : (PriorityCall.setPriority handle p).sets s t = some p := by
      simp [PriorityCall.sets, ht, e]
    obtain ⟨-, hwaiters, hprio, hbase, hother⟩ := PriorityCall.run_of_sets hset
    have hacc := hcond t p hset
    have hholder : ∀ m, ((PriorityCall.setPriority handle p).run s).holderOf m = s.holderOf m :=
      fun _ => rfl
    generalize (PriorityCall.setPriority handle p).run s = s' at *
    refine ⟨fun u hu hfree => ?_, fun n o ho => ?_⟩
    · by_cases hut : u = t
      · rw [hut, hprio, hbase]
      · rw [(hother u hut).1, (hother u hut).2]
        exact h.free u ((hlive u).1 hu) fun m => by rw [← hholder]; exact hfree m
    · have ho' : s.HoldsAlone o n := fun l => by rw [← hholder]; exact ho l
      by_cases hot : o = t
      · subst hot
        rw [eq_inheritedPriority_iff]
        simp only [hwaiters]
        rw [hprio, hbase]
        refine ⟨Nat.le_refl p, fun w hw => ?_, .inl rfl⟩
        by_cases hwo : w = o
        · rw [hwo, hprio]
        · rw [(hother w hwo).1]
          exact hacc.holder n ho' w hw
      · refine h.keepsWaiting hacc.waiter ho' hot (fun u => by rw [hwaiters]) (fun u _ => ?_)
          (hother o hot).2
        split
        · next hut => rw [hut, hprio]
        · next hut => exact (hother u hut).1

/-! ### Runs -/

theorem PriorityExact.call (h : s.PriorityExact) (hd : s.Dozing) {a : PriorityCall}
    (ha : a.Allowed s) (horder : s.CallInOrder (.call a)) (htick : s.TickAccounted (.call a)) :
    (a.run s).PriorityExact := by
  obtain ⟨hawake, hcall⟩ := horder
  cases a with
  | setPriority handle p => exact h.set hd hcall
  | api a =>
    cases a with
    | sched a =>
      by_cases hat : a = .tick
      · subst hat
        exact h.tick hd rfl htick
      · by_cases hb : ∃ c, a.Blocks s.kernel c
        · obtain ⟨c, hb⟩ := hb
          have hc := hawake (PriorityCall.byTask_of_blocks hb)
          exact h.of_same hd (hd.sched_lull ha.1 ha.2 hb hc).2
        · exact h.of_same hd (hd.sched_rouse ha.1 ha.2 (not_exists.1 hb) hat).2
    | dispatch t =>
      exact h.of_same hd (.of_same (fun _ => rfl) (fun _ _ => Iff.rfl) (.of_eq rfl fun _ => rfl))
    | lock m timeout => exact h.lock hd (hawake trivial) hcall
    | resume =>
      obtain ⟨c, m, timeout, hc, hpc, e⟩ := Api.returned_cases ha
      rw [PriorityCall.run, e]
      exact h.of_same hd (hd.lockResume hpc (hawake trivial c hc).2.1).2
    | unlock m => exact h.unlock hd (hawake trivial) hcall

/-- **A call that is accounted for** keeps the priorities exact. -/
theorem PriorityExact.step (h : s.PriorityExact) (hd : s.Dozing) {a : SystemOp}
    (hs : SystemOp.Step s a s') (horder : s.CallInOrder a) (htick : s.TickAccounted a) :
    s'.PriorityExact := by
  obtain ⟨ha, rfl⟩ := hs
  cases a with
  | call a => exact h.call hd ha horder htick
  | suspend handle => exact h.of_same hd (hd.suspend handle).2
  | resume handle => exact h.of_same hd (hd.resume handle).2
  | delete handle => exact h.of_same hd (hd.delete fun t ht hlive => (horder.1 t ht hlive).2).2
  | deleteMutex m => exact h.deleteMutex hd horder.2

theorem PriorityExact.undoesBoost_iff (h : s.PriorityExact) (hd : s.Dozing) {a : SystemOp}
    (hs : SystemOp.Step s a s') : s.UndoesBoost a s' ↔ s.TickAccounted a := by
  obtain ⟨-, rfl⟩ := hs
  constructor
  · rintro hundo rfl m o w ho hw hexp
    have hgone := fun hw' => ((hd.tick.2.1 m w).1 hw').2 hexp
    exact (h.tick_iff hd ho rfl).1 (hundo rfl m o w ho hw hgone) w hw hexp
  · rintro hcond rfl m o w ho - -
    exact (h.tick_iff hd ho rfl).2 fun v hv hexp => hcond rfl m o v ho hv hexp

theorem priorityExact_init (mem : Kernel) (config : Option Config) (idleStack : ℕ)
    (sems : ℕ → Semaphore) :
    (System.init (initWithConfig mem config idleStack).1 sems).PriorityExact := by
  refine ⟨fun t ht _ => ?_, fun m o ho => ?_⟩
  · obtain ⟨p, -, e⟩ := initWithConfig_priorityFields ht
    exact (Prod.mk.inj e).1.trans (Prod.mk.inj e).2.symm
  · exact absurd ((ho m).2 rfl) (by simp [holderOf, System.init, Mutex.fresh])

/-- **When a failed lock leaves no trace.**  A lock without waiting that returns `ERROR_TIMEOUT`
leaves everything as it was exactly if its caller has no higher priority than the owner.  And take
any run of calls of the scheduler, the mutexes and the tasks, with any timeouts and deletions, in
which each call other than a tick is in place and keeps the accounts: after every tick the owner of
a mutex that some task has just stopped waiting for has the priority that the remaining ones account
for exactly if every tick is accounted for, and then all priorities are exact in every state of the
run. -/
theorem failed_lock_undone_iff (mem : Kernel) (config : Option Config) (idleStack : ℕ)
    (sems : ℕ → Semaphore) (steps : List SystemOp) (s : System) :
    (∀ x m, (Mutex.lock x m noWait).2 = some .errorTimeout →
      (x.Untouched m (Mutex.lock x m noWait).1 ↔
        ∀ c o, x.kernel.currentTcb = some c → (x.mutexes m).owner = some o →
          x.priority c ≤ x.priority o)) ∧
    (Trace.AllSteps SystemOp.Step (fun s a _ => s.CallInOrder a)
        (System.init (initWithConfig mem config idleStack).1 sems) steps s →
      (Trace.AllSteps SystemOp.Step UndoesBoost
          (System.init (initWithConfig mem config idleStack).1 sems) steps s ↔
        Trace.AllSteps SystemOp.Step (fun s a _ => s.TickAccounted a)
          (System.init (initWithConfig mem config idleStack).1 sems) steps s) ∧
      (Trace.AllSteps SystemOp.Step (fun s a _ => s.TickAccounted a)
          (System.init (initWithConfig mem config idleStack).1 sems) steps s →
        Trace.AllStates SystemOp.Step PriorityExact
          (System.init (initWithConfig mem config idleStack).1 sems) steps s)) := by
  refine ⟨fun x m h => Mutex.lock_noWait_untouched_iff h, fun hcall => ?_⟩
  have hinit : (System.init (initWithConfig mem config idleStack).1 sems).Dozing ∧
      (System.init (initWithConfig mem config idleStack).1 sems).PriorityExact :=
    ⟨dozing_init mem config idleStack sems, priorityExact_init mem config idleStack sems⟩
  have hstep : ∀ s a s', s.Dozing ∧ s.PriorityExact → SystemOp.Step s a s' →
      s.CallInOrder a ∧ s.TickAccounted a → s'.Dozing ∧ s'.PriorityExact :=
    fun s a s' hI hs hC => ⟨hI.1.step hs hC.1.1, hI.2.step hI.1 hs hC.1 hC.2⟩
  have hiff : Trace.AllSteps SystemOp.Step
        (fun s a s' => s.CallInOrder a ∧ s.UndoesBoost a s')
        (System.init (initWithConfig mem config idleStack).1 sems) steps s ↔
      Trace.AllSteps SystemOp.Step (fun s a _ => s.CallInOrder a ∧ s.TickAccounted a)
        (System.init (initWithConfig mem config idleStack).1 sems) steps s :=
    Trace.allSteps_iff hstep
      (fun s a s' hI hs => and_congr_right fun _ => hI.2.undoesBoost_iff hI.1 hs) hinit
  refine ⟨⟨fun h => ?_, fun h => ?_⟩, fun h => ?_⟩
  · exact (hiff.1 (hcall.and h)).mono fun _ _ _ hC => hC.2
  · exact (hiff.2 (hcall.and h)).mono fun _ _ _ hD => hD.2
  · have hall := (hcall.and h).invariant hstep hinit
    exact fun bs cs t hsplit h1 h2 => (hall bs cs t hsplit h1 h2).2

/-- Task 1, of priority 3, locks the mutex; task 2, of priority 2, waits for it for one tick and is
then suspended.  Another mutex is deleted. -/
def briefWaiter : List SystemOp :=
  [.call (.api (.sched (.create (.ofPriority 3) 1))),
    .call (.api (.sched (.create (.ofPriority 2) 2))), .call (.api (.sched (.start .ok))),
    .call (.api (.lock 0 waitForever)), .call (.api (.dispatch 2)), .call (.api (.lock 0 1)),
    .call (.api (.sched .tick)), .suspend (some 2), .deleteMutex 1]

/-- With a waiter of lower priority a failed lock leaves no trace, whether it waits or not. -/
theorem failed_lock_undone_iff_brief :
    ((briefWaiter.take 5).foldl SystemOp.run freshSystem).Untouched 0
      (Mutex.lock ((briefWaiter.take 5).foldl SystemOp.run freshSystem) 0 noWait).1 ∧
    ((briefWaiter.take 6).foldl SystemOp.run freshSystem).waiters 0 = [2] ∧
    ((briefWaiter.take 7).foldl SystemOp.run freshSystem).waiters 0 = [] ∧
    Trace.AllSteps SystemOp.Step UndoesBoost freshSystem briefWaiter
      (briefWaiter.foldl SystemOp.run freshSystem) := by
  have hfree : ((briefWaiter.take 3).foldl SystemOp.run freshSystem).holderOf 0 = none := by
    decide +kernel
  have hcur : ((briefWaiter.take 5).foldl SystemOp.run freshSystem).kernel.currentTcb = some 2 := by
    decide +kernel
  have hown : (((briefWaiter.take 5).foldl SystemOp.run freshSystem).mutexes 0).owner = some 1 := by
    decide +kernel
  have hlow : ((briefWaiter.take 5).foldl SystemOp.run freshSystem).priority 2 ≤
      ((briefWaiter.take 5).foldl SystemOp.run freshSystem).priority 1 := by decide +kernel
  have hwaiters : ((briefWaiter.take 6).foldl SystemOp.run freshSystem).waiters 0 = [2] := by
    decide +kernel
  have hown' : ((briefWaiter.take 6).foldl SystemOp.run freshSystem).holderOf 0 = some 1 := by
    decide +kernel
  have hbase : ((briefWaiter.take 6).foldl SystemOp.run freshSystem).priority 2 ≤
      ((briefWaiter.take 6).foldl SystemOp.run freshSystem).basePriority 1 := by decide +kernel
  have hready : (((briefWaiter.take 7).foldl SystemOp.run freshSystem).kernel.tcb 2).state =
      .ready := by decide +kernel
  have hother : ((briefWaiter.take 8).foldl SystemOp.run freshSystem).holderOf 1 = none := by
    decide +kernel
  have hle :
      ∀ c o, ((briefWaiter.take 5).foldl SystemOp.run freshSystem).kernel.currentTcb = some c →
      (((briefWaiter.take 5).foldl SystemOp.run freshSystem).mutexes 0).owner = some o →
      ((briefWaiter.take 5).foldl SystemOp.run freshSystem).priority c ≤
        ((briefWaiter.take 5).foldl SystemOp.run freshSystem).priority o := by
    intro c o hc ho
    obtain rfl := Option.some_inj.1 (hcur.symm.trans hc)
    obtain rfl := Option.some_inj.1 (hown.symm.trans ho)
    exact hlow
  have h := failed_lock_undone_iff bss none 0 (fun _ => ⟨0, 1, semMagicWord⟩) briefWaiter
    (briefWaiter.foldl SystemOp.run freshSystem)
  have htick : ∀ {s : System} {a : SystemOp}, a ≠ .call (.api (.sched .tick)) → s.TickAccounted a :=
    fun hne e => absurd e hne
  have hawake : Guards (fun s a => PriorityCall.FromAwake s a) PriorityCall.run freshSystem
      [.api (.sched (.create (.ofPriority 3) 1)), .api (.sched (.create (.ofPriority 2) 2)),
        .api (.sched (.start .ok)), .api (.lock 0 waitForever), .api (.dispatch 2),
        .api (.lock 0 1), .api (.sched .tick)] := by decide +kernel
  obtain ⟨h1, h2, h3, h4, h5, h6, h7, -⟩ := hawake
  refine ⟨(h.1 _ 0 (by decide +kernel)).2 hle, hwaiters, by decide +kernel,
    (h.2 (Trace.allSteps_of_guards
      ⟨⟨h1, trivial⟩, ⟨h2, trivial⟩, ⟨h3, trivial⟩, ⟨h4, fun c o _ ho _ => ?_⟩, ⟨h5, trivial⟩,
        ⟨h6, fun c o hc ho _ => ?_⟩, ⟨h7, trivial⟩, ⟨fun t ht _ => ?_, trivial⟩,
        ⟨trivial, fun o ho => ?_⟩, trivial⟩)).1.2 (Trace.allSteps_of_guards
      ⟨htick (by simp), htick (by simp), htick (by simp), htick (by simp), htick (by simp),
        htick (by simp), fun _ m o w ho hw _ => ?_, htick (by simp), htick (by simp), trivial⟩)⟩
  · exact absurd (hfree.symm.trans ho) (by simp)
  · have hco := hle c o hc (holderOf_eq_some.1 ho).2
    exact ⟨fun _ => hco, fun hlt => absurd hlt (not_lt.2 hco)⟩
  · obtain rfl := Option.some_inj.1 ht
    have hstate : ((((briefWaiter.take 7).foldl SystemOp.run freshSystem).kernel.tcb 2).state ≠
        .running) ∧ (((briefWaiter.take 7).foldl SystemOp.run freshSystem).kernel.tcb 2).state ≠
        .blocked := by
      rw [hready]
      exact ⟨by simp, by simp⟩
    exact hstate
  · exact absurd (hother.symm.trans ho) (by simp)
  · have hm : m = 0 := by
      cases m with
      | zero => rfl
      | succ m => exact absurd (show none = some o from (ho (m + 1)).2 rfl) (by simp)
    subst hm
    obtain rfl := Option.some_inj.1 (hown'.symm.trans ((ho 0).2 rfl))
    have hw' : w ∈ ((briefWaiter.take 6).foldl SystemOp.run freshSystem).waiters 0 := hw
    rw [hwaiters] at hw'
    obtain rfl := List.mem_singleton.1 hw'
    exact .inl hbase

/-- Task 1, of priority 1, locks the mutex; task 2, of priority 5, preempts it and waits for the
mutex for one tick. -/
def urgentWaiter : List SystemOp :=
  [.call (.api (.sched (.create (.ofPriority 1) 1))), .call (.api (.sched (.start .ok))),
    .call (.api (.lock 0 waitForever)), .call (.api (.sched (.create (.ofPriority 5) 2))),
    .call (.api (.lock 0 1)), .call (.api (.sched .tick))]

/-- **The owner stays raised.**  A lock without waiting by task 2 fails and leaves task 1 with
priority 5; and so does a lock with a timeout of one tick, when the tick has come and nobody waits
any more. -/
theorem failed_lock_leaves_trace :
    (Mutex.lock ((urgentWaiter.take 4).foldl SystemOp.run freshSystem) 0 noWait).2 =
      some .errorTimeout ∧
    ¬ ((urgentWaiter.take 4).foldl SystemOp.run freshSystem).Untouched 0
      (Mutex.lock ((urgentWaiter.take 4).foldl SystemOp.run freshSystem) 0 noWait).1 ∧
    Trace SystemOp.Step freshSystem urgentWaiter
      (urgentWaiter.foldl SystemOp.run freshSystem) ∧
    (urgentWaiter.foldl SystemOp.run freshSystem).waiters 0 = [] ∧
    (urgentWaiter.foldl SystemOp.run freshSystem).basePriority 1 = 1 ∧
    (urgentWaiter.foldl SystemOp.run freshSystem).priority 1 = 5 ∧
    ¬ Trace.AllSteps SystemOp.Step UndoesBoost freshSystem urgentWaiter
      (urgentWaiter.foldl SystemOp.run freshSystem) := by
  have hbefore : ((urgentWaiter.take 4).foldl SystemOp.run freshSystem).priority 1 = 1 := by
    decide +kernel
  have hafter : (Mutex.lock ((urgentWaiter.take 4).foldl SystemOp.run freshSystem) 0
      noWait).1.priority 1 = 5 := by decide +kernel
  have hprio : (urgentWaiter.foldl SystemOp.run freshSystem).priority 1 = 5 := by decide +kernel
  have hinherited :
      (urgentWaiter.foldl SystemOp.run freshSystem).inheritedPriority 0 1 = 1 := by
    decide +kernel
  have hgone : (urgentWaiter.foldl SystemOp.run freshSystem).waiters 0 = [] := by decide +kernel
  refine ⟨by decide +kernel, fun h => ?_, Trace.of_guards (by decide +kernel), hgone,
    by decide +kernel, hprio, fun h => ?_⟩
  · exact absurd (hafter.symm.trans ((h.priority 1).trans hbefore)) (by decide)
  · have hstep : SystemOp.Step ((urgentWaiter.take 5).foldl SystemOp.run freshSystem)
        (.call (.api (.sched .tick))) (urgentWaiter.foldl SystemOp.run freshSystem) :=
      ⟨by decide +kernel, rfl⟩
    have hundone := h (urgentWaiter.take 5) _ [] _ _ rfl (Trace.of_guards (by decide +kernel)) hstep
      (.nil _)
    have hwaiting : 2 ∈ ((urgentWaiter.take 5).foldl SystemOp.run freshSystem).waiters 0 := by
      decide +kernel
    have heq := hundone rfl 0 1 2 (holdsAlone_of_rest (by decide +kernel) fun _ => rfl) hwaiting
      (by rw [hgone]; exact List.not_mem_nil)
    exact absurd (hprio.symm.trans (heq.trans hinherited)) (by decide)

end System

end Sertos
