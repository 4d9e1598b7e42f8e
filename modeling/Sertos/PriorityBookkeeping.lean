import Sertos.MutexCalls

/-!
# Priorities across several mutexes

Tasks lock and unlock any number of mutexes, in any order, with any scheduling.  Two things should
hold at all times: a task that neither holds a mutex nor waits for one has its base priority, and a
task that holds mutexes has at least the priority of every task waiting for one of them
(`PriorityRight`).

Each mutex records a single priority when it gets an owner, and the release writes it back, whatever
the owner still holds; the inherited priority is given to the owner of the mutex but not passed on
when that owner waits itself; and a wait list is ordered when a task joins it, not when a waiter is
raised.  `priority_bookkeeping_iff` says exactly which releases and which waits these are.
-/

set_option autoImplicit false

namespace Sertos

open Intrusive Lts Scheduler

/-- The steps of `sertos_mutex_lock`, without a timeout, and of `sertos_mutex_unlock`, with any
scheduling.  A task in its wait goes on when it has been taken off the wait list. -/
def Api.OnMutexes (s : System) (a : Api) : Prop :=
  a.Allowed s ∧ match a with
    | .sched _ => False
    | .lock _ timeout => timeout = waitForever
    | .resume => ∀ r ∈ Api.returned s, ∀ c ∈ s.kernel.currentTcb, c ∉ s.waiters r.1
    | .dispatch _ | .unlock _ => True

instance (s : System) : DecidablePred (Api.OnMutexes s)
  | .sched _ => .isFalse fun h => h.2
  | .lock m timeout =>
    inferInstanceAs (Decidable ((Api.lock m timeout).Allowed s ∧ timeout = waitForever))
  | .resume => inferInstanceAs (Decidable (Api.resume.Allowed s ∧
      ∀ r ∈ Api.returned s, ∀ c ∈ s.kernel.currentTcb, c ∉ s.waiters r.1))
  | .dispatch t => inferInstanceAs (Decidable ((Api.dispatch t).Allowed s ∧ True))
  | .unlock m => inferInstanceAs (Decidable ((Api.unlock m).Allowed s ∧ True))

/-- One step of a run of mutex calls. -/
abbrev Api.MutexStep : System → Api → System → Prop := Guarded Api.OnMutexes Api.run

namespace System

/-- Every priority is what the mutexes account for. -/
structure PriorityRight (s : System) : Prop where
  /-- A task that holds no mutex and waits for none has its base priority. -/
  base : ∀ t, s.kernel.Live t → s.pc t = .idle → (∀ m, (s.mutexes m).owner ≠ some t) →
    s.priority t = s.basePriority t
  /-- The owner of a mutex has at least the priority of every task waiting for it. -/
  inherit : ∀ m t w, (s.mutexes m).owner = some t → w ∈ s.waiters m → s.priority w ≤ s.priority t

/-- The priority that `m` has recorded is right for `c` after the release, and the first waiter is
right for the others. -/
structure ReleaseAccounted (s : System) (m : ℕ) (c : TaskId) : Prop where
  /-- If this is the last mutex of `c`, its base priority was recorded. -/
  last : s.kernel.Live c → (∀ n, n ≠ m → (s.mutexes n).owner ≠ some c) →
    (s.mutexes m).originalOwnerPriority = s.basePriority c
  /-- No task that waits for another mutex of `c` has more than the recorded priority. -/
  kept : ∀ n w, n ≠ m → (s.mutexes n).owner = some c → w ∈ s.waiters n →
    s.priority w ≤ (s.mutexes m).originalOwnerPriority
  /-- The first waiter has the highest priority of all waiters. -/
  first : ∀ w u, (s.waiters m).head? = some w → u ∈ s.waiters m → s.priority u ≤ s.priority w

/-- If the owner `o` is raised by `c` while it waits itself, the task it waits for has the priority
of `c` already. -/
def BoostAccounted (s : System) (o c : TaskId) : Prop :=
  s.priority o < s.priority c → ∀ n p, o ∈ s.waiters n → (s.mutexes n).owner = some p →
    s.priority c ≤ s.priority p

/-- The condition on a step. -/
def Accounted (s : System) : Api → Prop
  | .unlock m => ∀ c, s.FullRelease m c → s.ReleaseAccounted m c
  | .lock m _ => ∀ c o, s.kernel.currentTcb = some c → (s.mutexes m).owner = some o →
    s.BoostAccounted o c
  | _ => True

/-! ## Who waits for what -/

/-- The wait lists, the program counters and the owners agree. -/
structure Queued (s : System) : Prop where
  magic : ∀ m, (s.mutexes m).magic = mutexMagicWord
  nodup : ∀ m, (s.waiters m).Nodup
  linked : ∀ m, ∀ t ∈ s.waiters m, (s.kernel.tcb t).eventLinked = true
  waiting : ∀ m, ∀ t ∈ s.waiters m, s.pc t = .mutexWait m waitForever
  calls : ∀ t, s.pc t = .idle ∨ ∃ m, s.pc t = .mutexWait m waitForever
  /-- A task that has been taken off the wait list and has not yet run owns the mutex. -/
  handed : ∀ t m, s.pc t = .mutexWait m waitForever → t ∉ s.waiters m →
    (s.mutexes m).owner = some t
  owner : ∀ m t, (s.mutexes m).owner = some t → t ∉ s.waiters m
  /-- The test of a mutex and the wait for it are one step here, so nobody waits for a free one. -/
  free : ∀ m, (s.mutexes m).owner = none → s.waiters m = []

variable {s s' : System} {m timeout : ℕ} {c o t w : TaskId}

theorem Queued.not_waiting (h : s.Queued) (hpc : s.pc c = .idle) (m : ℕ) : c ∉ s.waiters m := by
  intro hW
  rw [h.waiting m c hW] at hpc
  exact absurd hpc (by simp)

/-- A change of the kernel that leaves the wait lists alone. -/
theorem Queued.withKernel (h : s.Queued) {k : Kernel} (hk : k.waitLists = s.kernel.waitLists)
    (htcb : ∀ t, (k.tcb t).eventLinked = (s.kernel.tcb t).eventLinked) :
    ({ s with kernel := k } : System).Queued := by
  have hW : ∀ m, ({ s with kernel := k } : System).waiters m = s.waiters m := fun m => by
    simp only [waiters, hk]
  refine ⟨h.magic, ?_, ?_, ?_, h.calls, ?_, ?_, ?_⟩ <;> simp only [hW]
  · exact h.nodup
  · exact fun m t ht => (htcb t).trans (h.linked m t ht)
  · exact h.waiting
  · exact h.handed
  · exact h.owner
  · exact h.free

theorem Queued.setMutex (h : s.Queued) {x : Mutex} (hmagic : x.magic = mutexMagicWord)
    (hx : x.owner = (s.mutexes m).owner) : (s.setMutex m x).Queued := by
  have howner : ∀ n, ((s.setMutex m x).mutexes n).owner = (s.mutexes n).owner := by
    intro n
    by_cases hn : n = m
    · rw [hn, setMutex_mutexes_same, hx]
    · rw [setMutex_mutexes_of_ne _ _ _ hn]
  refine ⟨setMutex_magic h.magic hmagic, h.nodup, h.linked, h.waiting, h.calls, ?_, ?_, ?_⟩
  · exact fun t n hpc ht => (howner n).trans (h.handed t n hpc ht)
  · exact fun n t ht => h.owner n t ((howner n).symm.trans ht)
  · exact fun n hn => h.free n ((howner n).symm.trans hn)

/-- The current task takes a free mutex. -/
theorem Queued.acquire (h : s.Queued) (hpc : s.pc c = .idle) (ho : (s.mutexes m).owner = none)
    {x : Mutex} (hmagic : x.magic = mutexMagicWord) (hx : x.owner = some c) :
    (s.setMutex m x).Queued := by
  refine ⟨fun n => ?_, h.nodup, h.linked, h.waiting, h.calls, fun t n ht hW => ?_,
    fun n t ht => ?_, fun n hn => ?_⟩ <;> by_cases hnm : n = m
  · rw [hnm, setMutex_mutexes_same, hmagic]
  · rw [setMutex_mutexes_of_ne _ _ _ hnm]
    exact h.magic n
  · subst hnm
    exact absurd ((h.handed t n ht hW).symm.trans ho) (by simp)
  · rw [setMutex_mutexes_of_ne _ _ _ hnm]
    exact h.handed t n ht hW
  · subst hnm
    rw [setMutex_mutexes_same, hx] at ht
    obtain rfl := Option.some_inj.1 ht
    exact h.not_waiting hpc n
  · rw [setMutex_mutexes_of_ne _ _ _ hnm] at ht
    exact h.owner n t ht
  · subst hnm
    rw [setMutex_mutexes_same, hx] at hn
    exact absurd hn (by simp)
  · rw [setMutex_mutexes_of_ne _ _ _ hnm] at hn
    exact h.free n hn

/-- Blocking adds the caller to the wait list. -/
theorem mem_waiters_block (s : System) (m n timeout : ℕ) (c t : TaskId) :
    t ∈ ((waitListBlockSection s.kernel c (.mutex m) timeout).waitLists (.mutex n)).nodes ↔
      t ∈ s.waiters n ∨ (n = m ∧ t = c) := by
  rw [waitListBlockSection_waitLists, Bundle.mem_insertByKey]
  simp [waiters]

/-- The caller waits for a mutex that another task owns. -/
theorem Queued.block (h : s.Queued) (hpc : s.pc c = .idle) (ho : (s.mutexes m).owner = some o)
    (hoc : o ≠ c) :
    (({ s with kernel := waitListBlockSection s.kernel c (.mutex m) waitForever } : System).setPc c
      (.mutexWait m waitForever)).Queued := by
  have hmem := fun n t => mem_waiters_block s m n waitForever c t
  have hnot := h.not_waiting hpc
  have hne : ∀ n, ∀ t ∈ s.waiters n, t ≠ c := fun n t ht e => hnot n (e ▸ ht)
  refine ⟨h.magic, fun n => ?_, fun n t ht => ?_, fun n t ht => ?_, fun t => ?_,
    fun t n ht hW => ?_, fun n t ht => ?_, fun n hn => ?_⟩
  · have hwl := waitListBlockSection_waitLists s.kernel c (.mutex m) waitForever
    by_cases hnm : n = m
    · subst hnm
      simp only [waiters, setPc_kernel, hwl, Bundle.insertByKey_same]
      exact LinkedList.nodup_insertByKey (h.nodup n) (hnot n)
    · simp only [waiters, setPc_kernel, hwl]
      rw [Bundle.insertByKey_of_ne (by simpa using hnm)]
      exact h.nodup n
  · rcases (hmem n t).1 ht with ht | ⟨-, rfl⟩
    · rw [setPc_kernel, waitListBlockSection_tcb_of_ne _ _ _ _ (hne n t ht)]
      exact h.linked n t ht
    · rw [setPc_kernel, waitListBlockSection_tcb_same]
  · rcases (hmem n t).1 ht with ht | ⟨rfl, rfl⟩
    · rw [setPc_pc_of_ne _ _ _ (hne n t ht)]
      exact h.waiting n t ht
    · rw [setPc_pc_same]
  · by_cases htc : t = c
    · subst htc
      exact Or.inr ⟨m, setPc_pc_same _ _ _⟩
    · rw [setPc_pc_of_ne _ _ _ htc]
      exact h.calls t
  · obtain ⟨hW, hnc⟩ := not_or.1 (mt (hmem n t).2 hW)
    by_cases htc : t = c
    · subst htc
      rw [setPc_pc_same] at ht
      exact absurd ⟨(Pc.mutexWait.inj ht).1.symm, rfl⟩ hnc
    · rw [setPc_pc_of_ne _ _ _ htc] at ht
      exact h.handed t n ht hW
  · intro hW
    rcases (hmem n t).1 hW with hW | ⟨rfl, rfl⟩
    · exact h.owner n t ht hW
    · exact hoc (Option.some_inj.1 (ho.symm.trans ht))
  · have hnm : n ≠ m := by
      rintro rfl
      exact absurd (ho.symm.trans hn) (by simp)
    have hfree := h.free n hn
    refine List.eq_nil_iff_forall_not_mem.2 fun t ht => ?_
    rcases (hmem n t).1 ht with ht | ⟨e, -⟩
    · rw [hfree] at ht
      exact absurd ht (by simp)
    · exact hnm e

theorem Queued.lock (h : s.Queued) (hcall : s.InNoCall) :
    (Mutex.lock s m waitForever).1.Queued := by
  have hboost : ∀ o c, ({ s with
      kernel := Mutex.applyPriorityInheritance s.kernel o c } : System).Queued := fun o c =>
    h.withKernel (Mutex.applyPriorityInheritance_waitLists _ o c) fun t => by
      rw [Mutex.applyPriorityInheritance_tcb]
  have he := Mutex.lock_effect s m waitForever
  generalize Mutex.lock s m waitForever = r at he ⊢
  cases he with
  | invalid => exact h
  | noTask => exact h
  | acquire hc ho => exact h.acquire (hcall.idle hc) ho (h.magic m) rfl
  | again hc ho => exact h.setMutex (h.magic m) rfl
  | fail => exact hboost _ _
  | @wait c o hc ho hoc =>
    have hblock := (hboost o c).block (m := m) (hcall.idle hc) ho hoc
    refine hblock.withKernel ?_ fun t => ?_
    · rw [switchContext_frame]
      rfl
    · rw [switchContext_tcb]
      rfl

theorem Queued.resume (h : s.Queued) (hpc : s.pc c = .mutexWait m waitForever)
    (hW : c ∉ s.waiters m) : (Mutex.lockResume s m c waitForever).1.Queued := by
  have ho := h.handed c m hpc hW
  have hstatus := waitListBlockStatus_forever s.kernel c
  have hset := h.setMutex (m := m) (x := { s.mutexes m with
    owner := some c
    lockCount := 1
    originalOwnerPriority := (s.kernel.tcb c).basePriority }) (h.magic m) ho.symm
  simp only [Mutex.lockResume, Mutex.lockReturn, hstatus, if_true]
  have hnot : ∀ n, c ∉ s.waiters n := by
    intro n hn
    obtain rfl := (Pc.mutexWait.inj ((h.waiting n c hn).symm.trans hpc)).1
    exact hW hn
  refine ⟨hset.magic, hset.nodup, hset.linked, fun n t ht => ?_, fun t => ?_, fun t n ht htW => ?_,
    hset.owner, hset.free⟩
  · rw [setPc_pc_of_ne _ _ _ (fun e : t = c => hnot n (e ▸ ht))]
    exact h.waiting n t ht
  · by_cases htc : t = c
    · subst htc
      exact Or.inl (setPc_pc_same _ _ _)
    · rw [setPc_pc_of_ne _ _ _ htc]
      exact h.calls t
  · by_cases htc : t = c
    · subst htc
      rw [setPc_pc_same] at ht
      exact absurd ht (by simp)
    · rw [setPc_pc_of_ne _ _ _ htc] at ht
      exact hset.handed t n ht htW

/-- What a full release of `m` by `c` leaves: the kernel and the mutex. -/
structure Released (s : System) (m : ℕ) (c : TaskId) (k : Kernel) (x : Mutex) : Prop where
  magic : x.magic = mutexMagicWord
  owner : x.owner = (s.waiters m).head?
  rest : (k.waitLists (.mutex m)).nodes = (s.waiters m).tail
  other : ∀ n, n ≠ m → (k.waitLists (.mutex n)).nodes = s.waiters n
  registry : k.taskRegistry = s.kernel.taskRegistry
  linked : ∀ t, (s.waiters m).head? ≠ some t →
    (k.tcb t).eventLinked = (s.kernel.tcb t).eventLinked
  priority : ∀ t, (k.tcb t).priority =
    if t = c then (s.mutexes m).originalOwnerPriority else s.priority t
  basePriority : ∀ t, (k.tcb t).basePriority = s.basePriority t

/-- **A full release** restores the recorded priority and passes the mutex on. -/
theorem FullRelease.released (hr : s.FullRelease m c)
    (hmagic : (s.mutexes m).magic = mutexMagicWord)
    (hlinked : ∀ t ∈ s.waiters m, (s.kernel.tcb t).eventLinked = true)
    (honce : ∀ n, ∀ t ∈ s.waiters m, t ∈ s.waiters n → n = m) :
    ∃ k x, (Mutex.unlock s m).1 = ({ s with kernel := k } : System).setMutex m x ∧
      s.Released m c k x := by
  rcases hr.unlock_cases hmagic with ⟨hW, e⟩ | ⟨w, rest, hW, e⟩
  · refine ⟨_, _, e, hmagic, by rw [hW]; rfl, ?_, fun n _ => ?_, ?_, fun t _ => ?_, fun t => ?_,
      fun t => ?_⟩
    · rw [reschedule_frame, Mutex.restoreOwnerPriority_frame, hW]
      exact hW
    · rw [reschedule_frame, Mutex.restoreOwnerPriority_frame]
      rfl
    · rw [reschedule_frame, Mutex.restoreOwnerPriority_frame]
    · rw [reschedule_tcb, Mutex.restoreOwnerPriority_tcb]
    · rw [reschedule_tcb]
      exact Mutex.restoreOwnerPriority_priority _ _ _ _
    · rw [reschedule_tcb, Mutex.restoreOwnerPriority_tcb]
      rfl
  · have hw : w ∈ s.waiters m := by rw [hW]; exact List.mem_cons_self
    have hlists := Mutex.handedKernel_waitLists (c := c) hW (hlinked w hw)
    refine ⟨_, _, e, hmagic, by rw [hW]; rfl, ?_, fun n hn => ?_, ?_, fun t ht => ?_,
      fun t => ?_, fun t => ?_⟩
    · rw [reschedule_frame, hW]
      exact Mutex.handedKernel_waiters hW (hlinked w hw)
    · have hnot : w ∉ s.waiters n := fun hmem => hn (honce n w hw hmem)
      rw [reschedule_frame]
      exact (hlists _).trans (List.erase_of_not_mem hnot)
    · rw [reschedule_frame, Mutex.handedKernel, unblockHighest_frame,
        Mutex.restoreOwnerPriority_frame]
    · have hne : t ≠ w := by
        rintro rfl
        rw [hW] at ht
        exact ht rfl
      rw [reschedule_tcb, Mutex.handedKernel_tcb_of_ne hW hne, Mutex.restoreOwnerPriority_tcb]
    · rw [reschedule_tcb]
      exact Mutex.handedKernel_priority hW t
    · rw [reschedule_tcb]
      exact Mutex.handedKernel_basePriority hW t

theorem Queued.released (h : s.Queued) (hr : s.FullRelease m c) :
    ∃ k x, (Mutex.unlock s m).1 = ({ s with kernel := k } : System).setMutex m x ∧
      s.Released m c k x :=
  FullRelease.released hr (h.magic m) (h.linked m) fun n t ht ht' =>
    (Pc.mutexWait.inj ((h.waiting n t ht').symm.trans (h.waiting m t ht))).1

theorem Queued.pass (h : s.Queued) (hpc : s.pc c = .idle) (ho : (s.mutexes m).owner = some c)
    {k : Kernel} {x : Mutex} (hr : s.Released m c k x) :
    (({ s with kernel := k } : System).setMutex m x).Queued := by
  have hlist : ∀ n, (({ s with kernel := k } : System).setMutex m x).waiters n =
      (k.waitLists (.mutex n)).nodes := fun _ => rfl
  have hsub : ∀ n, ∀ t ∈ (k.waitLists (.mutex n)).nodes, t ∈ s.waiters n := by
    intro n t ht
    by_cases hn : n = m
    · subst hn
      rw [hr.rest] at ht
      exact List.mem_of_mem_tail ht
    · rwa [hr.other n hn] at ht
  have hfirst : ∀ t, (s.waiters m).head? = some t → t ∉ (s.waiters m).tail := by
    intro t ht
    obtain ⟨rest, hrest⟩ := List.head?_eq_some_iff.1 ht
    have hnodup := h.nodup m
    rw [hrest, List.nodup_cons] at hnodup
    rw [hrest]
    exact hnodup.1
  refine ⟨fun n => ?_, fun n => ?_, fun n t ht => ?_, fun n t ht => ?_, h.calls,
    fun t n ht htW => ?_, fun n t ht htW => ?_, fun n hn => ?_⟩
  · by_cases hn : n = m
    · rw [hn, setMutex_mutexes_same, hr.magic]
    · rw [setMutex_mutexes_of_ne _ _ _ hn]
      exact h.magic n
  · by_cases hn : n = m
    · subst hn
      rw [hlist, hr.rest]
      exact (h.nodup n).tail
    · rw [hlist, hr.other n hn]
      exact h.nodup n
  · have hne : (s.waiters m).head? ≠ some t := by
      intro hhead
      have hm : n = m := by
        have h1 := h.waiting n t (hsub n t ht)
        have h2 := h.waiting m t (List.mem_of_mem_head? hhead)
        exact (Pc.mutexWait.inj (h1.symm.trans h2)).1
      subst hm
      rw [hlist, hr.rest] at ht
      exact hfirst t hhead ht
    rw [setMutex_kernel, hr.linked t hne]
    exact h.linked n t (hsub n t ht)
  · exact h.waiting n t (hsub n t ht)
  · by_cases hn : n = m
    · subst hn
      rw [setMutex_mutexes_same, hr.owner]
      rw [hlist, hr.rest] at htW
      -- the task was waiting before, since the owner was the current task
      have hmem : t ∈ s.waiters n := by
        by_contra hnot
        obtain rfl := Option.some_inj.1 (ho.symm.trans (h.handed t n ht hnot))
        have hwait : s.pc c = .mutexWait n waitForever := ht
        rw [hpc] at hwait
        exact absurd hwait (by simp)
      cases hl : s.waiters n with
      | nil =>
        rw [hl] at hmem
        exact absurd hmem (by simp)
      | cons w rest =>
        rw [hl, List.tail_cons] at htW
        rw [hl] at hmem
        rcases List.mem_cons.1 hmem with rfl | hrest
        · rfl
        · exact absurd hrest htW
    · rw [setMutex_mutexes_of_ne _ _ _ hn]
      rw [hlist, hr.other n hn] at htW
      exact h.handed t n ht htW
  · by_cases hn : n = m
    · subst hn
      rw [setMutex_mutexes_same, hr.owner] at ht
      rw [hlist, hr.rest] at htW
      exact hfirst t ht htW
    · rw [setMutex_mutexes_of_ne _ _ _ hn] at ht
      exact h.owner n t ht (hsub n t htW)
  · by_cases hn' : n = m
    · subst hn'
      rw [setMutex_mutexes_same, hr.owner, List.head?_eq_none_iff] at hn
      rw [hlist, hr.rest, hn]
      rfl
    · rw [setMutex_mutexes_of_ne _ _ _ hn'] at hn
      rw [hlist, hr.other n hn']
      exact h.free n hn

theorem Queued.unlock (h : s.Queued) (hcall : s.InNoCall) : (Mutex.unlock s m).1.Queued := by
  by_cases hr : ∃ c, s.FullRelease m c
  · obtain ⟨c, hr⟩ := hr
    obtain ⟨k, x, e, hrel⟩ := h.released hr
    rw [e]
    exact h.pass (hcall.idle hr.1) hr.2.1 hrel
  · rcases unlock_cases_of_not_fullRelease hr with e | e <;> rw [e]
    · exact h
    · exact h.setMutex (h.magic m) rfl

theorem Queued.step (h : s.Queued) {a : Api} (hs : Api.MutexStep s a s') : s'.Queued := by
  obtain ⟨⟨hallowed, ha⟩, rfl⟩ := hs
  cases a with
  | sched => exact ha.elim
  | dispatch t => exact h.withKernel rfl fun _ => rfl
  | lock m timeout =>
    obtain rfl : timeout = waitForever := ha
    exact h.lock hallowed
  | resume =>
    obtain ⟨c, m, timeout, hc, hpc, e⟩ := Api.returned_cases hallowed
    have hW := ha _ (Api.returned_eq hc hpc) c hc
    rw [e]
    rcases h.calls c with hidle | ⟨n, hn⟩
    · exact absurd (hidle.symm.trans hpc) (by simp)
    · obtain ⟨rfl, rfl⟩ := Pc.mutexWait.inj (hn.symm.trans hpc)
      exact h.resume hpc hW
  | unlock m => exact h.unlock hallowed

/-! ## What one step does to the priorities -/

/-- **Raising an owner.**  The owner `o` of `m` inherits the priority of `c`, which may go on to
wait for `m`: the priorities stay right exactly if `o` itself does not wait for a task of lower
priority than `c`. -/
theorem boost_iff (hq : s.Queued) (hp : s.PriorityRight) (ho : (s.mutexes m).owner = some o)
    (hoc : o ≠ c) (hm : s'.mutexes = s.mutexes) (hcalls : ∀ t, s'.pc t = .idle → s.pc t = .idle)
    (hsub : ∀ n, ∀ t ∈ s.waiters n, t ∈ s'.waiters n)
    (hW : ∀ n, ∀ t ∈ s'.waiters n, t ∈ s.waiters n ∨ (n = m ∧ t = c))
    (hlive : ∀ t, s'.kernel.Live t ↔ s.kernel.Live t)
    (hprio : ∀ t, s'.priority t = if t = o then max (s.priority o) (s.priority c) else s.priority t)
    (hbase : ∀ t, s'.basePriority t = s.basePriority t) :
    s'.PriorityRight ↔ s.BoostAccounted o c := by
  have hne : ∀ t, t ≠ o → s'.priority t = s.priority t := fun t ht => by rw [hprio, if_neg ht]
  have hself : s'.priority o = max (s.priority o) (s.priority c) := by rw [hprio, if_pos rfl]
  have hge : ∀ t, s.priority t ≤ s'.priority t := by
    intro t
    by_cases ht : t = o
    · rw [ht, hself]
      exact Nat.le_max_left _ _
    · rw [hne t ht]
  -- the owner of a mutex does not wait for it
  have hother : ∀ n p, o ∈ s.waiters n → (s.mutexes n).owner = some p → p ≠ o := by
    rintro n p hon hpn rfl
    exact hq.owner n p hpn hon
  constructor
  · intro h hlt n p hon hpn
    have hinherit := h.inherit n p o (by rw [hm]; exact hpn) (hsub n o hon)
    rw [hself, hne p (hother n p hon hpn)] at hinherit
    exact (Nat.le_max_right _ _).trans hinherit
  · intro hacc
    constructor
    · intro t ht hpc hnone
      rw [hm] at hnone
      have hto : t ≠ o := fun e => hnone m (e ▸ ho)
      rw [hne t hto, hbase]
      exact hp.base t ((hlive t).1 ht) (hcalls t hpc) hnone
    · intro n t w ht hw
      rw [hm] at ht
      rcases hW n w hw with hw | ⟨rfl, rfl⟩
      · by_cases hwo : w = o
        · subst hwo
          rw [hself, hne t (hother n t hw ht)]
          refine Nat.max_le.2 ⟨hp.inherit n t w ht hw, ?_⟩
          by_cases hlt : s.priority w < s.priority c
          · exact hacc hlt n t hw ht
          · exact (not_lt.1 hlt).trans (hp.inherit n t w ht hw)
        · rw [hne w hwo]
          exact (hp.inherit n t w ht hw).trans (hge t)
      · obtain rfl := Option.some_inj.1 (ho.symm.trans ht)
        rw [hself, hne w (Ne.symm hoc)]
        exact Nat.le_max_right _ _

/-- **A full release.**  The priorities stay right exactly if the recorded priority is right for the
task that releases, and the first waiter for the others. -/
theorem release_iff (hq : s.Queued) (hp : s.PriorityRight) (hpc : s.pc c = .idle)
    (ho : (s.mutexes m).owner = some c) {k : Kernel} {x : Mutex} (hr : s.Released m c k x) :
    (({ s with kernel := k } : System).setMutex m x).PriorityRight ↔ s.ReleaseAccounted m c := by
  set s' : System := ({ s with kernel := k } : System).setMutex m x with hs'
  have hrest : s'.waiters m = (s.waiters m).tail := hr.rest
  have hkept : ∀ n, n ≠ m → s'.waiters n = s.waiters n := hr.other
  have hnew : (s'.mutexes m).owner = (s.waiters m).head? := by
    rw [hs', setMutex_mutexes_same, hr.owner]
  have howner : ∀ n, n ≠ m → s'.mutexes n = s.mutexes n := fun n hn =>
    setMutex_mutexes_of_ne _ _ _ hn
  have hlive : ∀ t, s'.kernel.Live t ↔ s.kernel.Live t := fun t => by
    rw [Kernel.Live, Kernel.Live, ← hr.registry]
    rfl
  have hself : s'.priority c = (s.mutexes m).originalOwnerPriority :=
    (hr.priority c).trans (if_pos rfl)
  have hne : ∀ t, t ≠ c → s'.priority t = s.priority t := fun t ht =>
    (hr.priority t).trans (if_neg ht)
  have hbase : ∀ t, s'.basePriority t = s.basePriority t := hr.basePriority
  have hwc : ∀ n, ∀ t ∈ s.waiters n, t ≠ c := fun n t ht e => hq.not_waiting hpc n (e ▸ ht)
  constructor
  · intro h
    refine ⟨fun hl hnone => ?_, fun n w hn hown hw => ?_, fun w u hw hu => ?_⟩
    · rw [← hself, ← hbase]
      refine h.base c ((hlive c).2 hl) hpc fun n => ?_
      by_cases hn : n = m
      · subst hn
        rw [hnew]
        exact fun hhead => hwc n c (List.mem_of_mem_head? hhead) rfl
      · rw [howner n hn]
        exact hnone n hn
    · have hinherit := h.inherit n c w (by rw [howner n hn]; exact hown) (by rwa [hkept n hn])
      rwa [hself, hne w (hwc n w hw)] at hinherit
    · obtain ⟨rest, hlist⟩ := List.head?_eq_some_iff.1 hw
      have hwm : w ∈ s.waiters m := List.mem_of_mem_head? hw
      rw [hlist] at hu
      rcases List.mem_cons.1 hu with rfl | hu
      · exact le_refl _
      · have hum : u ∈ s.waiters m := by rw [hlist]; exact List.mem_cons_of_mem _ hu
        have hinherit := h.inherit m w u (hnew.trans hw) (by rw [hrest, hlist]; exact hu)
        rwa [hne u (hwc m u hum), hne w (hwc m w hwm)] at hinherit
  · intro h
    constructor
    · intro t ht hidle hnone
      by_cases htc : t = c
      · subst htc
        rw [hself, hbase]
        exact h.last ((hlive t).1 ht) fun n hn => by rw [← howner n hn]; exact hnone n
      · rw [hne t htc, hbase]
        refine hp.base t ((hlive t).1 ht) hidle fun n => ?_
        by_cases hn : n = m
        · subst hn
          rw [ho]
          exact fun e => htc (Option.some_inj.1 e).symm
        · rw [← howner n hn]
          exact hnone n
    · intro n t w ht hw
      by_cases hn : n = m
      · subst hn
        rw [hnew] at ht
        rw [hrest] at hw
        have hwn := List.mem_of_mem_tail hw
        rw [hne w (hwc n w hwn), hne t (hwc n t (List.mem_of_mem_head? ht))]
        exact h.first t w ht hwn
      · rw [howner n hn] at ht
        rw [hkept n hn] at hw
        rw [hne w (hwc n w hw)]
        by_cases htc : t = c
        · subst htc
          rw [hself]
          exact h.kept n w hn ht hw
        · rw [hne t htc]
          exact hp.inherit n t w ht hw

/-- A mutex that keeps its owner, or gets one while nobody waits for it. -/
theorem PriorityRight.setMutex (hp : s.PriorityRight) {x : Mutex}
    (hx : x.owner = (s.mutexes m).owner ∨ ∃ c, x.owner = some c ∧ (s.mutexes m).owner = none ∧
      s.waiters m = []) : (s.setMutex m x).PriorityRight := by
  constructor
  · intro t ht hpc hnone
    refine hp.base t ht hpc fun n => ?_
    have hn := hnone n
    by_cases hnm : n = m
    · subst hnm
      rw [setMutex_mutexes_same] at hn
      rcases hx with hx | ⟨c, -, hnone, -⟩
      · rwa [hx] at hn
      · rw [hnone]
        simp
    · rwa [setMutex_mutexes_of_ne _ _ _ hnm] at hn
  · intro n t w ht hw
    by_cases hnm : n = m
    · subst hnm
      rcases hx with hx | ⟨c, -, -, hnil⟩
      · rw [setMutex_mutexes_same, hx] at ht
        exact hp.inherit n t w ht hw
      · have hw' : w ∈ s.waiters n := hw
        rw [hnil] at hw'
        exact absurd hw' (by simp)
    · rw [setMutex_mutexes_of_ne _ _ _ hnm] at ht
      exact hp.inherit n t w ht hw

/-- What a wait of `c` for `m`, which raises the owner `o`, leaves: the kernel. -/
structure Waited (s : System) (m : ℕ) (o c : TaskId) (k : Kernel) : Prop where
  list : k.waitLists (.mutex m) =
    (s.kernel.waitLists (.mutex m)).insertByKey (fun t => (k.tcb t).priority) c
  other : ∀ n, n ≠ m → k.waitLists (.mutex n) = s.kernel.waitLists (.mutex n)
  registry : k.taskRegistry = s.kernel.taskRegistry
  isRunning : k.isRunning = s.kernel.isRunning
  priority : ∀ t, (k.tcb t).priority =
    if t = o then max (s.priority o) (s.priority c) else s.priority t
  basePriority : ∀ t, (k.tcb t).basePriority = s.basePriority t

/-- **A wait** raises the owner and queues the caller. -/
theorem waited (s : System) (m timeout : ℕ) (o c : TaskId) :
    s.Waited m o c (switchContext (waitListBlockSection
      (Mutex.applyPriorityInheritance s.kernel o c) c (.mutex m) timeout)) := by
  have hlists := Mutex.applyPriorityInheritance_waitLists s.kernel o c
  -- blocking changes no priority
  have htcb : ∀ t, ((switchContext (waitListBlockSection
      (Mutex.applyPriorityInheritance s.kernel o c) c (.mutex m) timeout)).tcb t).priority =
        ((Mutex.applyPriorityInheritance s.kernel o c).tcb t).priority ∧
      ((switchContext (waitListBlockSection
      (Mutex.applyPriorityInheritance s.kernel o c) c (.mutex m) timeout)).tcb t).basePriority =
        ((Mutex.applyPriorityInheritance s.kernel o c).tcb t).basePriority := by
    intro t
    rw [switchContext_tcb]
    by_cases htc : t = c
    · subst htc
      rw [waitListBlockSection_tcb_same]
      exact ⟨rfl, rfl⟩
    · rw [waitListBlockSection_tcb_of_ne _ _ _ _ htc]
      exact ⟨rfl, rfl⟩
  refine ⟨?_, fun n hn => ?_, ?_, ?_, fun t => ?_, fun t => ?_⟩
  · simp only [htcb]
    rw [switchContext_frame, waitListBlockSection_waitLists, Bundle.insertByKey_same, hlists]
  · rw [switchContext_frame, waitListBlockSection_waitLists,
      Bundle.insertByKey_of_ne (by simpa using hn), hlists]
  · rw [switchContext_frame, waitListBlockSection_frame, Mutex.applyPriorityInheritance_frame]
  · rw [switchContext_frame, waitListBlockSection_frame, Mutex.applyPriorityInheritance_frame]
  · exact (htcb t).1.trans (Mutex.applyPriorityInheritance_priority s.kernel t o c)
  · refine (htcb t).2.trans ?_
    rw [Mutex.applyPriorityInheritance_tcb]
    rfl

theorem Waited.mem_waiters {k : Kernel} (h : s.Waited m o c k) {n : ℕ} :
    t ∈ (k.waitLists (.mutex n)).nodes ↔ t ∈ s.waiters n ∨ (n = m ∧ t = c) := by
  by_cases hn : n = m
  · subst hn
    rw [h.list, LinkedList.mem_insertByKey]
    simp [waiters]
  · rw [h.other n hn]
    simp [waiters, hn]

theorem lock_iff (hq : s.Queued) (hp : s.PriorityRight) (hcall : s.InNoCall) :
    (Mutex.lock s m waitForever).1.PriorityRight ↔ s.Accounted (.lock m waitForever) := by
  have he := Mutex.lock_effect s m waitForever
  generalize Mutex.lock s m waitForever = r at he ⊢
  -- for the two branches that raise the owner, the condition is about this owner and this caller
  have hcond : ∀ {c o : TaskId}, s.kernel.currentTcb = some c → (s.mutexes m).owner = some o →
      (s.Accounted (.lock m waitForever) ↔ s.BoostAccounted o c) := by
    intro c o hc ho
    refine ⟨fun h => h c o hc ho, fun h c' o' hc' ho' => ?_⟩
    obtain rfl := Option.some_inj.1 (hc.symm.trans hc')
    obtain rfl := Option.some_inj.1 (ho.symm.trans ho')
    exact h
  cases he with
  | invalid hmagic => exact absurd (hq.magic m) hmagic
  | noTask hnone =>
    exact iff_of_true hp fun c o hc => absurd (hnone.symm.trans hc) (by simp)
  | @acquire c hc ho =>
    refine iff_of_true (hp.setMutex (Or.inr ⟨c, rfl, ho, hq.free m ho⟩)) fun _ _ _ ho' => ?_
    exact absurd (ho.symm.trans ho') (by simp)
  | @again c hc ho =>
    rw [hcond hc ho]
    exact iff_of_true (hp.setMutex (Or.inl rfl)) fun hlt => absurd hlt (lt_irrefl _)
  | @fail c o _ hc ho hoc =>
    rw [hcond hc ho]
    have hframe := Mutex.applyPriorityInheritance_frame s.kernel o c
    have hW : ∀ n, ({ s with
        kernel := Mutex.applyPriorityInheritance s.kernel o c } : System).waiters n =
          s.waiters n := by
      intro n
      simp only [waiters, Mutex.applyPriorityInheritance_waitLists]
    refine boost_iff hq hp ho hoc rfl (fun _ e => e) (fun n t ht => ?_) (fun n t ht => ?_)
      (fun t => ?_) (Mutex.applyPriorityInheritance_priority s.kernel · o c) fun t => ?_
    · rw [hW]
      exact ht
    · rw [hW] at ht
      exact Or.inl ht
    · show t ∈ (Mutex.applyPriorityInheritance s.kernel o c).taskRegistry.nodes ↔ _
      rw [hframe]
      rfl
    · show ((Mutex.applyPriorityInheritance s.kernel o c).tcb t).basePriority = _
      rw [Mutex.applyPriorityInheritance_tcb]
      rfl
  | @wait c o hc ho hoc =>
    rw [hcond hc ho]
    have hpc := hcall.idle hc
    have hwaited := s.waited m waitForever o c
    refine boost_iff hq hp ho hoc rfl (fun t ht => ?_)
      (fun n t ht => hwaited.mem_waiters.2 (Or.inl ht)) (fun n t ht => hwaited.mem_waiters.1 ht)
      (fun t => ?_) hwaited.priority hwaited.basePriority
    · by_cases htc : t = c
      · rw [htc]
        exact hpc
      · rwa [setPc_pc_of_ne _ _ _ htc] at ht
    · rw [Kernel.Live, Kernel.Live, setPc_kernel, hwaited.registry]

theorem unlock_iff (hq : s.Queued) (hp : s.PriorityRight) (hcall : s.InNoCall) :
    (Mutex.unlock s m).1.PriorityRight ↔ s.Accounted (.unlock m) := by
  by_cases hr : ∃ c, s.FullRelease m c
  · obtain ⟨c, hr⟩ := hr
    obtain ⟨k, x, e, hrel⟩ := hq.released hr
    rw [e, release_iff hq hp (hcall.idle hr.1) hr.2.1 hrel]
    refine ⟨fun h c' hr' => ?_, fun h => h c hr⟩
    obtain rfl := Option.some_inj.1 (hr.1.symm.trans hr'.1)
    exact h
  · refine iff_of_true ?_ fun c hc => absurd ⟨c, hc⟩ hr
    rcases unlock_cases_of_not_fullRelease hr with e | e <;> rw [e]
    · exact hp
    · exact hp.setMutex (Or.inl rfl)

/-- A waiter that comes back owns the mutex, so its program counter does not matter. -/
theorem PriorityRight.resume (hq : s.Queued) (hp : s.PriorityRight)
    (hpc : s.pc c = .mutexWait m waitForever) (hW : c ∉ s.waiters m) :
    (Mutex.lockResume s m c waitForever).1.PriorityRight := by
  have ho := hq.handed c m hpc hW
  have hstatus := waitListBlockStatus_forever s.kernel c
  have hset := hp.setMutex (m := m) (x := { s.mutexes m with
    owner := some c
    lockCount := 1
    originalOwnerPriority := (s.kernel.tcb c).basePriority }) (Or.inl ho.symm)
  simp only [Mutex.lockResume, Mutex.lockReturn, hstatus, if_true]
  refine ⟨fun t ht hidle hnone => ?_, hset.inherit⟩
  have htc : t ≠ c := by
    rintro rfl
    exact hnone m (by simp)
  rw [setPc_pc_of_ne _ _ _ htc] at hidle
  exact hset.base t ht hidle hnone

/-- **A step keeps the priorities right exactly if they are accounted for.** -/
theorem PriorityRight.step_iff (hq : s.Queued) (hp : s.PriorityRight) {a : Api}
    (hs : Api.MutexStep s a s') : s'.PriorityRight ↔ s.Accounted a := by
  obtain ⟨⟨hallowed, ha⟩, rfl⟩ := hs
  cases a with
  | sched => exact ha.elim
  | dispatch t =>
    exact iff_of_true ⟨hp.base, hp.inherit⟩ trivial
  | lock m timeout =>
    obtain rfl : timeout = waitForever := ha
    exact lock_iff hq hp hallowed
  | resume =>
    refine iff_of_true ?_ trivial
    obtain ⟨c, m, timeout, hc, hpc, e⟩ := Api.returned_cases hallowed
    have hW := ha _ (Api.returned_eq hc hpc) c hc
    rw [e]
    rcases hq.calls c with hidle | ⟨n, hn⟩
    · exact absurd (hidle.symm.trans hpc) (by simp)
    · obtain ⟨rfl, rfl⟩ := Pc.mutexWait.inj (hn.symm.trans hpc)
      exact hp.resume hq hpc hW
  | unlock m => exact unlock_iff hq hp hallowed

/-! ## Runs -/

theorem queued_init {k : Kernel} (hW : ∀ m, (k.waitLists (.mutex m)).nodes = [])
    (sems : ℕ → Semaphore) : (System.init k sems).Queued := by
  have hnil : ∀ m, (System.init k sems).waiters m = [] := hW
  have hmem : ∀ m t, t ∉ (System.init k sems).waiters m := fun m t ht => by
    rw [hnil] at ht
    exact absurd ht (by simp)
  exact
    { magic := fun _ => rfl
      nodup := fun m => by rw [hnil]; exact List.nodup_nil
      linked := fun m t ht => absurd ht (hmem m t)
      waiting := fun m t ht => absurd ht (hmem m t)
      calls := fun _ => Or.inl rfl
      handed := fun _ _ ht => absurd ht (by simp [System.init])
      owner := fun _ _ ht => absurd ht (by simp [System.init, Mutex.fresh])
      free := fun m _ => hnil m }

/-- **When the priorities are right.**  Take any run of locks without a timeout and of unlocks, of
any number of mutexes by any number of tasks, from a state in which nobody waits for a mutex and
every task has its base priority.  In every state on the way a task that neither holds a mutex nor
waits for one has its base priority, and every owner at least the priority of its waiters, exactly
if every release and every wait is accounted for. -/
theorem priority_bookkeeping_iff {k : Kernel} (hW : ∀ m, (k.waitLists (.mutex m)).nodes = [])
    (hbase : ∀ t, k.Live t → (k.tcb t).priority = (k.tcb t).basePriority)
    (sems : ℕ → Semaphore) (steps : List Api) (s : System) :
    Trace.AllStates Api.MutexStep PriorityRight (System.init k sems) steps s ↔
      Trace.AllSteps Api.MutexStep (fun s a _ => s.Accounted a) (System.init k sems) steps s := by
  refine Trace.allStates_iff (I := fun s => s.Queued ∧ s.PriorityRight) (fun _ h => h.2)
    (fun s a s' h hs hC => ⟨h.1.step hs, (h.2.step_iff h.1 hs).2 hC⟩)
    (fun s a s' h hs h' => (h.2.step_iff h.1 hs).1 h') ⟨queued_init hW sems, ?_⟩
  refine ⟨fun t ht _ _ => hbase t ht, fun m t w _ hw => absurd hw ?_⟩
  rw [show (System.init k sems).waiters m = [] from hW m]
  exact List.not_mem_nil

/-- Tasks 1 and 2, of priorities 1 and 5, after the start. -/
def lowAndHigh : Kernel :=
  [.create (.ofPriority 1) 1, .create (.ofPriority 5) 2, .start .ok].foldl Call.run
    (initWithConfig bss none 0).1

/-- Task 1 locks a mutex, task 2 waits for it, task 1 releases it, and task 2 comes back. -/
def boostAndRestore : List Api :=
  [.dispatch 1, .lock 0 waitForever, .dispatch 2, .lock 0 waitForever, .dispatch 1, .unlock 0,
    .dispatch 2, .resume]

/-- One mutex, taken and passed on: all priorities stay right. -/
theorem priority_bookkeeping_iff_one_mutex :
    Trace.AllStates Api.MutexStep PriorityRight
      (System.init lowAndHigh fun _ => ⟨0, 1, semMagicWord⟩) boostAndRestore
      (boostAndRestore.foldl Api.run (System.init lowAndHigh fun _ => ⟨0, 1, semMagicWord⟩)) := by
  have hbase : ∀ t ∈ lowAndHigh.taskRegistry.nodes,
      (lowAndHigh.tcb t).priority = (lowAndHigh.tcb t).basePriority := by decide +kernel
  refine (priority_bookkeeping_iff (fun _ => rfl) hbase _ boostAndRestore _).2
    (Trace.allSteps_of_guards ⟨trivial, ?_, trivial, ?_, trivial, ?_, trivial, trivial, trivial⟩)
  · rintro c o - ho
    exact absurd (show none = some o from ho) (by simp)
  · rintro c o - - - n p hon
    exact absurd hon List.not_mem_nil
  · rintro c ⟨hc, -, -⟩
    obtain rfl : 1 = c := Option.some_inj.1 hc
    refine ⟨fun _ _ => rfl, fun n w hn ho => ?_, fun w u hw hu => ?_⟩
    · cases n with
      | zero => exact absurd rfl hn
      | succ n => exact absurd (show none = some 1 from ho) (by simp)
    · obtain rfl : 2 = w := Option.some_inj.1 (show some 2 = some w from hw)
      obtain rfl : u = 2 := List.mem_singleton.1 (show u ∈ [2] from hu)
      exact le_refl _

/-- Task 1, of priority 1, locks two mutexes; task 2, of priority 5, preempts it and waits for the
second; task 1 releases the first. -/
def keptMutex : List Api :=
  [.sched (.create (.ofPriority 1) 1), .sched (.start .ok), .lock 0 waitForever,
    .lock 1 waitForever, .sched (.create (.ofPriority 5) 2), .lock 1 waitForever, .unlock 0]

/-- Task 1 locks a mutex; task 2 preempts it and waits for it; task 1 locks a second one, and
releases both in the order in which it got them. -/
def staleRecord : List Api :=
  [.sched (.create (.ofPriority 1) 1), .sched (.start .ok), .lock 0 waitForever,
    .sched (.create (.ofPriority 5) 2), .lock 0 waitForever, .lock 1 waitForever, .unlock 0,
    .unlock 1]

/-- **An inherited priority given up too early, and one kept for ever.**  In the first run task 1
has priority 1 while a task of priority 5 waits for a mutex it holds; in the second it holds nothing
and has priority 5. -/
theorem priority_lost_or_kept :
    (∃ s, Trace Api.Step freshSystem keptMutex s ∧ (s.mutexes 1).owner = some 1 ∧
      2 ∈ s.waiters 1 ∧ s.priority 1 = 1 ∧ s.priority 2 = 5 ∧ ¬ s.PriorityRight) ∧
    (∃ s, Trace Api.Step freshSystem staleRecord s ∧ s.kernel.Live 1 ∧ s.pc 1 = .idle ∧
      (∀ m, (s.mutexes m).owner ≠ some 1) ∧ s.priority 1 = 5 ∧ s.basePriority 1 = 1 ∧
      ¬ s.PriorityRight) := by
  constructor
  · have ho : ((keptMutex.foldl Api.run freshSystem).mutexes 1).owner = some 1 := by decide +kernel
    have hW : 2 ∈ (keptMutex.foldl Api.run freshSystem).waiters 1 := by decide +kernel
    have h1 : (keptMutex.foldl Api.run freshSystem).priority 1 = 1 := by decide +kernel
    have h2 : (keptMutex.foldl Api.run freshSystem).priority 2 = 5 := by decide +kernel
    refine ⟨_, Trace.of_guards (by decide +kernel), ho, hW, h1, h2, fun h => ?_⟩
    have hinherit := h.inherit 1 1 2 ho hW
    omega
  · have hlive : (staleRecord.foldl Api.run freshSystem).kernel.Live 1 := by decide +kernel
    have hpc : (staleRecord.foldl Api.run freshSystem).pc 1 = .idle := by decide +kernel
    have hnone : ∀ m, ((staleRecord.foldl Api.run freshSystem).mutexes m).owner ≠ some 1 := by
      intro m
      rcases m with _ | _ | m
      · decide +kernel
      · decide +kernel
      · exact fun e => absurd (show none = some 1 from e) (by simp)
    have h1 : (staleRecord.foldl Api.run freshSystem).priority 1 = 5 := by decide +kernel
    have hb : (staleRecord.foldl Api.run freshSystem).basePriority 1 = 1 := by decide +kernel
    refine ⟨_, Trace.of_guards (by decide +kernel), hlive, hpc, hnone, h1, hb, fun h => ?_⟩
    have hbase := h.base 1 hlive hpc hnone
    omega

end System

end Sertos
