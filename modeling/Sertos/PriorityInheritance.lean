import Mathlib.Data.List.Perm.Basic
import Sertos.PriorityBookkeeping

/-!
# Exact priority inheritance for one mutex

With a single mutex nothing of what goes wrong across several mutexes can happen: an owner waits for
nobody, a waiter owns nothing, and the priority that the mutex records is the base priority of its
owner.  So the priorities are not only bounded but known: the owner has the highest of its own base
priority and the priorities of the tasks waiting for the mutex, and every other task has its base
priority (`ExactInheritance`).

What carries this over a hand-over is the order of the wait list: the task that gets the mutex comes
from its head, so nobody behind it has a higher priority.
-/

set_option autoImplicit false

namespace Sertos

open Intrusive Lts Scheduler

/-- The steps of `Api.OnMutexes` on the one mutex `m`, by tasks that have been created. -/
def Api.OnOneMutex (m : ℕ) (s : System) (a : Api) : Prop :=
  a.OnMutexes s ∧ match a with
    | .lock n _ => n = m ∧ ∀ c ∈ s.kernel.currentTcb, s.kernel.Live c
    | .unlock n => n = m
    | .sched _ | .dispatch _ | .resume => True

instance (m : ℕ) (s : System) : DecidablePred (Api.OnOneMutex m s)
  | .lock n timeout => inferInstanceAs (Decidable ((Api.lock n timeout).OnMutexes s ∧
      n = m ∧ ∀ c ∈ s.kernel.currentTcb, s.kernel.Live c))
  | .unlock n => inferInstanceAs (Decidable ((Api.unlock n).OnMutexes s ∧ n = m))
  | .sched a => inferInstanceAs (Decidable ((Api.sched a).OnMutexes s ∧ True))
  | .dispatch t => inferInstanceAs (Decidable ((Api.dispatch t).OnMutexes s ∧ True))
  | .resume => inferInstanceAs (Decidable (Api.resume.OnMutexes s ∧ True))

/-- One step of a run of calls on the mutex `m`. -/
abbrev Api.OneMutexStep (m : ℕ) : System → Api → System → Prop :=
  Guarded (Api.OnOneMutex m) Api.run

/-- A running scheduler queues a caller that finds the mutex taken. -/
theorem Mutex.lock_eq_wait {s : System} {m timeout : ℕ} {c o : TaskId}
    (hmagic : (s.mutexes m).magic = mutexMagicWord) (hc : s.kernel.currentTcb = some c)
    (ho : (s.mutexes m).owner = some o) (hoc : o ≠ c) (ht : timeout ≠ noWait)
    (hrun : s.kernel.isRunning = true) :
    Mutex.lock s m timeout = (({ s with
      kernel := switchContext (waitListBlockSection (applyPriorityInheritance s.kernel o c) c
        (.mutex m) timeout) } : System).setPc c (.mutexWait m timeout), none) := by
  have hframe := applyPriorityInheritance_frame s.kernel o c
  have hcur : (applyPriorityInheritance s.kernel o c).currentTcb = some c := by
    rw [hframe]
    exact hc
  have hrun' : (applyPriorityInheritance s.kernel o c).isRunning = true := by
    rw [hframe]
    exact hrun
  simp only [Mutex.lock, hmagic, ne_eq, not_true_eq_false, if_false, hc,
    lockSection_of_other ho hoc, ht, waitListBlock, hcur, hrun']

namespace System

/-- The highest of the base priority of `o` and the priorities of the tasks waiting for `m`. -/
def inheritedPriority (s : System) (m : ℕ) (o : TaskId) : ℕ :=
  ((s.waiters m).map s.priority).foldr max (s.basePriority o)

/-- The priorities are exactly what the one mutex `m` accounts for. -/
structure ExactInheritance (m : ℕ) (s : System) : Prop where
  free : (s.mutexes m).owner = none → s.waiters m = []
  owner : ∀ o, (s.mutexes m).owner = some o → s.priority o = s.inheritedPriority m o
  others : ∀ t, s.kernel.Live t → (s.mutexes m).owner ≠ some t → s.priority t = s.basePriority t
  recorded : ∀ o, (s.mutexes m).owner = some o →
    (s.mutexes m).originalOwnerPriority = s.basePriority o

/-- The invariant of the runs on one mutex, beside `Queued`. -/
structure Inherits (m : ℕ) (s : System) : Prop extends ExactInheritance m s where
  running : s.kernel.isRunning = true
  ownerLive : ∀ o, (s.mutexes m).owner = some o → s.kernel.Live o
  waiterLive : ∀ t ∈ s.waiters m, s.kernel.Live t
  /-- The wait list is ordered by priority. -/
  ordered : (s.kernel.waitLists (.mutex m)).Descending s.priority

variable {s s' : System} {m : ℕ} {c o : TaskId}

/-! ## The inherited priority -/

theorem inheritedPriority_of_nil (h : s.waiters m = []) :
    s.inheritedPriority m o = s.basePriority o := by
  rw [inheritedPriority, h]
  rfl

/-- Nobody's priority counts if all are at most the base priority. -/
theorem inheritedPriority_eq_base (h : ∀ t ∈ s.waiters m, s.priority t ≤ s.basePriority o) :
    s.inheritedPriority m o = s.basePriority o := by
  have hmap : ∀ x ∈ (s.waiters m).map s.priority, x ≤ s.basePriority o := by
    intro x hx
    obtain ⟨t, ht, rfl⟩ := List.mem_map.1 hx
    exact h t ht
  rw [inheritedPriority]
  generalize (s.waiters m).map s.priority = l at hmap
  induction l with
  | nil => rfl
  | cons x l ih =>
    rw [List.foldr_cons, ih fun y hy => hmap y (List.mem_cons_of_mem _ hy)]
    exact Nat.max_eq_right (hmap x List.mem_cons_self)

/-- One more waiter raises the inherited priority to its own. -/
theorem inheritedPriority_cons (hW : (s'.waiters m).Perm (c :: s.waiters m))
    (hprio : ∀ t ∈ s'.waiters m, s'.priority t = s.priority t)
    (hbase : s'.basePriority o = s.basePriority o) :
    s'.inheritedPriority m o = max (s.inheritedPriority m o) (s.priority c) := by
  have hmap : (s'.waiters m).map s'.priority = (s'.waiters m).map s.priority :=
    List.map_congr_left hprio
  rw [inheritedPriority, hmap, hbase, (hW.map s.priority).foldr_eq, List.map_cons,
    List.foldr_cons, max_comm]
  rfl

/-! ## The steps -/

/-- Steps that change none of the priorities, and neither the owner nor the wait list. -/
theorem Inherits.congr (h : s.Inherits m) (howner : (s'.mutexes m).owner = (s.mutexes m).owner)
    (hrecorded : ∀ o, (s.mutexes m).owner = some o →
      (s'.mutexes m).originalOwnerPriority = s.basePriority o)
    (hW : s'.kernel.waitLists = s.kernel.waitLists) (htcb : s'.kernel.tcb = s.kernel.tcb)
    (hreg : s'.kernel.taskRegistry = s.kernel.taskRegistry)
    (hrun : s'.kernel.isRunning = s.kernel.isRunning) : s'.Inherits m := by
  have hprio : s'.priority = s.priority := by
    funext t
    rw [priority, priority, htcb]
  have hbase : s'.basePriority = s.basePriority := by
    funext t
    rw [basePriority, basePriority, htcb]
  have hwait : s'.waiters m = s.waiters m := by rw [waiters, waiters, hW]
  have hlive : ∀ t, s'.kernel.Live t ↔ s.kernel.Live t := fun t => by
    rw [Kernel.Live, Kernel.Live, hreg]
  constructor
  · constructor
    · rw [howner, hwait]
      exact h.free
    · intro o ho
      rw [howner] at ho
      rw [hprio, inheritedPriority, hwait, hprio, hbase]
      exact h.owner o ho
    · intro t ht ho
      rw [howner] at ho
      rw [hprio, hbase]
      exact h.others t ((hlive t).1 ht) ho
    · intro o ho
      rw [howner] at ho
      rw [hbase]
      exact hrecorded o ho
  · rw [hrun]
    exact h.running
  · exact fun o ho => (hlive o).2 (h.ownerLive o (howner ▸ ho))
  · intro t ht
    rw [hwait] at ht
    exact (hlive t).2 (h.waiterLive t ht)
  · rw [hW, hprio]
    exact h.ordered

/-- The caller takes the free mutex. -/
theorem Inherits.acquire (h : s.Inherits m) (hlive : s.kernel.Live c)
    (ho : (s.mutexes m).owner = none) :
    (s.setMutex m { s.mutexes m with
      owner := some c
      lockCount := 1
      originalOwnerPriority := (s.kernel.tcb c).priority }).Inherits m := by
  have hbase : s.priority c = s.basePriority c := h.others c hlive (by rw [ho]; simp)
  have howner : ∀ o, ((s.setMutex m { s.mutexes m with
      owner := some c
      lockCount := 1
      originalOwnerPriority := (s.kernel.tcb c).priority }).mutexes m).owner = some o → c = o := by
    intro o e
    rw [setMutex_mutexes_same] at e
    exact Option.some_inj.1 e
  constructor
  · constructor
    · intro e
      rw [setMutex_mutexes_same] at e
      exact absurd e (by simp)
    · intro o e
      obtain rfl := howner o e
      exact hbase.trans (inheritedPriority_of_nil (h.free ho)).symm
    · intro t ht _
      exact h.others t ht (by rw [ho]; simp)
    · intro o e
      obtain rfl := howner o e
      rw [setMutex_mutexes_same]
      exact hbase
  · exact h.running
  · intro o e
    obtain rfl := howner o e
    exact hlive
  · exact h.waiterLive
  · exact h.ordered

/-- The caller finds the mutex taken, raises its owner and waits. -/
theorem Inherits.wait (hq : s.Queued) (h : s.Inherits m) (hcl : s.kernel.Live c)
    (ho : (s.mutexes m).owner = some o) (hoc : o ≠ c) {k : Kernel} (hw : s.Waited m o c k) :
    (({ s with kernel := k } : System).setPc c (.mutexWait m waitForever)).Inherits m := by
  set s' : System := ({ s with kernel := k } : System).setPc c (.mutexWait m waitForever) with hs'
  have hnoto : o ∉ s.waiters m := hq.owner m o ho
  -- only the priority of the owner changes
  have hself : s'.priority o = max (s.priority o) (s.priority c) :=
    (hw.priority o).trans (if_pos rfl)
  have hne : ∀ t, t ≠ o → s'.priority t = s.priority t := fun t ht =>
    (hw.priority t).trans (if_neg ht)
  have hbase : ∀ t, s'.basePriority t = s.basePriority t := hw.basePriority
  have hperm : (s'.waiters m).Perm (c :: s.waiters m) := by
    rw [waiters, hs', setPc_kernel, hw.list]
    exact LinkedList.perm_insertByKey _ _ c
  have hmem : ∀ t ∈ s'.waiters m, t ≠ o := by
    intro t ht
    rcases List.mem_cons.1 (hperm.mem_iff.1 ht) with rfl | ht
    · exact Ne.symm hoc
    · exact fun e => hnoto (e ▸ ht)
  have hlive : ∀ t, s'.kernel.Live t ↔ s.kernel.Live t := fun t => by
    rw [Kernel.Live, Kernel.Live, hs', setPc_kernel, hw.registry]
  constructor
  · constructor
    · exact fun e => absurd (ho.symm.trans e) (by simp)
    · intro o' ho'
      obtain rfl := Option.some_inj.1 (ho.symm.trans ho')
      rw [inheritedPriority_cons hperm (fun t ht => hne t (hmem t ht)) (hbase o), hself,
        ← h.owner o ho]
    · intro t ht hto
      have hto' : t ≠ o := fun e => hto (e ▸ ho)
      rw [hne t hto', hbase]
      exact h.others t ((hlive t).1 ht) hto
    · intro o' ho'
      rw [hbase]
      exact h.recorded o' ho'
  · exact hw.isRunning.trans h.running
  · exact fun o' ho' => (hlive o').2 (h.ownerLive o' ho')
  · intro t ht
    rcases List.mem_cons.1 (hperm.mem_iff.1 ht) with rfl | ht
    · exact (hlive t).2 hcl
    · exact (hlive t).2 (h.waiterLive t ht)
  · -- the owner, whose key changes, is not in the list
    have hold : (s.kernel.waitLists (.mutex m)).Descending s'.priority := by
      refine h.ordered.imp_of_mem fun {a b} ha hb hab => ?_
      have hkey : ∀ t ∈ s.waiters m, s'.priority t = s.priority t := fun t ht =>
        hne t fun e => hnoto (e ▸ ht)
      exact (hkey b hb).trans_le (hab.trans_eq (hkey a ha).symm)
    rw [hs', setPc_kernel, hw.list]
    exact hold.insertByKey c

theorem Inherits.lock (hq : s.Queued) (h : s.Inherits m)
    (hlive : ∀ c ∈ s.kernel.currentTcb, s.kernel.Live c) :
    (Mutex.lock s m waitForever).1.Inherits m := by
  have hmagic : ¬ (s.mutexes m).magic ≠ mutexMagicWord := not_not.2 (hq.magic m)
  cases hc : s.kernel.currentTcb with
  | none =>
    rw [Mutex.lock, if_neg hmagic, hc]
    exact h
  | some c =>
    have hcl := hlive c hc
    cases ho : (s.mutexes m).owner with
    | none =>
      rw [Mutex.lock, if_neg hmagic]
      simp only [hc, Mutex.lockSection_of_free ho]
      exact h.acquire hcl ho
    | some o =>
      by_cases hoc : o = c
      · subst hoc
        rw [Mutex.lock, if_neg hmagic]
        simp only [hc, Mutex.lockSection_of_owner ho]
        refine h.congr ?_ (fun o' ho' => ?_) rfl rfl rfl rfl <;> rw [setMutex_mutexes_same]
        exact h.recorded o' ho'
      · rw [Mutex.lock_eq_wait (hq.magic m) hc ho hoc (by decide) h.running]
        exact h.wait hq hcl ho hoc (s.waited m waitForever o c)

theorem Inherits.resume (hq : s.Queued) (h : s.Inherits m)
    (hpc : s.pc c = .mutexWait m waitForever) (hW : c ∉ s.waiters m) :
    (Mutex.lockResume s m c waitForever).1.Inherits m := by
  have ho := hq.handed c m hpc hW
  have hstatus := waitListBlockStatus_forever s.kernel c
  simp only [Mutex.lockResume, Mutex.lockReturn, hstatus, if_true]
  refine h.congr ?_ (fun o ho' => ?_) rfl rfl rfl rfl <;>
    rw [setPc_mutexes, setMutex_mutexes_same]
  · exact ho.symm
  · obtain rfl := Option.some_inj.1 (ho.symm.trans ho')
    rfl

/-- The owner releases the mutex for the last time: it gets its base priority back, and the first
waiter, behind whom nobody has a higher priority, becomes the owner. -/
theorem Inherits.release (hq : s.Queued) (h : s.Inherits m) (hpc : s.pc c = .idle)
    (ho : (s.mutexes m).owner = some c) {k : Kernel} {x : Mutex} (hr : s.Released m c k x)
    (hrun : k.isRunning = s.kernel.isRunning)
    (hrecorded : ∀ w, (s.waiters m).head? = some w → x.originalOwnerPriority = s.basePriority w) :
    (({ s with kernel := k } : System).setMutex m x).Inherits m := by
  set s' : System := ({ s with kernel := k } : System).setMutex m x with hs'
  have hrest : s'.waiters m = (s.waiters m).tail := hr.rest
  have hnew : (s'.mutexes m).owner = (s.waiters m).head? := by
    rw [hs', setMutex_mutexes_same, hr.owner]
  have hbase : ∀ t, s'.basePriority t = s.basePriority t := hr.basePriority
  have hself : s'.priority c = s.basePriority c :=
    ((hr.priority c).trans (if_pos rfl)).trans (h.recorded c ho)
  have hne : ∀ t, t ≠ c → s'.priority t = s.priority t := fun t ht =>
    (hr.priority t).trans (if_neg ht)
  have hlive : ∀ t, s'.kernel.Live t ↔ s.kernel.Live t := fun t => by
    rw [Kernel.Live, Kernel.Live, ← hr.registry]
    rfl
  have hwc : ∀ t ∈ s.waiters m, t ≠ c := fun t ht e => hq.not_waiting hpc m (e ▸ ht)
  -- after the release everybody has its base priority
  have hall : ∀ t, s.kernel.Live t → s'.priority t = s.basePriority t := by
    intro t ht
    by_cases htc : t = c
    · rw [htc, hself]
    · rw [hne t htc]
      exact h.others t ht fun e => htc (Option.some_inj.1 (ho.symm.trans e)).symm
  have hhead : ∀ w, (s.waiters m).head? = some w → s.kernel.Live w := fun w hw =>
    h.waiterLive w (List.mem_of_mem_head? hw)
  have htail : ∀ t ∈ (s.waiters m).tail, t ∈ s.waiters m := fun t ht => List.mem_of_mem_tail ht
  constructor
  · constructor
    · intro e
      rw [hnew, List.head?_eq_none_iff] at e
      rw [hrest, e]
      rfl
    · intro w hw
      rw [hnew] at hw
      rw [hall w (hhead w hw), ← hbase w]
      refine (inheritedPriority_eq_base fun t ht => ?_).symm
      rw [hrest] at ht
      have htm := htail t ht
      obtain ⟨rest, hlist⟩ := List.head?_eq_some_iff.1 hw
      have hordered := h.ordered
      rw [LinkedList.Descending, show (s.kernel.waitLists (.mutex m)).nodes = w :: rest from hlist,
        List.pairwise_cons] at hordered
      rw [hlist, List.tail_cons] at ht
      rw [hne t (hwc t htm), hbase, ← hall w (hhead w hw),
        hne w (hwc w (List.mem_of_mem_head? hw))]
      exact hordered.1 t ht
    · intro t ht _
      rw [hbase]
      exact hall t ((hlive t).1 ht)
    · intro w hw
      rw [hnew] at hw
      rw [hs', setMutex_mutexes_same, hrecorded w hw, ← hs', hbase]
  · exact hrun.trans h.running
  · intro w hw
    rw [hnew] at hw
    exact (hlive w).2 (hhead w hw)
  · intro t ht
    rw [hrest] at ht
    exact (hlive t).2 (h.waiterLive t (htail t ht))
  · have htail' : ((s.waiters m).tail).Pairwise fun a b => s.priority b ≤ s.priority a :=
      List.Pairwise.sublist (List.tail_sublist _) h.ordered
    rw [LinkedList.Descending, show (s'.kernel.waitLists (.mutex m)).nodes = (s.waiters m).tail from
      hrest]
    refine htail'.imp_of_mem fun {a b} ha hb hab => ?_
    rw [hne a (hwc a (htail a ha)), hne b (hwc b (htail b hb))]
    exact hab

/-- The mutex records the base priority of the task it is handed to. -/
theorem unlock_recorded (hr : s.FullRelease m c)
    (hmagic : (s.mutexes m).magic = mutexMagicWord) {w : TaskId}
    (hw : (s.waiters m).head? = some w) :
    ((Mutex.unlock s m).1.mutexes m).originalOwnerPriority = s.basePriority w := by
  rcases hr.unlock_cases hmagic with ⟨hW, -⟩ | ⟨w', rest, hW, e⟩
  · exact absurd (hW ▸ hw) (by simp)
  · obtain rfl : w' = w := by
      rw [hW] at hw
      exact Option.some_inj.1 hw
    rw [e, setMutex_mutexes_same]
    exact Mutex.handedKernel_basePriority hW w'

theorem unlock_isRunning (s : System) (m : ℕ) :
    (Mutex.unlock s m).1.kernel.isRunning = s.kernel.isRunning := by
  have he := Mutex.unlock_effect s m
  generalize Mutex.unlock s m = r at he ⊢
  cases he with
  | invalid | nested => rfl
  | release =>
    rw [setMutex_kernel, reschedule_frame, Mutex.restoreOwnerPriority_frame]
  | handOver =>
    rw [setMutex_kernel, reschedule_frame, Mutex.handedKernel, unblockHighest_frame,
      Mutex.restoreOwnerPriority_frame]

theorem Inherits.unlock (hq : s.Queued) (h : s.Inherits m) (hcall : s.InNoCall) :
    (Mutex.unlock s m).1.Inherits m := by
  by_cases hr : ∃ c, s.FullRelease m c
  · obtain ⟨c, hr⟩ := hr
    have hrun := unlock_isRunning s m
    have hrec := fun w hw => unlock_recorded hr (hq.magic m) (w := w) hw
    obtain ⟨k, x, e, hrel⟩ := hq.released hr
    rw [e] at hrun hrec ⊢
    refine h.release hq (hcall.idle hr.1) hr.2.1 hrel hrun fun w hw => ?_
    rw [← hrec w hw, setMutex_mutexes_same]
  · rcases unlock_cases_of_not_fullRelease hr with e | e <;> rw [e]
    · exact h
    · refine h.congr ?_ (fun o ho => ?_) rfl rfl rfl rfl <;> rw [setMutex_mutexes_same]
      exact h.recorded o ho

theorem Inherits.step (hq : s.Queued) (h : s.Inherits m) {a : Api}
    (hs : Api.OneMutexStep m s a s') : s'.Inherits m := by
  obtain ⟨⟨⟨hallowed, ha⟩, hm⟩, rfl⟩ := hs
  cases a with
  | sched => exact ha.elim
  | dispatch t => exact h.congr rfl h.recorded rfl rfl rfl rfl
  | lock n timeout =>
    obtain rfl : timeout = waitForever := ha
    obtain ⟨rfl, hlive⟩ := hm
    exact h.lock hq hlive
  | resume =>
    obtain ⟨c, n, timeout, hc, hpc, e⟩ := Api.returned_cases hallowed
    have hW := ha _ (Api.returned_eq hc hpc) c hc
    rw [e]
    rcases hq.calls c with hidle | ⟨n', hn⟩
    · exact absurd (hidle.symm.trans hpc) (by simp)
    · obtain ⟨rfl, rfl⟩ := Pc.mutexWait.inj (hn.symm.trans hpc)
      by_cases hnm : n' = m
      · subst hnm
        exact h.resume hq hpc hW
      · have hother : (Mutex.lockResume s n' c waitForever).1.mutexes m = s.mutexes m := by
          simp only [Mutex.lockResume, Mutex.lockReturn, setPc_mutexes]
          split
          · exact setMutex_mutexes_of_ne _ _ _ (Ne.symm hnm)
          · rfl
        have hkernel := Mutex.lockResume_kernel s n' c waitForever
        refine h.congr (by rw [hother]) (fun o ho => ?_) ?_ ?_ ?_ ?_
        · rw [hother]
          exact h.recorded o ho
        all_goals rw [hkernel]
  | unlock n =>
    obtain rfl : n = m := hm
    exact h.unlock hq hallowed

/-! ## Runs -/

/-- **Exact priority inheritance.**  Take any run of locks, without a timeout, and unlocks of one
mutex by any number of tasks of any base priorities, with any scheduling, from a state of the
running scheduler in which nobody waits for the mutex and every task has its base priority.  In
every state the mutex is free only if nobody waits for it, its owner has the highest of its own base
priority and the priorities of the waiting tasks, every other task has its base priority, and the
priority the mutex has recorded is the base priority of the owner. -/
theorem exact_priority_inheritance {k : Kernel} (hrun : k.isRunning = true)
    (hW : ∀ m, (k.waitLists (.mutex m)).nodes = [])
    (hbase : ∀ t, k.Live t → (k.tcb t).priority = (k.tcb t).basePriority)
    {sems : ℕ → Semaphore} {m : ℕ} {steps : List Api} {s : System}
    (h : Trace (Api.OneMutexStep m) (System.init k sems) steps s) : s.ExactInheritance m := by
  have hnil : (System.init k sems).waiters m = [] := hW m
  have hnone : ∀ o, ((System.init k sems).mutexes m).owner ≠ some o := fun o =>
    by simp [System.init, Mutex.fresh]
  have h₀ : (System.init k sems).Inherits m :=
    { free := fun _ => hnil
      owner := fun o ho => absurd ho (hnone o)
      others := fun t ht _ => hbase t ht
      recorded := fun o ho => absurd ho (hnone o)
      running := hrun
      ownerLive := fun o ho => absurd ho (hnone o)
      waiterLive := fun t ht => absurd (hnil ▸ ht) (by simp)
      ordered := by
        rw [LinkedList.Descending, show ((System.init k sems).kernel.waitLists (.mutex m)).nodes = []
          from hW m]
        exact List.Pairwise.nil }
  have hrunInv := h.invariant (I := fun s => s.Queued ∧ s.Inherits m)
    (fun s a s' hI hs => ⟨hI.1.step ⟨hs.1.1, hs.2⟩, hI.2.step hI.1 hs⟩) ⟨queued_init hW sems, h₀⟩
  exact hrunInv.2.toExactInheritance

/-- Task 1 locks the mutex twice, tasks 3 and 2 wait for it, and task 1 releases it. -/
def contendedMutex : List Api :=
  [.dispatch 1, .lock 0 waitForever, .lock 0 waitForever, .dispatch 2, .lock 0 waitForever,
    .dispatch 3, .lock 0 waitForever, .dispatch 1, .unlock 0]

/-- Tasks 1, 2 and 3, of priorities 1, 5 and 3, after the start. -/
def lowHighMiddle : Kernel :=
  [.create (.ofPriority 1) 1, .create (.ofPriority 5) 2, .create (.ofPriority 3) 3,
    .start .ok].foldl Call.run (initWithConfig bss none 0).1

/-- Task 1 still holds the mutex and has the priority of task 2. -/
theorem exact_priority_inheritance_contended :
    ∃ s, Trace (Api.OneMutexStep 0) (System.init lowHighMiddle fun _ => ⟨0, 1, semMagicWord⟩)
      contendedMutex s ∧ (s.mutexes 0).owner = some 1 ∧ s.waiters 0 = [2, 3] ∧ s.priority 1 = 5 ∧
      s.ExactInheritance 0 := by
  have hbase : ∀ t ∈ lowHighMiddle.taskRegistry.nodes,
      (lowHighMiddle.tcb t).priority = (lowHighMiddle.tcb t).basePriority := by decide +kernel
  have hrun : Trace (Api.OneMutexStep 0) (System.init lowHighMiddle fun _ => ⟨0, 1, semMagicWord⟩)
      contendedMutex _ := Trace.of_guards (by decide +kernel)
  exact ⟨_, hrun, by decide +kernel, by decide +kernel, by decide +kernel,
    exact_priority_inheritance (by decide +kernel) (fun _ => rfl) hbase hrun⟩

end System

end Sertos
