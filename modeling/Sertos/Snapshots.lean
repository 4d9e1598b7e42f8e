import Sertos.Cycle
import Sertos.StatsQueries

/-!
# Statistics snapshots

A `Roster` is the kernel beside the list of the tasks that were created and not deleted, in the
order of their creation, which is not read by the code.  The registry is that list
(`Roster.Kept.run`), whatever else the run does.

Everything the queries report is computed from the registry, so a snapshot describes the tasks of
the roster: `Stats.Snapshot` is what a call of `sertos_stats_get_tasks` leaves in the array of its
caller, and how that fits with the other two queries, and `snapshots_consistent` says that it always
does, as long as the number of tasks is a `uint32_t`.
-/

set_option autoImplicit false

namespace Sertos

open Intrusive Lts Scheduler Shares

/-! ## Runs -/

/-- The kernel, the magic words of the control blocks, and the tasks that were created and not
deleted. -/
structure Roster where
  kernel : Kernel
  magic : TaskId → ℕ
  tasks : List TaskId

namespace Roster

/-- One step of a run. -/
inductive Op
  | createStatic (config : TaskConfig) (t : TaskId)
  /-- `sertos_task_create`, with what `memory_pool_malloc` returns. -/
  | create (config : TaskConfig) (tcb : Option TaskId) (stackBuf : Option ℕ)
  | delete (handle : Option TaskId)
  | switch
  | reset
  /-- A call of the scheduler's interface that does not create a task. -/
  | call (a : Call)
deriving DecidableEq, Repr

/-- A task has been created at `t`. -/
def enter (s : Roster) (k : Kernel) (t : TaskId) : Roster :=
  ⟨k, Function.update s.magic t Task.magicWord, s.tasks ++ [t]⟩

/-- The state change of a step.  What the list becomes depends on the status of the call. -/
def run (s : Roster) : Op → Roster
  | .createStatic config t =>
    let r := Task.createStatic s.kernel config t
    if r.2 = .ok then s.enter r.1 t else { s with kernel := r.1 }
  | .create config tcb stackBuf =>
    let r := Task.create s.kernel config tcb stackBuf
    match tcb with
    | some t => if r.2 = .ok then s.enter r.1 t else { s with kernel := r.1 }
    | none => { s with kernel := r.1 }
  | .delete handle =>
    let r := Task.delete s.kernel s.magic handle
    match handle.or s.kernel.currentTcb with
    | some t =>
      if r.2 = .ok then { s with kernel := r.1, tasks := s.tasks.erase t }
      else { s with kernel := r.1 }
    | none => { s with kernel := r.1 }
  | .switch => { s with kernel := performSwitch s.kernel }
  | .reset => { s with kernel := s.kernel.statsReset }
  | .call a => { s with kernel := a.run s.kernel }

/-- A control block that is in use is not created again, and the Idle task is not deleted. -/
def Allowed (s : Roster) : Op → Prop
  | .createStatic _ t => t ∉ s.tasks
  | .create _ tcb _ => ∀ t ∈ tcb, t ∉ s.tasks
  | .delete handle => handle.or s.kernel.currentTcb ≠ some idleTcb
  | .call a => ¬ (Api.sched a).Creates
  | .switch | .reset => True

instance (s : Roster) : DecidablePred (Allowed s)
  | .createStatic _ t => inferInstanceAs (Decidable (t ∉ s.tasks))
  | .create _ none _ => .isTrue (by simp [Allowed])
  | .create _ (some t) _ => decidable_of_iff (t ∉ s.tasks) (by simp [Allowed])
  | .delete handle => inferInstanceAs (Decidable (handle.or s.kernel.currentTcb ≠ some idleTcb))
  | .call a => inferInstanceAs (Decidable (¬ (Api.sched a).Creates))
  | .switch | .reset => .isTrue trivial

abbrev Step : Roster → Op → Roster → Prop := Guarded Allowed run

/-- After the initialisation the Idle task is the only one. -/
def init (k : Kernel) : Roster :=
  ⟨k, Function.update (fun _ => 0) idleTcb Task.magicWord, [idleTcb]⟩

/-! ## The registry -/

section Registry

variable {k : Kernel} {t : TaskId} {a : Call}

theorem performSwitch_taskRegistry (k : Kernel) :
    (performSwitch k).taskRegistry = k.taskRegistry := by
  rw [performSwitch]
  split
  · rfl
  · exact dispatch_taskRegistry k _

theorem switchContext_taskRegistry (k : Kernel) :
    (switchContext k).taskRegistry = k.taskRegistry := by
  rw [switchContext]
  split
  · rfl
  · split
    · rfl
    · split
      · rfl
      · exact performSwitch_taskRegistry k

theorem reschedule_taskRegistry (k : Kernel) : (reschedule k).taskRegistry = k.taskRegistry :=
  Call.run_taskRegistry k (a := .reschedule) trivial

/-- Only creation and deletion touch the registry. -/
theorem run_taskRegistry_of_call (k : Kernel) (ha : ¬ (Api.sched a).Creates) :
    (a.run k).taskRegistry = k.taskRegistry := by
  have hcritical : (a.critical k).taskRegistry = k.taskRegistry := by
    refine (SameAccounts.critical (fun config t e => ha ?_) k).taskRegistry
    rw [e]
    trivial
  rw [← hcritical]
  rcases Call.run_cases k a with e | e | e | ⟨s, -, e⟩ <;> rw [e]
  · exact switchContext_taskRegistry _
  · exact reschedule_taskRegistry _
  · exact performSwitch_taskRegistry _

theorem enroll_taskRegistry (k : Kernel) (t : TaskId) (config : TaskConfig) :
    (if k.isRunning then reschedule (k.enroll t config) else k.enroll t config).taskRegistry.nodes
      = k.taskRegistry.nodes ++ [t] := by
  split
  · rw [reschedule_taskRegistry]
    rfl
  · rfl

/-- A deletion takes the task out, or finds it gone already. -/
theorem deleteSection_nodes (k : Kernel) (t : TaskId) :
    (Task.deleteSection k t).taskRegistry.nodes = k.taskRegistry.nodes.erase t := by
  by_cases ht : k.Live t
  · rw [Task.deleteSection_taskRegistry ht]
    rfl
  · have hwithdrawn : ¬ (Task.withdraw k t).Live t := by
      rwa [Kernel.Live, Task.withdraw_taskRegistry]
    rw [Task.deleteSection, Kernel.modify_taskRegistry, unregisterTask, if_neg hwithdrawn,
      Task.withdraw_taskRegistry, List.erase_of_not_mem ht]

theorem delete_nodes (k : Kernel) (t : TaskId) :
    (if k.currentTcb = some t ∧ (Task.deleteSection k t).isRunning then
        yield (Task.deleteSection k t) else Task.deleteSection k t).taskRegistry.nodes =
      k.taskRegistry.nodes.erase t := by
  rw [← deleteSection_nodes]
  split
  · exact congrArg LinkedList.nodes (Call.run_taskRegistry _ (a := .yield) trivial)
  · rfl

end Registry

/-- **The registry is the roster.** -/
structure Kept (s : Roster) : Prop where
  nodes : s.kernel.taskRegistry.nodes = s.tasks
  nodup : s.tasks.Nodup
  idle : idleTcb ∈ s.tasks

variable {s s' : Roster} {op : Op} {ops : List Op} {t : TaskId} {k : Kernel}

theorem Kept.setKernel (h : s.Kept) (hk : k.taskRegistry.nodes = s.kernel.taskRegistry.nodes) :
    Kept { s with kernel := k } :=
  ⟨hk.trans h.nodes, h.nodup, h.idle⟩

theorem Kept.enter (h : s.Kept) (ht : t ∉ s.tasks)
    (hk : k.taskRegistry.nodes = s.kernel.taskRegistry.nodes ++ [t]) : (s.enter k t).Kept := by
  refine ⟨hk.trans (by rw [h.nodes]; rfl), ?_, List.mem_append_left _ h.idle⟩
  rw [Roster.enter, List.nodup_append]
  refine ⟨h.nodup, List.nodup_singleton t, ?_⟩
  rintro u hu v hv rfl
  exact ht (List.mem_singleton.1 hv ▸ hu)

theorem Kept.leave (h : s.Kept) (ht : t ≠ idleTcb)
    (hk : k.taskRegistry.nodes = s.kernel.taskRegistry.nodes.erase t) :
    Kept { s with kernel := k, tasks := s.tasks.erase t } :=
  ⟨by rw [hk, h.nodes], h.nodup.erase t, (List.mem_erase_of_ne ht.symm).2 h.idle⟩

/-- **One step.** -/
theorem Kept.step (h : s.Kept) (hs : Step s op s') : s'.Kept := by
  obtain ⟨ha, rfl⟩ := hs
  cases op with
  | createStatic config t =>
    rcases Task.createStatic_cases s.kernel config t with ⟨hne, e⟩ | ⟨-, hok, e⟩
    · simp only [run, if_neg hne]
      exact h.setKernel (by rw [e])
    · simp only [run, if_pos hok]
      exact h.enter ha (by rw [e, enroll_taskRegistry])
  | create config tcb stackBuf =>
    rcases Task.create_cases s.kernel config tcb stackBuf with ⟨hne, e⟩ | ⟨t, a, rfl, hok, e⟩
    · cases tcb with
      | none => exact h.setKernel (by rw [e])
      | some t =>
        simp only [run, if_neg hne]
        exact h.setKernel (by rw [e])
    · simp only [run, if_pos hok]
      exact h.enter (ha t rfl) (by rw [e, enroll_taskRegistry])
  | delete handle =>
    rcases Task.delete_cases s.kernel s.magic handle with ⟨hne, e⟩ | ⟨t, ht, -, e⟩
    · cases hhandle : handle.or s.kernel.currentTcb with
      | none =>
        simp only [run, hhandle]
        exact h.setKernel (by rw [e])
      | some t =>
        simp only [run, hhandle, if_neg hne]
        exact h.setKernel (by rw [e])
    · have hidle : t ≠ idleTcb := fun hidle => ha (by rw [ht, hidle])
      simp only [run, ht, e, if_true]
      exact h.leave hidle (delete_nodes s.kernel t)
  | switch => exact h.setKernel (by rw [performSwitch_taskRegistry])
  | reset => exact h.setKernel rfl
  | call a => exact h.setKernel (by rw [run_taskRegistry_of_call _ ha])

theorem Kept.run (h : s.Kept) (hrun : Trace Step s ops s') : s'.Kept :=
  hrun.invariant (fun _ _ _ => Kept.step) h

theorem init_kept {mem : Kernel} {config : Option Config} {idleStack : ℕ}
    (hinit : (initWithConfig mem config idleStack).2 = .ok) :
    (init (initWithConfig mem config idleStack).1).Kept := by
  refine ⟨?_, List.nodup_singleton _, List.mem_singleton_self _⟩
  rw [init, (initWithConfig_eq hinit).1.taskRegistry]
  rfl

end Roster

/-! ## The records -/

namespace Stats

variable {k : Kernel} {info : TaskInfo} {tasks : List TaskId} {arr before after : ℕ → TaskStats}
  {capacity total i n : ℕ} {t : TaskId}

/-- The record of a task, with its share of the total. -/
def record (k : Kernel) (info : TaskInfo) (total : ℕ) (t : TaskId) : TaskStats :=
  { blankRecord k info t with
    cpuPercentX100 := computePercentX100 (k.stats.runTimeTotal t) total }

/-- What `fill_visitor` has done after visiting `tasks`. -/
structure Filled (k : Kernel) (info : TaskInfo) (arr : ℕ → TaskStats) (capacity : ℕ)
    (tasks : List TaskId) (fill : StatsFillContext) : Prop where
  capacity_eq : fill.capacity = capacity
  written_eq : fill.written = min capacity tasks.length
  total_eq : fill.total = runTimeSum k tasks % 2 ^ 64
  filled : ∀ i t, i < capacity → tasks[i]? = some t → fill.arr i = blankRecord k info t
  untouched : ∀ i, min capacity tasks.length ≤ i → fill.arr i = arr i

/-- One more visit. -/
theorem Filled.visit {fill : StatsFillContext} (h : Filled k info arr capacity tasks fill)
    (t : TaskId) : Filled k info arr capacity (tasks ++ [t]) (fillVisitor k info fill t) := by
  have htotal : (fill.total + k.stats.runTimeTotal t) % 2 ^ 64 =
      runTimeSum k (tasks ++ [t]) % 2 ^ 64 := by
    rw [h.total_eq, runTimeSum_append, Nat.mod_add_mod]
  have hlength : (tasks ++ [t]).length = tasks.length + 1 := by simp
  rw [fillVisitor]
  simp only [h.capacity_eq, h.written_eq]
  by_cases hroom : tasks.length < capacity
  · rw [Nat.min_eq_right hroom.le, if_pos hroom]
    refine ⟨rfl, ?_, htotal, fun i u hi hu => ?_, fun i hi => ?_⟩
    · show tasks.length + 1 = min capacity (tasks ++ [t]).length
      omega
    · show Function.update fill.arr tasks.length (blankRecord k info t) i = blankRecord k info u
      rcases Nat.lt_trichotomy i tasks.length with hlt | rfl | hgt
      · rw [List.getElem?_append_left hlt] at hu
        rw [Function.update_of_ne hlt.ne, h.filled i u hi hu]
      · rw [List.getElem?_concat_length, Option.some_inj] at hu
        rw [Function.update_self, hu]
      · rw [List.getElem?_eq_none (by omega)] at hu
        exact absurd hu (by simp)
    · show Function.update fill.arr tasks.length (blankRecord k info t) i = arr i
      rw [Function.update_of_ne (by omega), h.untouched i (by omega)]
  · rw [Nat.min_eq_left (not_lt.1 hroom), if_neg (lt_irrefl _)]
    refine ⟨rfl, ?_, htotal, fun i u hi hu => ?_, fun i hi => ?_⟩
    · show capacity = min capacity (tasks ++ [t]).length
      omega
    · rw [List.getElem?_append_left (by omega)] at hu
      exact h.filled i u hi hu
    · exact h.untouched i (by omega)

theorem filled_foldl (k : Kernel) (info : TaskInfo) (arr : ℕ → TaskStats) (capacity : ℕ)
    (tasks : List TaskId) :
    Filled k info arr capacity tasks (tasks.foldl (fillVisitor k info) ⟨arr, capacity, 0, 0⟩) := by
  induction tasks using List.reverseRecOn with
  | nil => exact ⟨rfl, by simp, rfl, fun i t _ ht => by simp at ht, fun i _ => rfl⟩
  | append_singleton tasks t ih =>
    rw [List.foldl_append]
    exact ih.visit t

/-- The second loop computes the shares of the records that were written. -/
theorem fillPercents_apply (total : ℕ) (arr : ℕ → TaskStats) (n i : ℕ) :
    fillPercents total arr n i = if i < n then
      { arr i with cpuPercentX100 := computePercentX100 (arr i).runTime total } else arr i := by
  induction n with
  | zero => simp [fillPercents]
  | succ n ih =>
    rw [fillPercents, List.range_succ, List.foldl_append, ← fillPercents, List.foldl_cons,
      List.foldl_nil]
    by_cases hi : i = n
    · subst hi
      rw [Function.update_self, ih, if_neg (lt_irrefl i), if_pos (Nat.lt_succ_self i)]
    · rw [Function.update_of_ne hi, ih]
      simp only [show i < n + 1 ↔ i < n by omega]

/-- **What `sertos_stats_get_tasks` writes.** -/
theorem getTasks_of_enabled (hen : k.stats.enabled = true) (info : TaskInfo)
    (before : ℕ → TaskStats) (capacity : ℕ) : ∃ after,
      getTasks k info (some before) capacity =
        (some after, min capacity k.taskRegistry.nodes.length) ∧
      (∀ i t, i < capacity → k.taskRegistry.nodes[i]? = some t →
        after i = record k info (runTimeSum k k.taskRegistry.nodes % 2 ^ 64) t) ∧
      ∀ i, min capacity k.taskRegistry.nodes.length ≤ i → after i = before i := by
  rw [getTasks]
  by_cases hzero : capacity = 0
  · subst hzero
    exact ⟨before, by simp, fun i t hi => absurd hi (Nat.not_lt_zero i), fun i _ => rfl⟩
  · have h := filled_foldl k info before capacity k.taskRegistry.nodes
    rw [if_neg (by simp [hzero, hen])]
    generalize hfill : k.taskRegistry.nodes.foldl (fillVisitor k info) ⟨before, capacity, 0, 0⟩ =
      fill at h
    refine ⟨fillPercents fill.total fill.arr fill.written, ?_, fun i t hi ht => ?_, fun i hi => ?_⟩
    · simp only [visitAllTasks, hfill, h.written_eq]
    · have hlt : i < k.taskRegistry.nodes.length := (List.getElem?_eq_some_iff.1 ht).1
      rw [fillPercents_apply, h.written_eq, if_pos (by omega), h.filled i t hi ht, h.total_eq]
      rfl
    · rw [fillPercents_apply, h.written_eq, if_neg (by omega), h.untouched i hi]

/-- **What `sertos_stats_get_task` writes.** -/
theorem getTask_of_enabled (hen : k.stats.enabled = true) (info : TaskInfo) (t : TaskId)
    (out : TaskStats) : getTask k info (some t) (some out) =
      (some (record k info (runTimeSum k k.taskRegistry.nodes % 2 ^ 64) t), .ok) := by
  simp only [getTask, hen, if_true, getSystem_of_enabled hen]
  rfl

/-! ## Snapshots -/

/-- The shares in the first `n` records, added up. -/
def percentSum (arr : ℕ → TaskStats) (n : ℕ) : ℕ :=
  ((List.range n).map fun i => (arr i).cpuPercentX100).sum

/-- What a call of `sertos_stats_get_tasks` leaves in an array of `capacity` records, and how it
fits with what the other queries report. -/
structure Snapshot (k : Kernel) (info : TaskInfo) (tasks : List TaskId) (capacity : ℕ)
    (before after : ℕ → TaskStats) : Prop where
  /-- The records describe the tasks in order, with shares of the run time of all of them. -/
  record : ∀ i t, i < capacity → tasks[i]? = some t →
    after i = Stats.record k info (runTimeSum k tasks % 2 ^ 64) t
  untouched : ∀ i, min capacity tasks.length ≤ i → after i = before i
  percentSum_le : 0 < runTimeSum k tasks → runTimeSum k tasks * 10000 < 2 ^ 64 →
    percentSum after (min capacity tasks.length) ≤ 10000
  lt_percentSum : 0 < runTimeSum k tasks → runTimeSum k tasks * 10000 < 2 ^ 64 →
    tasks.length ≤ capacity → 10000 < percentSum after tasks.length + tasks.length
  /-- `sertos_stats_get_task` reports the same. -/
  getTask : ∀ i t out, i < capacity → tasks[i]? = some t →
    getTask k info (some t) (some out) = (some (after i), .ok)
  /-- So does `sertos_stats_get_system`. -/
  getSystem : ∀ out, ∃ sys, getSystem k (some out) = (some sys, .ok) ∧
    sys.taskCount = tasks.length % 2 ^ 32 ∧ sys.totalRunTime = runTimeSum k tasks % 2 ^ 64 ∧
    ∀ i, i < capacity → tasks[i]? = some idleTcb →
      sys.idleRunTime = (after i).runTime ∧ sys.idlePercentX100 = (after i).cpuPercentX100

/-- As long as the products fit, the shares are exact. -/
theorem percentSum_eq (hfit : runTimeSum k tasks * 10000 < 2 ^ 64)
    (hrecord : ∀ i t, i < capacity → tasks[i]? = some t →
      after i = record k info (runTimeSum k tasks % 2 ^ 64) t) :
    percentSum after (min capacity tasks.length) =
      (((tasks.take capacity).map k.stats.runTimeTotal).map
        (share 10000 (runTimeSum k tasks))).sum := by
  have hlt64 : runTimeSum k tasks < 2 ^ 64 :=
    (Nat.le_mul_of_pos_right _ (by decide)).trans_lt hfit
  have htotal := Nat.mod_eq_of_lt hlt64
  rw [percentSum, List.map_map]
  congr 1
  refine List.ext_getElem (by simp) fun i hi _ => ?_
  simp only [List.length_map, List.length_range] at hi
  have hlt : i < tasks.length := by omega
  have hle : k.stats.runTimeTotal tasks[i] ≤ runTimeSum k tasks :=
    le_runTimeSum (List.getElem_mem hlt)
  simp only [List.getElem_map, List.getElem_range, List.getElem_take, Function.comp_apply]
  rw [hrecord i tasks[i] (by omega) (List.getElem?_eq_getElem hlt), record, htotal]
  exact computePercentX100_eq hle hlt64 ((Nat.mul_le_mul_right _ hle).trans_lt hfit)

theorem runTimeSum_take_le (k : Kernel) (tasks : List TaskId) (n : ℕ) :
    ((tasks.take n).map k.stats.runTimeTotal).sum ≤ runTimeSum k tasks := by
  conv_rhs => rw [runTimeSum, ← List.take_append_drop n tasks, List.map_append, List.sum_append]
  exact Nat.le_add_right _ _

/-- **Every call of `sertos_stats_get_tasks` takes a snapshot.** -/
theorem exists_snapshot (hen : k.stats.enabled = true) (info : TaskInfo)
    (before : ℕ → TaskStats) (capacity : ℕ) : ∃ after,
      getTasks k info (some before) capacity =
        (some after, min capacity k.taskRegistry.nodes.length) ∧
      Snapshot k info k.taskRegistry.nodes capacity before after := by
  obtain ⟨after, hcall, hrecord, huntouched⟩ := getTasks_of_enabled hen info before capacity
  refine ⟨after, hcall, hrecord, huntouched, fun hpos hfit => ?_, fun hpos hfit hall => ?_,
    fun i t out hi ht => ?_, fun out => ⟨_, getSystem_of_enabled hen out, rfl, rfl,
      fun i hi hidle => ?_⟩⟩
  · rw [percentSum_eq hfit hrecord]
    exact sum_share_le hpos (runTimeSum_take_le k _ _)
  · have hne : k.taskRegistry.nodes.map k.stats.runTimeTotal ≠ [] := by
      intro hnil
      rw [runTimeSum, hnil] at hpos
      exact absurd hpos (by simp)
    have hlt := lt_sum_share_add_length 10000 hne hpos le_rfl
    have hsum := percentSum_eq hfit hrecord
    rw [Nat.min_eq_right hall, List.take_of_length_le hall] at hsum
    rw [hsum]
    simpa only [List.length_map] using hlt
  · rw [getTask_of_enabled hen, hrecord i t hi ht]
  · rw [hrecord i idleTcb hi hidle]
    exact ⟨rfl, rfl⟩

end Stats

open Roster Stats

namespace Roster

/-- The kernel after its initialisation with the statistics enabled, on a counter that advances by
one from reading to reading. -/
def fresh : Roster := Roster.init (idleOnly id)

/-- The scheduler starts, a switch finds that the Idle task has run for one count, and the Idle task
creates `n` tasks of its own priority. -/
def crowdOps (n : ℕ) : List Op :=
  .call (.start .ok) :: .switch ::
    (List.range n).map fun i => .createStatic (.ofPriority 0) (i + 1)

end Roster

/-- **Snapshots are complete and consistent.**  In every run from an initialisation that enabled
the statistics the registry holds the tasks that were created and not deleted, in the order of their
creation and each once, and every call of `sertos_stats_get_tasks` takes a snapshot of them. -/
theorem snapshots_consistent {mem : Kernel} {config : Option Config} {idleStack : ℕ}
    {ops : List Op} {s : Roster} (hinit : (initWithConfig mem config idleStack).2 = .ok)
    (hrun : Trace Step (Roster.init (initWithConfig mem config idleStack).1) ops s)
    (hen : s.kernel.stats.enabled = true) :
    s.kernel.taskRegistry.nodes = s.tasks ∧ s.tasks.Nodup ∧ idleTcb ∈ s.tasks ∧
    ∀ info before capacity, ∃ after,
      getTasks s.kernel info (some before) capacity =
        (some after, min capacity s.tasks.length) ∧
      Snapshot s.kernel info s.tasks capacity before after := by
  have h : s.Kept := (init_kept hinit).run hrun
  refine ⟨h.nodes, h.nodup, h.idle, fun info before capacity => ?_⟩
  rw [← h.nodes]
  exact exists_snapshot hen info before capacity

theorem fresh_ok : (initWithConfig (withCounter id) (some statsConfig) 0).2 = .ok := rfl

/-- Of the two tasks that the Idle task creates, one is deleted again. -/
theorem snapshots_consistent_delete :
    let s := (crowdOps 2 ++ [Op.delete (some 1), Op.switch]).foldl run fresh
    s.tasks = [idleTcb, 2] ∧ s.kernel.taskRegistry.nodes = s.tasks ∧ s.tasks.Nodup ∧
      idleTcb ∈ s.tasks ∧ ∀ info before capacity, ∃ after,
        getTasks s.kernel info (some before) capacity =
          (some after, min capacity s.tasks.length) ∧
        Snapshot s.kernel info s.tasks capacity before after :=
  ⟨by decide, snapshots_consistent fresh_ok (.of_guards (by decide)) (by decide)⟩

/-! ## More tasks than a `uint32_t` counts -/

namespace Roster

/-- There are `n` tasks beside the Idle task, which runs. -/
structure Crowded (n : ℕ) (s : Roster) : Prop where
  tasks : s.tasks = List.range (n + 1)
  isRunning : s.kernel.isRunning = true
  currentTcb : s.kernel.currentTcb = some idleTcb
  readyBitmap : s.kernel.readyBitmap = Function.update (fun _ => false) 0 true
  head : (s.kernel.readyQueue 0).nodes.head? = some idleTcb
  enabled : s.kernel.stats.enabled = true
  total : runTimeSum s.kernel s.tasks = 1

theorem Crowded.createStatic {n : ℕ} {s : Roster} (h : Crowded n s) :
    Crowded (n + 1) (s.run (.createStatic (.ofPriority 0) (n + 1))) := by
  have hbitmap : (s.kernel.enroll (n + 1) (.ofPriority 0)).readyBitmap =
      Function.update (fun _ => false) 0 true := by
    show Function.update s.kernel.readyBitmap 0 true = _
    rw [h.readyBitmap, Function.update_idem]
  have hhead : ((s.kernel.enroll (n + 1) (.ofPriority 0)).readyQueue 0).nodes.head? =
      some idleTcb := by
    show ((s.kernel.stateLists.insertTail (.ready 0) (n + 1)) (.ready 0)).nodes.head? = _
    rw [Bundle.insertTail_same, LinkedList.insertTail, List.head?_append]
    exact congrArg (Option.or · _) h.head
  have hselect : selectNextTask (s.kernel.enroll (n + 1) (.ofPriority 0)) = some idleTcb := by
    have hlast : Bitmap.findLastSet (Function.update (fun _ => false) 0 true) maxPriorities =
        some 0 := by decide
    rw [selectNextTask, hbitmap, hlast]
    exact hhead
  have hstays : reschedule (s.kernel.enroll (n + 1) (.ofPriority 0)) =
      s.kernel.enroll (n + 1) (.ofPriority 0) := by
    rw [reschedule, if_pos (by exact h.isRunning), hselect, Kernel.enroll_currentTcb, h.currentTcb]
    exact if_neg (lt_irrefl _)
  have hcreate : Task.createStatic s.kernel (.ofPriority 0) (n + 1) =
      (s.kernel.enroll (n + 1) (.ofPriority 0), .ok) := by
    rw [Task.createStatic, Task.createStaticSection_of_valid _ _ (by decide) (by decide)]
    simp only [Kernel.enroll_isRunning, h.isRunning, hstays, and_self, if_true]
  have hrun : s.run (.createStatic (.ofPriority 0) (n + 1)) =
      s.enter (s.kernel.enroll (n + 1) (.ofPriority 0)) (n + 1) := by
    simp only [run, hcreate, if_true]
  have hfresh : n + 1 ∉ s.tasks := by simp [h.tasks]
  rw [hrun]
  refine ⟨?_, h.isRunning, h.currentTcb, hbitmap, hhead, h.enabled, ?_⟩
  · show s.tasks ++ [n + 1] = _
    rw [h.tasks, ← List.range_succ]
  · show runTimeSum (s.kernel.enroll (n + 1) (.ofPriority 0)) (s.tasks ++ [n + 1]) = 1
    have hold : runTimeSum (s.kernel.enroll (n + 1) (.ofPriority 0)) s.tasks =
        runTimeSum s.kernel s.tasks := by
      refine congrArg List.sum (List.map_congr_left fun t ht => ?_)
      have hne : t ≠ n + 1 := fun e => hfresh (e ▸ ht)
      exact Function.update_of_ne hne _ _
    have hnew : (s.kernel.enroll (n + 1) (.ofPriority 0)).stats.runTimeTotal (n + 1) = 0 :=
      Function.update_self ..
    rw [runTimeSum_append, hold, hnew, h.total]

/-- Such a run exists for every number of tasks. -/
theorem exists_crowded (n : ℕ) : ∃ s, Trace Step fresh (crowdOps n) s ∧ Crowded n s := by
  induction n with
  | zero =>
    refine ⟨_, .of_guards (by decide), ?_⟩
    exact ⟨by decide, by decide, by decide, rfl, by decide, by decide, by decide⟩
  | succ n ih =>
    obtain ⟨s, hrun, hs⟩ := ih
    refine ⟨_, ?_, hs.createStatic⟩
    have hops : crowdOps (n + 1) = crowdOps n ++ [.createStatic (.ofPriority 0) (n + 1)] := by
      simp [crowdOps, List.range_succ]
    rw [hops]
    exact hrun.append (.cons ⟨by simp [Allowed, hs.tasks], rfl⟩ (.nil _))

end Roster

/-- **With `2 ^ 32` tasks `sertos_stats_get_system` counts none.** -/
theorem task_count_wraps : ∃ s, Trace Step fresh (crowdOps (2 ^ 32 - 1)) s ∧
    s.kernel.stats.enabled = true ∧ s.tasks.length = 2 ^ 32 ∧
    runTimeSum s.kernel s.tasks = 1 ∧
    ∃ sys, getSystem s.kernel (some .zero) = (some sys, .ok) ∧ sys.taskCount = 0 := by
  obtain ⟨s, hrun, hs⟩ := exists_crowded (2 ^ 32 - 1)
  have hlength : s.tasks.length = 2 ^ 32 := by
    rw [hs.tasks, List.length_range]
    rfl
  have hnodes := (Kept.run (init_kept fresh_ok) hrun).nodes
  refine ⟨s, hrun, hs.enabled, hlength, hs.total, _, getSystem_of_enabled hs.enabled _, ?_⟩
  show s.kernel.taskRegistry.nodes.length % 2 ^ 32 = 0
  rw [hnodes, hlength]
  rfl

end Sertos
