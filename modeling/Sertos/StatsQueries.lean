import Mathlib.Data.List.Induction
import Sertos.Lib.Shares
import Sertos.Accounting

/-!
# Statistics queries

The functions of `sertos_stats.c` that report the accounting: `sertos_stats_get_system`,
`sertos_stats_get_tasks`, `sertos_stats_get_task` and `sertos_stats_get_cpu_load_x100`.  The first
three add the run times up anew, the second with a visitor of its own; `visitAllTasks` is the walk
over the registry that they all use.

A share is the run time times 10000, in 64 bits, divided by the total.  `cpu_share_exact_iff` says
when that is the share: as long as the product fits, which on a counter of nanoseconds is three
weeks.
-/

set_option autoImplicit false

namespace Sertos

open Intrusive Scheduler Shares

/-! ## The records -/

/-- `SertosTaskStats`. -/
structure TaskStats where
  /-- The address of the name. -/
  name : ℕ
  priority : ℕ
  state : TaskState
  runTime : ℕ
  cpuPercentX100 : ℕ
  switchInCount : ℕ
  stackHighWater : ℕ
deriving DecidableEq, Repr

/-- `SertosSystemStats`. -/
structure SystemStats where
  totalRunTime : ℕ
  idleRunTime : ℕ
  idlePercentX100 : ℕ
  totalSwitches : ℕ
  totalTicks : ℕ
  taskCount : ℕ
deriving DecidableEq, Repr

/-- `memset(out, 0, sizeof(*out))`. -/
def SystemStats.zero : SystemStats := ⟨0, 0, 0, 0, 0, 0⟩

/-- `memset(out, 0, sizeof(*out))`. -/
def TaskStats.zero : TaskStats := ⟨0, 0, .ready, 0, 0, 0, 0⟩

/-- What a record says of a task that is not in the kernel's data here: the `name` field of its
control block, and what `sertos_task_get_stack_high_water_mark` returns for it. -/
structure TaskInfo where
  name : TaskId → ℕ
  stackHighWaterMark : TaskId → ℕ

/-- `StatsSumContext`. -/
structure StatsSumContext where
  total : ℕ
  count : ℕ

/-- `StatsFillContext`; the destination array is what its elements hold. -/
structure StatsFillContext where
  arr : ℕ → TaskStats
  capacity : ℕ
  written : ℕ
  total : ℕ

/-! ## The functions -/

/-- `sertos_scheduler_visit_all_tasks`. -/
def Scheduler.visitAllTasks {γ : Type*} (k : Kernel) (visit : γ → TaskId → γ) (ctx : γ) : γ :=
  k.taskRegistry.nodes.foldl visit ctx

namespace Stats

/-- `compute_percent_x100`. -/
def computePercentX100 (part total : ℕ) : ℕ :=
  if total = 0 then 0 else part * 10000 % 2 ^ 64 / total % 2 ^ 32

/-- `sum_visitor`. -/
def sumVisitor (k : Kernel) (sum : StatsSumContext) (t : TaskId) : StatsSumContext where
  total := (sum.total + k.stats.runTimeTotal t) % 2 ^ 64
  count := (sum.count + 1) % 2 ^ 32

/-- The record of a task, with the share still to be computed. -/
def blankRecord (k : Kernel) (info : TaskInfo) (t : TaskId) : TaskStats where
  name := info.name t
  priority := (k.tcb t).priority
  state := (k.tcb t).state
  runTime := k.stats.runTimeTotal t
  cpuPercentX100 := 0
  switchInCount := k.stats.switchInCount t
  stackHighWater := info.stackHighWaterMark t

/-- `fill_visitor`. -/
def fillVisitor (k : Kernel) (info : TaskInfo) (fill : StatsFillContext) (t : TaskId) :
    StatsFillContext :=
  let fill := { fill with total := (fill.total + k.stats.runTimeTotal t) % 2 ^ 64 }
  if fill.written < fill.capacity then
    { fill with
      arr := Function.update fill.arr fill.written (blankRecord k info t)
      written := fill.written + 1 }
  else fill

/-- `sertos_stats_get_system`; `out` is what `*out` held, or `none` if it is `NULL`. -/
def getSystem (k : Kernel) (out : Option SystemStats) : Option SystemStats × Status :=
  match out with
  | none => (none, .errorNullPtr)
  | some _ =>
    if k.stats.enabled then
      let sum := visitAllTasks k (sumVisitor k) ⟨0, 0⟩
      (some
        { totalRunTime := sum.total
          idleRunTime := k.stats.runTimeTotal idleTcb
          idlePercentX100 := computePercentX100 (k.stats.runTimeTotal idleTcb) sum.total
          totalSwitches := k.stats.totalSwitches
          totalTicks := getTickCount k
          taskCount := sum.count }, .ok)
    else (some .zero, .errorNotInitialized)

/-- The loop of `sertos_stats_get_tasks` over the records that were written. -/
def fillPercents (total : ℕ) (arr : ℕ → TaskStats) (written : ℕ) : ℕ → TaskStats :=
  (List.range written).foldl (fun arr i => Function.update arr i
    { arr i with cpuPercentX100 := computePercentX100 (arr i).runTime total }) arr

/-- `sertos_stats_get_tasks`: the array as it leaves it, and the number of records written. -/
def getTasks (k : Kernel) (info : TaskInfo) (outArray : Option (ℕ → TaskStats)) (capacity : ℕ) :
    Option (ℕ → TaskStats) × ℕ :=
  match outArray with
  | none => (none, 0)
  | some arr =>
    if capacity = 0 ∨ k.stats.enabled = false then (some arr, 0)
    else
      let fill := visitAllTasks k (fillVisitor k info) ⟨arr, capacity, 0, 0⟩
      (some (fillPercents fill.total fill.arr fill.written), fill.written)

/-- `sertos_stats_get_task`. -/
def getTask (k : Kernel) (info : TaskInfo) (handle : Option TaskId) (out : Option TaskStats) :
    Option TaskStats × Status :=
  match handle, out with
  | some t, some before =>
    if k.stats.enabled then
      match getSystem k (some .zero) with
      | (some sys, .ok) =>
        (some { blankRecord k info t with
          cpuPercentX100 := computePercentX100 (k.stats.runTimeTotal t) sys.totalRunTime }, .ok)
      | (_, e) => (some before, e)
    else (some .zero, .errorNotInitialized)
  | _, _ => (out, .errorNullPtr)

/-- `sertos_stats_get_cpu_load_x100`, on a `uint32_t`. -/
def getCpuLoadX100 (k : Kernel) : ℕ :=
  match getSystem k (some .zero) with
  | (some sys, .ok) => (10000 + 2 ^ 32 - sys.idlePercentX100) % 2 ^ 32
  | _ => 0

/-! ## The sums -/

variable {k : Kernel} {info : TaskInfo} {part total : ℕ} {tasks : List TaskId}

/-- The run times of the tasks added up, without a bound. -/
def runTimeSum (k : Kernel) (tasks : List TaskId) : ℕ := (tasks.map k.stats.runTimeTotal).sum

theorem runTimeSum_append (k : Kernel) (tasks : List TaskId) (t : TaskId) :
    runTimeSum k (tasks ++ [t]) = runTimeSum k tasks + k.stats.runTimeTotal t := by
  simp [runTimeSum]

theorem le_runTimeSum {t : TaskId} (ht : t ∈ tasks) :
    k.stats.runTimeTotal t ≤ runTimeSum k tasks :=
  le_sum_map ht

/-- **The sums** of `sum_visitor`, up to the width of its counters. -/
theorem foldl_sumVisitor (k : Kernel) (tasks : List TaskId) :
    tasks.foldl (sumVisitor k) ⟨0, 0⟩ =
      ⟨runTimeSum k tasks % 2 ^ 64, tasks.length % 2 ^ 32⟩ := by
  induction tasks using List.reverseRecOn with
  | nil => rfl
  | append_singleton tasks t ih =>
    rw [List.foldl_append, ih, List.foldl_cons, List.foldl_nil, sumVisitor, runTimeSum_append,
      List.length_append]
    simp only [Nat.mod_add_mod, List.length_singleton]

/-- What `sertos_stats_get_system` reports. -/
theorem getSystem_of_enabled (hen : k.stats.enabled = true) (out : SystemStats) :
    getSystem k (some out) = (some
      { totalRunTime := runTimeSum k k.taskRegistry.nodes % 2 ^ 64
        idleRunTime := k.stats.runTimeTotal idleTcb
        idlePercentX100 := computePercentX100 (k.stats.runTimeTotal idleTcb)
          (runTimeSum k k.taskRegistry.nodes % 2 ^ 64)
        totalSwitches := k.stats.totalSwitches
        totalTicks := getTickCount k
        taskCount := k.taskRegistry.nodes.length % 2 ^ 32 }, .ok) := by
  simp only [getSystem, hen, if_true, visitAllTasks, foldl_sumVisitor]

theorem getSystem_of_disabled (hen : k.stats.enabled = false) (out : SystemStats) :
    getSystem k (some out) = (some .zero, .errorNotInitialized) := by
  simp [getSystem, hen]

/-! ## The shares -/

/-- In range, whether the product wraps around or not. -/
theorem computePercentX100_le (h : part ≤ total) : computePercentX100 part total ≤ 10000 := by
  rw [computePercentX100]
  split
  · exact Nat.zero_le _
  · calc part * 10000 % 2 ^ 64 / total % 2 ^ 32
        ≤ part * 10000 % 2 ^ 64 / total := Nat.mod_le _ _
      _ ≤ part * 10000 / total := Nat.div_le_div_right (Nat.mod_le _ _)
      _ ≤ 10000 := share_le h

/-- **A share is right exactly if the product fits in 64 bits.** -/
theorem computePercentX100_eq_iff (h : part ≤ total) (hpos : 0 < total) (htotal : total < 2 ^ 64) :
    computePercentX100 part total = part * 10000 / total ↔ part * 10000 < 2 ^ 64 := by
  have hle : part * 10000 % 2 ^ 64 / total ≤ 10000 :=
    (Nat.div_le_div_right (Nat.mod_le _ _)).trans (share_le h)
  rw [computePercentX100, if_neg hpos.ne', Nat.mod_eq_of_lt (show _ < 2 ^ 32 by omega)]
  exact mod_div_eq_div_iff hpos htotal.le

/-- The share of a total of zero is zero. -/
theorem computePercentX100_eq (h : part ≤ total) (htotal : total < 2 ^ 64)
    (hfit : part * 10000 < 2 ^ 64) : computePercentX100 part total = share 10000 total part := by
  rcases Nat.eq_zero_or_pos total with rfl | hpos
  · rw [computePercentX100, if_pos rfl, share, Nat.div_zero]
  · exact (computePercentX100_eq_iff h hpos htotal).2 hfit

/-- The load, when the statistics are enabled. -/
theorem getCpuLoadX100_of_enabled (hen : k.stats.enabled = true)
    (hidle : idleTcb ∈ k.taskRegistry.nodes)
    (hsum : runTimeSum k k.taskRegistry.nodes < 2 ^ 64) :
    getCpuLoadX100 k = 10000 - computePercentX100 (k.stats.runTimeTotal idleTcb)
      (runTimeSum k k.taskRegistry.nodes) := by
  have hle := computePercentX100_le (le_runTimeSum (k := k) hidle)
  simp only [getCpuLoadX100, getSystem_of_enabled hen, Nat.mod_eq_of_lt hsum]
  omega

theorem getCpuLoadX100_of_disabled (hen : k.stats.enabled = false) : getCpuLoadX100 k = 0 := by
  rw [getCpuLoadX100, getSystem_of_disabled hen]

/-- The load is what the exact share of the Idle task leaves exactly if the statistics are enabled
and the product fits, or they are disabled and there is nothing but idle time. -/
theorem getCpuLoadX100_eq_iff (hidle : idleTcb ∈ k.taskRegistry.nodes)
    (hsum : runTimeSum k k.taskRegistry.nodes < 2 ^ 64) :
    getCpuLoadX100 k =
        10000 - k.stats.runTimeTotal idleTcb * 10000 / runTimeSum k k.taskRegistry.nodes ↔
      if k.stats.enabled then k.stats.runTimeTotal idleTcb * 10000 < 2 ^ 64
      else 0 < runTimeSum k k.taskRegistry.nodes ∧
        k.stats.runTimeTotal idleTcb = runTimeSum k k.taskRegistry.nodes := by
  have hle := le_runTimeSum (k := k) hidle
  generalize htotal : runTimeSum k k.taskRegistry.nodes = total at hle hsum
  generalize hpart : k.stats.runTimeTotal idleTcb = part at hle
  have hshare : part * 10000 / total ≤ 10000 := share_le hle
  split
  · next hen =>
    have hload := getCpuLoadX100_of_enabled hen hidle (htotal ▸ hsum)
    have hpercent := computePercentX100_le hle
    rw [hload, htotal, hpart]
    rcases Nat.eq_zero_or_pos total with rfl | hpos
    · -- no time at all has passed
      obtain rfl := Nat.le_zero.1 hle
      simp [computePercentX100]
    · rw [← computePercentX100_eq_iff hle hpos hsum]
      omega
  · next hen =>
    rw [getCpuLoadX100_of_disabled (by simpa using hen)]
    constructor
    · intro hzero
      have hall : 10000 ≤ part * 10000 / total := by omega
      have hpos : 0 < total := by
        by_contra hzero
        obtain rfl : total = 0 := by omega
        rw [Nat.div_zero] at hall
        omega
      rw [Nat.le_div_iff_mul_le hpos] at hall
      exact ⟨hpos, by omega⟩
    · rintro ⟨hpos, rfl⟩
      rw [Nat.mul_div_cancel_left _ hpos]

/-- **When CPU shares are exact.**  They are in range at any uptime.  A share is the exact one,
rounded down, exactly if the run time times 10000 fits in 64 bits; the load is 10000 less the exact
share of the Idle task exactly if its run time does, when the statistics are enabled, and when they
are not, where it is zero, if there is nothing but idle time. -/
theorem cpu_share_exact_iff (part total : ℕ) (k : Kernel) :
    (part ≤ total → 0 < total → total < 2 ^ 64 →
      computePercentX100 part total ≤ 10000 ∧
      (computePercentX100 part total = part * 10000 / total ↔ part * 10000 < 2 ^ 64)) ∧
    (idleTcb ∈ k.taskRegistry.nodes → runTimeSum k k.taskRegistry.nodes < 2 ^ 64 →
      getCpuLoadX100 k ≤ 10000 ∧
      (getCpuLoadX100 k =
          10000 - k.stats.runTimeTotal idleTcb * 10000 / runTimeSum k k.taskRegistry.nodes ↔
        if k.stats.enabled then k.stats.runTimeTotal idleTcb * 10000 < 2 ^ 64
        else 0 < runTimeSum k k.taskRegistry.nodes ∧
          k.stats.runTimeTotal idleTcb = runTimeSum k k.taskRegistry.nodes)) := by
  refine ⟨fun h hpos htotal =>
    ⟨computePercentX100_le h, computePercentX100_eq_iff h hpos htotal⟩, fun hidle hsum =>
    ⟨?_, getCpuLoadX100_eq_iff hidle hsum⟩⟩
  cases hen : k.stats.enabled with
  | true =>
    rw [getCpuLoadX100_of_enabled hen hidle hsum]
    exact Nat.sub_le _ _
  | false =>
    rw [getCpuLoadX100_of_disabled hen]
    exact Nat.zero_le _

/-- The kernel with the Idle task alone, which has run for `time`. -/
def idleFor (time : ℕ) : Kernel :=
  { idleOnly fun _ => 0 with
    stats := { (idleOnly fun _ => 0).stats with runTimeTotal := fun _ => time } }

/-- A third of the time is 33.33 percent, and a processor that has only been idle is not loaded. -/
theorem cpu_share_exact_iff_third :
    computePercentX100 1 3 = 1 * 10000 / 3 ∧
      getCpuLoadX100 (idleFor 5) = 10000 - 5 * 10000 / 5 :=
  have h := cpu_share_exact_iff 1 3 (idleFor 5)
  ⟨(h.1 (by decide) (by decide) (by decide)).2.2 (by decide),
    (h.2 (by decide +kernel) (by decide +kernel)).2.2 (by decide +kernel)⟩

/-- **After `2 ^ 60` counts of idling** the share of the Idle task is zero, and the load is 100
percent. -/
theorem cpu_share_wraps :
    computePercentX100 (2 ^ 60) (2 ^ 60) = 0 ∧ 2 ^ 60 * 10000 / 2 ^ 60 = 10000 ∧
      runTimeSum (idleFor (2 ^ 60)) (idleFor (2 ^ 60)).taskRegistry.nodes = 2 ^ 60 ∧
      getCpuLoadX100 (idleFor (2 ^ 60)) = 10000 := by
  refine ⟨by decide, by decide, by decide +kernel, by decide +kernel⟩

end Stats

end Sertos
