import Sertos.Frames
import Sertos.Links

/-!
# The walk over the delay list, link by link

`process_delayed_tasks` unlinks the node it stands on and links it into a ready queue before it goes
on, so it reads the link to the next node first, and tells the end of the list by comparing that
link with the root.

What it comes to is an expiry of all entries at once: `Kernel.expire` says so field by field, with
filters of the lists and no order of steps.  `processDelayedTask_expire` is one round, which takes
the expiry of the entries before it to that of the entries up to it;
`processDelayedTasks_expires` is the loop.
-/

set_option autoImplicit false

namespace Sertos

open Intrusive Circular Scheduler

/-! ## All entries at once -/

/-- One entry of the delay list, one tick later. -/
def Tcb.expire (b : Tcb) : Tcb :=
  if b.delayTicks = 1 then
    { b with
      state := .ready
      delayTicks := 0
      waitList := none
      stateLinked := true
      eventLinked := b.eventLinked && b.waitList.isNone }
  else { b with delayTicks := b.delayTicks - 1 }

namespace Kernel

/-- The tasks among `l` whose last tick this is. -/
def expired (k : Kernel) (l : List TaskId) : List TaskId :=
  l.filter fun t => (k.tcb t).delayTicks = 1

/-- One tick for the entries `l` of the delay list, all at once. -/
def expire (k : Kernel) (l : List TaskId) : Kernel :=
  { k with
    readyBitmap := fun p => k.readyBitmap p || (k.expired l).any fun t => (k.tcb t).priority = p
    stateLists := fun
      | .delay => .ofNodes (k.delayList.nodes.filter fun t => t ∉ k.expired l)
      | .ready p => .ofNodes
        ((k.readyQueue p).nodes ++ (k.expired l).filter fun t => (k.tcb t).priority = p)
    waitLists := fun W => .ofNodes ((k.waitLists W).nodes.filter fun t =>
      ¬ (t ∈ k.expired l ∧ (k.tcb t).waitList = some W))
    tcb := fun t => if t ∈ l then (k.tcb t).expire else k.tcb t }

/-- What the walk needs to know of an entry: its priority has a queue, there is a tick left, and
if it names a wait list, it is on it. -/
structure Delayed (k : Kernel) (t : TaskId) : Prop where
  priority_lt : (k.tcb t).priority < maxPriorities
  delayTicks_pos : 0 < (k.tcb t).delayTicks
  mem_waitList : ∀ W, (k.tcb t).waitList = some W → t ∈ (k.waitLists W).nodes
  eventLinked : (k.tcb t).waitList.isSome → (k.tcb t).eventLinked = true

variable {k : Kernel} {t u : TaskId} {l rest : List TaskId}

/-- In a reachable state every entry is such. -/
theorem ListInv.delayed (h : k.ListInv) (ht : t ∈ k.delayList.nodes) : k.Delayed t := by
  obtain ⟨hlive, hblocked, hticks⟩ := h.mem_delayList.1 ht
  have hcons := h.consistent t hlive
  refine ⟨hcons.priority_lt, hticks, fun W hW => (h.mem_waitList W).2 ⟨hlive, hblocked, hW⟩,
    fun hsome => ?_⟩
  rw [hcons.eventLinked_eq, Tcb.eventList_of_blocked hblocked]
  exact hsome

/-- Takes `t` off the delay list and its wait list and makes it ready. -/
def release (k : Kernel) (t : TaskId) : Kernel :=
  { k with
    readyBitmap := Function.update k.readyBitmap (k.tcb t).priority true
    stateLists := (k.stateLists.remove .delay t).insertTail (.ready (k.tcb t).priority) t
    waitLists := match (k.tcb t).waitList with
      | some W => k.waitLists.remove W t
      | none => k.waitLists
    tcb := Function.update k.tcb t (k.tcb t).expire }

/-- One round of the walk. -/
theorem processDelayedTask_of_delayed (h : k.Delayed t) : processDelayedTask k t =
    if (k.tcb t).delayTicks = 1 then (k.release t, true)
    else (k.modify t fun b => { b with delayTicks := b.delayTicks - 1 }, false) := by
  have hpos := h.delayTicks_pos
  have hpriority := h.priority_lt
  have hlinked := h.eventLinked
  by_cases h1 : (k.tcb t).delayTicks = 1
  · cases hwait : (k.tcb t).waitList with
    | none =>
      simp only [processDelayedTask, h1, Kernel.modify, Kernel.removeDirect, zero_lt_one, if_true,
        Function.update_self, Nat.sub_self, hwait]
      rw [addReady_eq (by simpa using hpriority)]
      simp [release, Tcb.expire, h1, hwait]
    | some W =>
      have hevent : (k.tcb t).eventLinked = true := hlinked (by rw [hwait]; rfl)
      simp only [processDelayedTask, h1, Kernel.modify, Kernel.removeDirect, zero_lt_one, if_true,
        Function.update_self, Nat.sub_self, hwait, waitListRemove, hevent, Function.update_idem]
      rw [addReady_eq (by simpa using hpriority)]
      simp [release, Tcb.expire, h1, hwait]
  · have hne : (k.tcb t).delayTicks - 1 ≠ 0 := by omega
    simp [processDelayedTask, hpos, h1, hne]

/-! ### Entry after entry -/

theorem mem_expired : u ∈ k.expired l ↔ u ∈ l ∧ (k.tcb u).delayTicks = 1 := by
  simp [expired]

theorem expired_concat (k : Kernel) (l : List TaskId) (t : TaskId) : k.expired (l ++ [t]) =
    if (k.tcb t).delayTicks = 1 then k.expired l ++ [t] else k.expired l := by
  rw [expired, List.filter_append]
  split
  · simp [expired, *]
  · simp [expired, *]

/-- Whether anything has expired, one entry later. -/
theorem or_expired_cons (k : Kernel) (unblocked : Bool) (t : TaskId) (rest : List TaskId) :
    (unblocked || decide ((k.tcb t).delayTicks = 1) || decide (k.expired rest ≠ [])) =
      (unblocked || decide (k.expired (t :: rest) ≠ [])) := by
  rw [Bool.or_assoc, expired, expired]
  by_cases h1 : (k.tcb t).delayTicks = 1 <;> simp [h1]

theorem expire_tcb_of_notMem (ht : t ∉ l) : (k.expire l).tcb t = k.tcb t := if_neg ht

theorem mem_expire_delay : u ∈ (k.expire l).delayList.nodes ↔
    u ∈ k.delayList.nodes ∧ u ∉ k.expired l := by
  simp [expire, delayList]

theorem mem_expire_waitLists {W : WaitList} : u ∈ ((k.expire l).waitLists W).nodes ↔
    u ∈ (k.waitLists W).nodes ∧ ¬ (u ∈ k.expired l ∧ (k.tcb u).waitList = some W) := by
  simp only [expire, LinkedList.ofNodes_nodes, List.mem_filter, decide_eq_true_eq]

theorem notMem_expired (ht : t ∉ l) : t ∉ k.expired l := fun h => ht (mem_expired.1 h).1

/-- The entries ahead of the walk are still in the list. -/
theorem expire_delayList_of_append (hl : k.delayList.nodes = l ++ rest)
    (hnodup : k.delayList.nodes.Nodup) :
    (k.expire l).delayList.nodes = (l.filter fun u => u ∉ k.expired l) ++ rest := by
  have hkept : rest.filter (fun u => u ∉ k.expired l) = rest := by
    rw [List.filter_eq_self]
    intro u hu
    exact decide_eq_true (notMem_expired fun hm => (hl ▸ hnodup).disjoint hm hu)
  calc (k.expire l).delayList.nodes
      = k.delayList.nodes.filter fun u => u ∉ k.expired l := rfl
    _ = _ := by rw [hl, List.filter_append, hkept]

/-- The entries behind the walk do not matter to those ahead. -/
theorem Delayed.expire (h : k.Delayed t) (ht : t ∉ l) : (k.expire l).Delayed t where
  priority_lt := by rw [expire_tcb_of_notMem ht]; exact h.priority_lt
  delayTicks_pos := by rw [expire_tcb_of_notMem ht]; exact h.delayTicks_pos
  mem_waitList W hW := by
    rw [expire_tcb_of_notMem ht] at hW
    exact mem_expire_waitLists.2 ⟨h.mem_waitList W hW, fun hm => notMem_expired ht hm.1⟩
  eventLinked := by rw [expire_tcb_of_notMem ht]; exact h.eventLinked

/-- Nothing expires before the first entry. -/
theorem expire_nil (hstate : k.stateLists.WF) (hwait : k.waitLists.WF) : k.expire [] = k := by
  have hlists : (k.expire []).stateLists = k.stateLists := by
    funext L
    cases L with
    | delay =>
      rw [(hstate.list .delay).eq_ofNodes]
      simp [expire, expired, delayList]
    | ready p =>
      rw [(hstate.list (.ready p)).eq_ofNodes]
      simp [expire, expired, readyQueue]
  have hwaits : (k.expire []).waitLists = k.waitLists := by
    funext W
    rw [(hwait.list W).eq_ofNodes]
    simp [expire, expired]
  calc k.expire [] = { k.expire [] with
        stateLists := (k.expire []).stateLists, waitLists := (k.expire []).waitLists } := rfl
    _ = k := by
      rw [hlists, hwaits]
      simp [expire, expired]

theorem release_stateLists (hstate : (k.expire l).stateLists.WF) (hm : t ∈ k.delayList.nodes)
    (ht : t ∉ l) (h1 : (k.tcb t).delayTicks = 1) :
    ((k.expire l).release t).stateLists = (k.expire (l ++ [t])).stateLists := by
  have hin : t ∈ ((k.expire l).stateLists .delay).nodes :=
    mem_expire_delay.2 ⟨hm, notMem_expired ht⟩
  have hrelease : ((k.expire l).release t).stateLists =
      ((k.expire l).stateLists.remove .delay t).insertTail (.ready (k.tcb t).priority) t := by
    rw [← expire_tcb_of_notMem (k := k) ht]
    rfl
  have hwf : ((k.expire l).release t).stateLists.WF :=
    (hstate.remove hin).insertTail hstate.free_remove
  funext L
  rw [(hwf.list L).eq_ofNodes, hrelease]
  cases L with
  | delay =>
    refine congrArg LinkedList.ofNodes ?_
    calc (((k.expire l).stateLists.remove .delay t).insertTail (.ready _) t .delay).nodes
        = (k.expire l).delayList.nodes.erase t := by
          rw [Bundle.insertTail_of_ne (by simp)]
          rfl
      _ = (k.expire l).delayList.nodes.filter (· != t) :=
          (hstate.list .delay).nodup.erase_eq_filter t
      _ = k.delayList.nodes.filter fun u => u ∉ k.expired (l ++ [t]) := by
          simp only [expire, delayList, LinkedList.ofNodes_nodes, List.filter_filter,
            expired_concat, if_pos h1]
          refine List.filter_congr fun u _ => ?_
          by_cases hu : u = t <;> simp [hu]
  | ready q =>
    have hout : t ∉ ((k.expire l).stateLists (.ready q)).nodes :=
      hstate.notMem_of_ne hin (by simp)
    refine congrArg LinkedList.ofNodes ?_
    by_cases hq : q = (k.tcb t).priority
    · subst hq
      rw [Bundle.insertTail_same, LinkedList.insertTail, Bundle.remove, List.erase_of_not_mem hout]
      simp [expire, expired_concat, h1]
    · rw [Bundle.insertTail_of_ne (by simpa using hq), Bundle.remove, List.erase_of_not_mem hout]
      simp [expire, expired_concat, h1, Ne.symm hq]

theorem release_waitLists (hwait : (k.expire l).waitLists.WF) (h : k.Delayed t) (ht : t ∉ l)
    (h1 : (k.tcb t).delayTicks = 1) :
    ((k.expire l).release t).waitLists = (k.expire (l ++ [t])).waitLists := by
  have htcb := expire_tcb_of_notMem (k := k) ht
  -- a list that `t` does not name loses nothing
  have hother : ∀ V, (k.tcb t).waitList ≠ some V →
      (k.expire (l ++ [t])).waitLists V = (k.expire l).waitLists V := fun V hV => by
    refine congrArg LinkedList.ofNodes (List.filter_congr fun u _ => ?_)
    rw [expired_concat, if_pos h1]
    by_cases hu : u = t
    · subst hu
      simp [hV]
    · simp [hu]
  funext V
  cases hW : (k.tcb t).waitList with
  | none =>
    rw [hother V (by simp [hW])]
    simp only [release, htcb, hW]
  | some W =>
    have hin : t ∈ ((k.expire l).waitLists W).nodes :=
      (h.expire ht).mem_waitList W (by rw [htcb, hW])
    have hrelease : ((k.expire l).release t).waitLists = (k.expire l).waitLists.remove W t := by
      simp only [release, htcb, hW]
    rw [hrelease]
    by_cases hV : V = W
    · subst hV
      rw [((hwait.remove hin).list V).eq_ofNodes]
      refine congrArg LinkedList.ofNodes ?_
      rw [Bundle.remove, (hwait.list V).nodup.erase_eq_filter]
      simp only [expire, LinkedList.ofNodes_nodes, List.filter_filter, expired_concat, if_pos h1]
      refine List.filter_congr fun u _ => ?_
      by_cases hu : u = t
      · subst hu
        simp [hW]
      · simp [hu]
    · rw [hother V (by simpa [hW] using Ne.symm hV), hwait.remove_of_ne hin hV]

theorem release_readyBitmap (ht : t ∉ l) (h1 : (k.tcb t).delayTicks = 1) :
    ((k.expire l).release t).readyBitmap = (k.expire (l ++ [t])).readyBitmap := by
  funext p
  rw [release, expire_tcb_of_notMem ht]
  by_cases hp : p = (k.tcb t).priority
  · subst hp
    simp [expire, expired_concat, h1]
  · simp [expire, expired_concat, h1, hp, Ne.symm hp]

/-- The block of an entry is written once. -/
theorem update_tcb_expire (ht : t ∉ l) :
    Function.update (k.expire l).tcb t (k.tcb t).expire = (k.expire (l ++ [t])).tcb := by
  funext u
  by_cases hu : u = t
  · subst hu
    simp [expire]
  · simp [expire, hu]

/-- **One round of the walk** goes one entry further. -/
theorem processDelayedTask_expire (hstate : (k.expire l).stateLists.WF)
    (hwait : (k.expire l).waitLists.WF) (h : k.Delayed t) (hm : t ∈ k.delayList.nodes)
    (ht : t ∉ l) : processDelayedTask (k.expire l) t =
      (k.expire (l ++ [t]), decide ((k.tcb t).delayTicks = 1)) := by
  rw [processDelayedTask_of_delayed (h.expire ht), expire_tcb_of_notMem ht]
  by_cases h1 : (k.tcb t).delayTicks = 1
  · rw [if_pos h1, decide_eq_true h1]
    refine congrArg (·, true) ?_
    have htcb : ((k.expire l).release t).tcb = (k.expire (l ++ [t])).tcb := by
      rw [← update_tcb_expire ht, ← expire_tcb_of_notMem (k := k) ht]
      rfl
    calc (k.expire l).release t = { k with
            readyBitmap := ((k.expire l).release t).readyBitmap
            stateLists := ((k.expire l).release t).stateLists
            waitLists := ((k.expire l).release t).waitLists
            tcb := ((k.expire l).release t).tcb } := rfl
      _ = k.expire (l ++ [t]) := by
        rw [release_readyBitmap ht h1, release_stateLists hstate hm ht h1,
          release_waitLists hwait h ht h1, htcb]
        rfl
  · rw [if_neg h1, decide_eq_false h1]
    refine congrArg (·, false) ?_
    have hsame : k.expired (l ++ [t]) = k.expired l := by rw [expired_concat, if_neg h1]
    have hlists : k.expire (l ++ [t]) =
        { k.expire l with tcb := (k.expire (l ++ [t])).tcb } := by
      simp only [expire, hsame]
    rw [hlists, ← update_tcb_expire ht, Kernel.modify, expire_tcb_of_notMem ht, Tcb.expire,
      if_neg h1]

end Kernel

/-! ## The walk -/

namespace ListMemory

variable (M : ListModule NodeAddr)

/-- What a round of the loop of `process_delayed_tasks` does to `task`, at whose node `curr` it
stands, and whether it unblocked it. -/
def processDelayedTask (m : ListMemory) (curr : NodeAddr) (task : TaskId) : ListMemory × Bool :=
  let m :=
    if 0 < (m.tcb task).delayTicks then
      m.modify task fun b => { b with delayTicks := b.delayTicks - 1 }
    else m
  if (m.tcb task).delayTicks = 0 then
    let m := { m with heap := M.removeDirect m.heap (.stateRoot .delay) curr }
    let m := match (m.tcb task).waitList with
      | some W => (m.waitListRemove M W task).modify task fun b => { b with waitList := none }
      | none => m
    ((m.addReady M task).1, true)
  else (m, false)

/-- At most `n` rounds of the loop of `process_delayed_tasks`. -/
def processDelayedFrom : ℕ → ListMemory → Option NodeAddr → Bool → Option (ListMemory × Bool)
  | 0, _, _, _ => none
  | _ + 1, m, none, unblocked => some (m, unblocked)
  | n + 1, m, some curr, unblocked => do
    let next := m.heap.next curr
    let next := if next = some (.stateRoot .delay) then none else next
    let task ← curr.stateOwner
    let r := processDelayedTask M m curr task
    processDelayedFrom n r.1 next (unblocked || r.2)

/-- `process_delayed_tasks`, with at most `n` rounds of its loop. -/
def processDelayedTasks (m : ListMemory) (n : ℕ) : Option (ListMemory × Bool) :=
  processDelayedFrom M n m (M.peekHead m.heap (.stateRoot .delay)) false

end ListMemory

variable {M : ListModule NodeAddr} {m : ListMemory} {k : Kernel} {t : TaskId} {l rest : List TaskId}

/-! ### One round -/

namespace Represents

/-- The decrement. -/
theorem countTick (h : Represents m k) (t : TaskId) :
    Represents
      (if 0 < (m.tcb t).delayTicks then
        m.modify t fun b => { b with delayTicks := b.delayTicks - 1 } else m)
      (if 0 < (k.tcb t).delayTicks then
        k.modify t fun b => { b with delayTicks := b.delayTicks - 1 } else k) := by
  have hticks : (m.tcb t).delayTicks = (k.tcb t).delayTicks := by rw [h.tcb_eq]; rfl
  rw [hticks]
  split
  · exact h.modify rfl rfl
  · exact h

/-- The entry leaves the wait list that it names. -/
theorem leaveWaitList (hM : M.Lawful) (h : Represents m k)
    (hwait : ∀ W, (k.tcb t).waitList = some W → t ∈ (k.waitLists W).nodes) :
    Represents
      (match (m.tcb t).waitList with
        | some W => (m.waitListRemove M W t).modify t fun b => { b with waitList := none }
        | none => m)
      (match (k.tcb t).waitList with
        | some W => (Scheduler.waitListRemove k W t).modify t fun b => { b with waitList := none }
        | none => k) := by
  have hlist : (m.tcb t).waitList = (k.tcb t).waitList := by rw [h.tcb_eq]; rfl
  rw [hlist]
  cases hW : (k.tcb t).waitList with
  | none => exact h
  | some W => exact (h.waitListRemove hM fun _ => hwait W hW).modify rfl rfl

/-- **One round, link by link.** -/
theorem processDelayedTask (hM : M.Lawful) (h : Represents m k) (ht : t ∈ k.delayList.nodes)
    (hwait : ∀ W, (k.tcb t).waitList = some W → t ∈ (k.waitLists W).nodes) :
    Represents (m.processDelayedTask M (.stateNode t) t).1 (Scheduler.processDelayedTask k t).1 ∧
      (m.processDelayedTask M (.stateNode t) t).2 = (Scheduler.processDelayedTask k t).2 := by
  have hcount := h.countTick t
  simp only [ListMemory.processDelayedTask, Scheduler.processDelayedTask]
  generalize hm₁ : (if 0 < (m.tcb t).delayTicks then _ else m) = m₁ at hcount ⊢
  generalize hk₁ : (if 0 < (k.tcb t).delayTicks then _ else k) = k₁ at hcount ⊢
  have hdelay : t ∈ k₁.delayList.nodes := by
    rw [← hk₁]
    split <;> exact ht
  have hwait₁ : ∀ W, (k₁.tcb t).waitList = some W → t ∈ (k₁.waitLists W).nodes := by
    rw [← hk₁]
    split
    · simpa using hwait
    · exact hwait
  have hticks : (m₁.tcb t).delayTicks = (k₁.tcb t).delayTicks := by rw [hcount.tcb_eq]; rfl
  rw [hticks]
  by_cases h0 : (k₁.tcb t).delayTicks = 0
  · rw [if_pos h0, if_pos h0]
    refine ⟨((hcount.removeDirect hM hdelay).leaveWaitList hM hwait₁).addReady hM ?_, rfl⟩
    -- leaving a wait list touches no list of `state_node`s
    have hfree : (k₁.removeDirect .delay t).stateLists.Free t := hcount.states.wf.free_remove
    split
    · rwa [Kernel.modify_stateLists, Scheduler.waitListRemove_frame]
    · exact hfree
  · rw [if_neg h0, if_neg h0]
    exact ⟨hcount, rfl⟩

/-- The link out of the node that the walk stands on is to the next of the entries ahead. -/
theorem next_ahead (h : Represents m (k.expire l)) (hl : k.delayList.nodes = l ++ t :: rest)
    (hnodup : k.delayList.nodes.Nodup) :
    (if m.heap.next (.stateNode t) = some (.stateRoot .delay) then none
      else m.heap.next (.stateNode t)) = rest.head?.map .stateNode := by
  have hlist : IsList m.heap (.stateRoot .delay) ((k.expire l).delayList.nodes.map .stateNode) :=
    h.states.list .delay
  rw [Kernel.expire_delayList_of_append hl hnodup, List.map_append, List.map_cons] at hlist
  rw [hlist.next_or_null, List.head?_map]

end Represents

/-! ### The loop -/

/-- **The loop**, with the entries `l` behind it and `rest` ahead. -/
theorem processDelayedFrom_spec (hM : M.Lawful) (hl : k.delayList.nodes = l ++ rest)
    (hnodup : k.delayList.nodes.Nodup) (hdelayed : ∀ t ∈ rest, k.Delayed t)
    (h : Represents m (k.expire l)) (unblocked : Bool) :
    ∃ m', (∀ n, rest.length < n →
        m.processDelayedFrom M n (rest.head?.map .stateNode) unblocked =
          some (m', unblocked || decide (k.expired rest ≠ []))) ∧
      Represents m' (k.expire k.delayList.nodes) ∧
      Scheduler.processDelayedFrom (k.expire l) unblocked rest =
        (k.expire k.delayList.nodes, unblocked || decide (k.expired rest ≠ [])) := by
  induction rest generalizing l m unblocked with
  | nil =>
    have hl : k.delayList.nodes = l := by rw [hl, List.append_nil]
    refine ⟨m, fun n hn => ?_, hl ▸ h, ?_⟩
    · obtain ⟨n, rfl⟩ := Nat.exists_eq_succ_of_ne_zero (Nat.ne_zero_of_lt hn)
      simp [ListMemory.processDelayedFrom, Kernel.expired]
    · simp [Scheduler.processDelayedFrom, Kernel.expired, hl]
  | cons t rest ih =>
    have hsplit := hnodup
    rw [hl, List.nodup_middle] at hsplit
    have htl : t ∉ l := fun hm => (List.nodup_cons.1 hsplit).1 (List.mem_append_left _ hm)
    have ht : t ∈ k.delayList.nodes := by rw [hl]; simp
    have hdelay := hdelayed t List.mem_cons_self
    -- the round, as the kernel has it and on the links
    have hround := Kernel.processDelayedTask_expire h.states.wf h.waits.wf hdelay ht htl
    have hin : t ∈ (k.expire l).delayList.nodes :=
      Kernel.mem_expire_delay.2 ⟨ht, Kernel.notMem_expired htl⟩
    obtain ⟨hrep, hflag⟩ := h.processDelayedTask hM hin (hdelay.expire htl).mem_waitList
    rw [hround] at hrep hflag
    obtain ⟨m', hrun, hrep', hloop⟩ := ih (l := l ++ [t]) (by simpa using hl)
      (fun u hu => hdelayed u (List.mem_cons_of_mem t hu)) hrep
      (unblocked || decide ((k.tcb t).delayTicks = 1))
    rw [Kernel.or_expired_cons] at hrun hloop
    refine ⟨m', fun n hn => ?_, hrep', ?_⟩
    · obtain ⟨n, rfl⟩ := Nat.exists_eq_succ_of_ne_zero (Nat.ne_zero_of_lt hn)
      simp only [ListMemory.processDelayedFrom, List.head?_cons, Option.map_some,
        NodeAddr.stateOwner, Option.bind_eq_bind, Option.bind_some]
      rw [h.next_ahead hl hnodup, hflag]
      exact hrun n (Nat.lt_of_succ_lt_succ hn)
    · rw [Scheduler.processDelayedFrom, hround]
      exact hloop

/-- **The walk, link by link,** and as the kernel has it. -/
theorem Represents.processDelayedTasks (hM : M.Lawful) (h : Represents m k)
    (hdelayed : ∀ t ∈ k.delayList.nodes, k.Delayed t) :
    ∃ m', (∀ n, k.delayList.nodes.length < n → m.processDelayedTasks M n =
        some (m', decide (k.expired k.delayList.nodes ≠ []))) ∧
      Represents m' (k.expire k.delayList.nodes) ∧
      Scheduler.processDelayedTasks k =
        (k.expire k.delayList.nodes, decide (k.expired k.delayList.nodes ≠ [])) := by
  have hstart := Kernel.expire_nil h.states.wf h.waits.wf
  obtain ⟨m', hrun, hrep, hloop⟩ := @processDelayedFrom_spec M m k [] k.delayList.nodes hM rfl
    (h.states.wf.list .delay).nodup hdelayed (by rwa [hstart]) false
  rw [hstart] at hloop
  have hhead : M.peekHead m.heap (.stateRoot .delay) = k.delayList.nodes.head?.map .stateNode :=
    (hM.peekHead (h.states.list .delay)).trans List.head?_map
  refine ⟨m', fun n hn => ?_, hrep, hloop⟩
  rw [ListMemory.processDelayedTasks, hhead]
  exact hrun n hn

/-- In a reachable state the walk over the links is the walk of the kernel. -/
theorem ListInv.processDelayedTasks_represents (hinv : k.ListInv) (hM : M.Lawful)
    (h : Represents m k) : ∃ m', (∀ n, k.delayList.nodes.length < n →
        m.processDelayedTasks M n = some (m', (Scheduler.processDelayedTasks k).2)) ∧
      Represents m' (Scheduler.processDelayedTasks k).1 := by
  obtain ⟨m', hrun, hrep, hkernel⟩ := h.processDelayedTasks hM fun t ht => hinv.delayed ht
  rw [hkernel]
  exact ⟨m', hrun, hrep⟩

/-- **The walk is an expiry of all entries at once.** -/
theorem processDelayedTasks_expires (hM : M.Lawful) (h : Represents m k)
    (hpriority : ∀ t ∈ k.delayList.nodes, (k.tcb t).priority < maxPriorities)
    (hticks : ∀ t ∈ k.delayList.nodes, 1 ≤ (k.tcb t).delayTicks)
    (hwait : ∀ t ∈ k.delayList.nodes, ∀ W, (k.tcb t).waitList = some W →
      t ∈ (k.waitLists W).nodes) :
    ∃ m', (∀ n, k.delayList.nodes.length < n → m.processDelayedTasks M n =
        some (m', decide (∃ t ∈ k.delayList.nodes, (k.tcb t).delayTicks = 1))) ∧
      Represents m' (k.expire k.delayList.nodes) := by
  have hsome : (k.expired k.delayList.nodes ≠ []) =
      ∃ t ∈ k.delayList.nodes, (k.tcb t).delayTicks = 1 := by
    simp [Kernel.expired, List.filter_eq_nil_iff]
  obtain ⟨m', hrun, hrep, -⟩ := h.processDelayedTasks hM fun t ht =>
    { priority_lt := hpriority t ht
      delayTicks_pos := hticks t ht
      mem_waitList := hwait t ht
      eventLinked := fun hsome => by
        obtain ⟨W, hW⟩ := Option.isSome_iff_exists.1 hsome
        rw [h.eventLinked_eq]
        exact h.waits.linked_of_mem (hwait t ht W hW) }
  simp only [hsome] at hrun
  exact ⟨m', hrun, hrep⟩

/-- Three tasks are asleep: task 1 has one tick left and waits for a semaphore, task 2 has three
ticks left, and task 3 has one. -/
def threeAsleep : Kernel where
  __ := Scheduler.bss
  stateLists
    | .delay => .ofNodes [1, 2, 3]
    | .ready _ => .init
  waitLists
    | .sem 0 => .ofNodes [1]
    | _ => .init
  tcb t :=
    ⟨.blocked, 4, 4, if t = 2 then 3 else 1, if t = 1 then some (.sem 0) else none, true, t = 1⟩

/-- Their links. -/
def threeAsleepMemory : ListMemory where
  heap :=
    { next := fun
        | .stateRoot .delay => some (.stateNode 1)
        | .stateNode 1 => some (.stateNode 2)
        | .stateNode 2 => some (.stateNode 3)
        | .stateNode 3 => some (.stateRoot .delay)
        | .waitRoot (.sem 0) => some (.eventNode 1)
        | .eventNode 1 => some (.waitRoot (.sem 0))
        | .stateRoot L => some (.stateRoot L)
        | .waitRoot W => some (.waitRoot W)
        | _ => none
      prev := fun
        | .stateRoot .delay => some (.stateNode 3)
        | .stateNode 1 => some (.stateRoot .delay)
        | .stateNode 2 => some (.stateNode 1)
        | .stateNode 3 => some (.stateNode 2)
        | .waitRoot (.sem 0) => some (.eventNode 1)
        | .eventNode 1 => some (.waitRoot (.sem 0))
        | .stateRoot L => some (.stateRoot L)
        | .waitRoot W => some (.waitRoot W)
        | _ => none
      count := fun
        | .stateRoot .delay => 3
        | .waitRoot (.sem 0) => 1
        | _ => 0 }
  tcb t := (threeAsleep.tcb t).fields
  readyBitmap := threeAsleep.readyBitmap

theorem threeAsleepMemory_represents : Represents threeAsleepMemory threeAsleep where
  states :=
    { list := fun
        | .delay => ⟨by decide, by decide, by decide⟩
        | .ready _ => .nil rfl rfl rfl
      count_eq := fun
        | .delay => rfl
        | .ready _ => rfl }
  waits :=
    { list := fun
        | .sem 0 => ⟨by decide, by decide, by decide⟩
        | .sem (_ + 1) => .nil rfl rfl rfl
        | .mutex _ => .nil rfl rfl rfl
        | .other _ => .nil rfl rfl rfl
      count_eq := fun
        | .sem 0 => rfl
        | .sem (_ + 1) => rfl
        | .mutex _ => rfl
        | .other _ => rfl }
  tcb_eq _ := rfl
  bitmap_eq := rfl
  eventLinked_eq
    | 0 => rfl
    | 1 => rfl
    | _ + 2 => rfl

/-- Task 2 stays asleep, with two ticks left. -/
theorem processDelayedTasks_expires_threeAsleep :
    ∃ m', (∀ n, 3 < n → threeAsleepMemory.processDelayedTasks ListModule.reference n =
        some (m', true)) ∧
      Represents m' (threeAsleep.expire [1, 2, 3]) :=
  processDelayedTasks_expires ListModule.reference_lawful threeAsleepMemory_represents
    (by decide) (by decide) (by decide)

end Sertos
