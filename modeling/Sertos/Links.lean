import Sertos.Lib.Layout
import Sertos.Scheduler

/-!
# The links behind the lists

`Kernel` holds the lists of the scheduler as sequences.  Here they are what they are in memory: the
roots of the ready queues, of the delay list and of the wait lists, the nodes `state_node` and
`event_node` of the control blocks, and the links of all of them in one heap.

`Represents` says that a memory holds the lists, the fields and the bitmap of a kernel.  What
`linked_list_remove_direct` leaves in a node is the list library's business, so of the two flags of
a control block only `eventLinked` is compared, which the code resets itself.  The functions of
`sertos_scheduler.c` that `process_delayed_tasks` calls represent those of the kernel.
-/

set_option autoImplicit false

namespace Sertos

open Intrusive Circular

/-! ## Addresses -/

/-- The addresses of list nodes. -/
inductive NodeAddr
  /-- `root` of a list that is linked through `state_node`. -/
  | stateRoot (L : StateList)
  | stateNode (t : TaskId)
  /-- `root` of a list that is linked through `event_node`. -/
  | waitRoot (W : WaitList)
  | eventNode (t : TaskId)
deriving DecidableEq, Repr

namespace NodeAddr

/-- `LINKED_LIST_CONTAINER_OF(node, SertosTaskControlBlock, state_node)`; there is no result if the
node is no `state_node`. -/
def stateOwner : NodeAddr → Option TaskId
  | stateNode t => some t
  | _ => none

/-- `LINKED_LIST_CONTAINER_OF(node, SertosTaskControlBlock, event_node)`; there is no result if the
node is no `event_node`. -/
def eventOwner : NodeAddr → Option TaskId
  | eventNode t => some t
  | _ => none

end NodeAddr

/-- The lists that are linked through `state_node`. -/
def stateLayout : Layout StateList TaskId NodeAddr where
  root := .stateRoot
  node := .stateNode
  root_injective _ _ e := NodeAddr.stateRoot.inj e
  node_injective _ _ e := NodeAddr.stateNode.inj e
  root_ne_node _ _ e := NodeAddr.noConfusion e

/-- The lists that are linked through `event_node`. -/
def waitLayout : Layout WaitList TaskId NodeAddr where
  root := .waitRoot
  node := .eventNode
  root_injective _ _ e := NodeAddr.waitRoot.inj e
  node_injective _ _ e := NodeAddr.eventNode.inj e
  root_ne_node _ _ e := NodeAddr.noConfusion e

theorem stateLayout_apart : stateLayout.Apart waitLayout where
  root_root _ _ e := NodeAddr.noConfusion e
  root_node _ _ e := NodeAddr.noConfusion e
  node_root _ _ e := NodeAddr.noConfusion e
  node_node _ _ e := NodeAddr.noConfusion e

/-! ## Memory -/

/-- The fields of a control block beside its nodes. -/
structure Fields where
  state : TaskState
  priority : ℕ
  delayTicks : ℕ
  waitList : Option WaitList
deriving DecidableEq, Repr

/-- What the scheduler's lists are made of. -/
structure ListMemory where
  heap : Heap NodeAddr
  tcb : TaskId → Fields
  readyBitmap : Bitmap

namespace ListMemory

/-- Writes fields of one control block. -/
def modify (m : ListMemory) (t : TaskId) (f : Fields → Fields) : ListMemory :=
  { m with tcb := Function.update m.tcb t (f (m.tcb t)) }

variable (M : ListModule NodeAddr)

/-- `sertos_scheduler_add_ready`. -/
def addReady (m : ListMemory) (t : TaskId) : ListMemory × Status :=
  let p := (m.tcb t).priority
  if maxPriorities ≤ p then (m, .errorInvalidParam)
  else
    let m := { m with heap := M.insertTailDirect m.heap (.stateRoot (.ready p)) (.stateNode t) }
    let m := { m with readyBitmap := Function.update m.readyBitmap p true }
    (m.modify t fun b => { b with state := .ready }, .ok)

/-- `sertos_scheduler_wait_list_remove`. -/
def waitListRemove (m : ListMemory) (W : WaitList) (t : TaskId) : ListMemory :=
  if m.heap.next (.eventNode t) = none then m
  else
    let heap := M.removeDirect m.heap (.waitRoot W) (.eventNode t)
    let heap := heap.setNext (.eventNode t) none
    let heap := heap.setPrev (.eventNode t) none
    { m with heap := heap }

end ListMemory

/-! ## Representation -/

/-- The fields of a control block of the kernel. -/
def Tcb.fields (b : Tcb) : Fields := ⟨b.state, b.priority, b.delayTicks, b.waitList⟩

/-- The memory holds the lists, the fields and the bitmap of the kernel. -/
structure Represents (m : ListMemory) (k : Kernel) : Prop where
  states : stateLayout.Spells m.heap k.stateLists
  waits : waitLayout.Spells m.heap k.waitLists
  tcb_eq : ∀ t, m.tcb t = (k.tcb t).fields
  bitmap_eq : m.readyBitmap = k.readyBitmap
  eventLinked_eq : ∀ t, (k.tcb t).eventLinked = (m.heap.next (.eventNode t)).isSome

namespace Represents

variable {m : ListMemory} {k : Kernel} {t u : TaskId} {W : WaitList} {M : ListModule NodeAddr}

/-- The fields of one control block are written. -/
theorem modify (h : Represents m k) {f : Fields → Fields} {g : Tcb → Tcb}
    (hfields : (g (k.tcb t)).fields = f (k.tcb t).fields)
    (hlinked : (g (k.tcb t)).eventLinked = (k.tcb t).eventLinked) :
    Represents (m.modify t f) (k.modify t g) where
  states := h.states
  waits := h.waits
  tcb_eq u := by
    by_cases hu : u = t
    · subst hu
      rw [Kernel.modify_tcb_same, hfields, ← h.tcb_eq]
      exact Function.update_self ..
    · rw [Kernel.modify_tcb_of_ne k t _ hu, ← h.tcb_eq]
      exact Function.update_of_ne hu _ _
  bitmap_eq := h.bitmap_eq
  eventLinked_eq u := by
    by_cases hu : u = t
    · subst hu
      rw [Kernel.modify_tcb_same, hlinked, h.eventLinked_eq]
      rfl
    · rw [Kernel.modify_tcb_of_ne k t _ hu, h.eventLinked_eq]
      rfl

/-- An operation on `state_node`s leaves the wait lists and the `event_node`s alone. -/
theorem setStates (h : Represents m k) {heap : Heap NodeAddr} {B : Bundle StateList TaskId}
    {L : StateList} {l : List TaskId} (hS : stateLayout.Spells heap B)
    (hc : Confined m.heap heap (.stateRoot L) (l.map .stateNode)) :
    Represents { m with heap := heap } { k with stateLists := B } where
  states := hS
  waits := h.waits.of_confined stateLayout_apart hc
  tcb_eq := h.tcb_eq
  bitmap_eq := h.bitmap_eq
  eventLinked_eq u := by
    have hnode : NodeAddr.eventNode u ∉ .stateRoot L :: l.map .stateNode := by simp
    rw [h.eventLinked_eq]
    show _ = (heap.next _).isSome
    rw [hc.next_eq _ hnode]

/-- The `event_node` of `t` goes into a wait list or out of it, and no other does. -/
theorem setWaits (h : Represents m k) {heap : Heap NodeAddr} {B : Bundle WaitList TaskId}
    {g : Tcb → Tcb} (hstates : stateLayout.Spells heap k.stateLists)
    (hwaits : waitLayout.Spells heap B) (hfields : (g (k.tcb t)).fields = (k.tcb t).fields)
    (hlinked : (g (k.tcb t)).eventLinked = (heap.next (.eventNode t)).isSome)
    (hothers : ∀ u, u ≠ t →
      (heap.next (.eventNode u)).isSome = (m.heap.next (.eventNode u)).isSome) :
    Represents { m with heap := heap } { k.modify t g with waitLists := B } where
  states := hstates
  waits := hwaits
  tcb_eq u := by
    rw [h.tcb_eq]
    by_cases hu : u = t
    · subst hu
      rw [Kernel.modify_tcb_same, hfields]
    · rw [Kernel.modify_tcb_of_ne k t _ hu]
  bitmap_eq := h.bitmap_eq
  eventLinked_eq u := by
    by_cases hu : u = t
    · subst hu
      rw [Kernel.modify_tcb_same, hlinked]
    · rw [Kernel.modify_tcb_of_ne k t _ hu, h.eventLinked_eq, hothers u hu]

/-- The flag of the `state_node` is not compared. -/
theorem setStateLinked (h : Represents m k) (t : TaskId) (linked : Bool) :
    Represents m (k.modify t fun b => { b with stateLinked := linked }) := by
  have hmodify :=
    h.modify (t := t) (f := id) (g := fun b => { b with stateLinked := linked }) rfl rfl
  rwa [ListMemory.modify, id, Function.update_eq_self] at hmodify

theorem setBit (h : Represents m k) (p : ℕ) :
    Represents { m with readyBitmap := Function.update m.readyBitmap p true }
      { k with readyBitmap := Function.update k.readyBitmap p true } :=
  ⟨h.states, h.waits, h.tcb_eq, by rw [h.bitmap_eq], h.eventLinked_eq⟩

theorem removeDirect (hM : M.Lawful) (h : Represents m k) {L : StateList}
    (ht : t ∈ (k.stateLists L).nodes) :
    Represents { m with heap := M.removeDirect m.heap (.stateRoot L) (.stateNode t) }
      (k.removeDirect L t) :=
  h.setStates (h.states.remove hM ht)
    (hM.remove_confined (h.states.list L) (List.mem_map_of_mem ht))

/-- `sertos_scheduler_add_ready`, for a task in no such list. -/
theorem addReady (hM : M.Lawful) (h : Represents m k) (ht : k.stateLists.Free t) :
    Represents (m.addReady M t).1 (Scheduler.addReady k t).1 := by
  have hpriority : (m.tcb t).priority = (k.tcb t).priority := by rw [h.tcb_eq]; rfl
  rw [ListMemory.addReady, Scheduler.addReady, hpriority]
  by_cases hp : maxPriorities ≤ (k.tcb t).priority
  · rw [if_pos hp, if_pos hp]
    exact h
  · rw [if_neg hp, if_neg hp]
    have hnew : NodeAddr.stateNode t ∉ stateLayout.root (.ready (k.tcb t).priority) ::
        (k.stateLists (.ready (k.tcb t).priority)).nodes.map stateLayout.node :=
      fun hm => ht _ (stateLayout.node_mem_ring.1 hm)
    have hinsert := (h.setStateLinked t true).setStates (h.states.insertTail hM ht)
      (l := t :: (k.stateLists (.ready (k.tcb t).priority)).nodes)
      (hM.insertTail_confined (h.states.list _) hnew)
    exact (hinsert.setBit _).modify (t := t) (f := fun b => { b with state := .ready })
      (g := fun b => { b with state := .ready }) rfl rfl

/-- A change of list `W` in which the other tasks of the list stay leaves their `event_node`s
linked. -/
theorem isSome_next (h : Represents m k) {heap : Heap NodeAddr} {B : Bundle WaitList TaskId}
    {l : List TaskId} (hB : waitLayout.Spells heap B)
    (hc : Confined m.heap heap (.waitRoot W) (l.map .eventNode))
    (hl : ∀ u ∈ l, u ≠ t → u ∈ (k.waitLists W).nodes ∧ u ∈ (B W).nodes) (hu : u ≠ t) :
    (heap.next (.eventNode u)).isSome = (m.heap.next (.eventNode u)).isSome := by
  by_cases hul : u ∈ l
  · obtain ⟨hbefore, hafter⟩ := hl u hul hu
    exact (hB.linked_of_mem hafter).trans (h.waits.linked_of_mem hbefore).symm
  · have hring : NodeAddr.eventNode u ∉ waitLayout.ring W l :=
      fun hm => hul (waitLayout.node_mem_ring.1 hm)
    exact congrArg Option.isSome (hc.next_eq _ hring)

/-- `sertos_scheduler_wait_list_remove`, for a task that is not on another wait list. -/
theorem waitListRemove (hM : M.Lawful) (h : Represents m k)
    (ht : (k.tcb t).eventLinked = true → t ∈ (k.waitLists W).nodes) :
    Represents (m.waitListRemove M W t) (Scheduler.waitListRemove k W t) := by
  have hlinked := h.eventLinked_eq t
  rw [ListMemory.waitListRemove, Scheduler.waitListRemove]
  cases hnext : m.heap.next (.eventNode t) with
  | none =>
    rw [hnext] at hlinked
    rw [if_pos rfl, if_neg (by simp [hlinked])]
    exact h
  | some a =>
    have hlinked : (k.tcb t).eventLinked = true := by rw [hlinked, hnext]; rfl
    have hmem := ht hlinked
    rw [if_neg (by simp), if_pos hlinked]
    have hwaits := h.waits.remove hM hmem
    have hfree : ∀ V, NodeAddr.eventNode t ∉
        waitLayout.ring V ((k.waitLists.remove W t) V).nodes := fun V hm =>
      h.waits.wf.free_remove V (waitLayout.node_mem_ring.1 hm)
    have hc := hM.remove_confined (h.waits.list W) (List.mem_map_of_mem (f := waitLayout.node) hmem)
    have hclear : ∀ heap : Heap NodeAddr, Confined heap
        ((heap.setNext (.eventNode t) none).setPrev (.eventNode t) none) (.eventNode t) [] :=
      fun heap => (confined_setNext heap _ _).trans (confined_setPrev _ _ _)
    refine h.setWaits ?_ (hwaits.of_confined_node (hclear _) hfree) rfl (by simp) fun u hu => ?_
    · exact (h.states.of_confined stateLayout_apart.symm hc).of_confined_node (hclear _)
        fun L => stateLayout_apart.symm.node_notMem_ring (S := waitLayout)
    · have hne : NodeAddr.eventNode u ≠ .eventNode t := fun e => hu (NodeAddr.eventNode.inj e)
      rw [Heap.setPrev_next, Heap.setNext_next_of_ne hne]
      exact h.isSome_next hwaits hc (fun v hv hvt => ⟨hv, (List.mem_erase_of_ne hvt).2 hv⟩) hu

end Represents

end Sertos
