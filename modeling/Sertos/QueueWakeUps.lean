import Sertos.QueueData
import Sertos.Waiting
import Sertos.Lib.WakeUps

/-!
# Waiting for a message queue

Runs of the queue's functions, each call or resumption one step up to its next blocking point, by
any number of tasks and interrupts, with any scheduling in between.

Both sides of the queue work alike.  Receivers wait for items and senders for spaces
(`Queue.level`); a call that passes its test takes a unit from its own side, adds one to the other
side and wakes one task there.  `Served W n` says that `n` units of the side that waits on `W` are
on their way to woken tasks, and every step keeps all the units of a side on their way
(`Served.step`) with two exceptions, one on each side: a peek that comes back from its wait leaves
the item where it is, and a reset adds spaces and wakes nobody.
-/

set_option autoImplicit false

namespace Sertos

open Intrusive Lts Scheduler WakeUps

/-- One step of a run on a queue. -/
inductive QueueOp
  /-- A critical section of the scheduler. -/
  | kernel (a : Section)
  /-- The processor is given to `t`. -/
  | dispatch (t : TaskId)
  /-- A call, up to its blocking point. -/
  | enter (a : QueueCall)
  /-- The current task comes back from its wait. -/
  | resume
  | sendFromIsr (item : List UInt8)
  | receiveFromIsr
  | reset
deriving DecidableEq, Repr

namespace QueueSystem

/-- The tasks on a wait list. -/
def waiting (s : QueueSystem) (W : WaitList) : List TaskId := (s.kernel.waitLists W).nodes

/-- The call in which the current task waits. -/
def currentCall (s : QueueSystem) : Option QueueCall := s.kernel.currentTcb.bind s.call

/-- The system after the scheduler has been initialised and a queue has been created. -/
def init (k : Kernel) (x : Queue) : QueueSystem := ⟨k, x, fun _ => none⟩

/-- The task `t` is in a call that waits on `W`. -/
def Pending (s : QueueSystem) (W : WaitList) (t : TaskId) : Prop :=
  ∃ a, s.call t = some a ∧ a.waitList = W

end QueueSystem

/-- The call sends items of the size the queue was created for. -/
def QueueCall.Sized (x : Queue) : QueueCall → Prop
  | .send item _ => item.length = x.itemSize
  | .receive _ | .peek _ => True

instance (x : Queue) : DecidablePred (QueueCall.Sized x)
  | .send item _ => inferInstanceAs (Decidable (item.length = x.itemSize))
  | .receive _ | .peek _ => .isTrue trivial

/-- The call looks at an item and leaves it where it is. -/
def QueueCall.IsPeek : QueueCall → Prop
  | .peek _ => True
  | .send _ _ | .receive _ => False

namespace QueueOp

/-- The state change of a step. -/
def run (s : QueueSystem) : QueueOp → QueueSystem
  | .kernel a => { s with kernel := a.run s.kernel }
  | .dispatch t => { s with kernel := { s.kernel with currentTcb := some t } }
  | .enter a => (s.enter a).1
  | .resume => match s.kernel.currentTcb with
    | some c => match s.call c with
      | some a => (s.resume c a).1
      | none => s
    | none => s
  | .sendFromIsr item => (s.sendFromIsr item).1
  | .receiveFromIsr => s.receiveFromIsr.1
  | .reset => s.reset.1

/-- The scheduler's sections: those that block or wake do so on the wait lists of other objects, a
task makes calls of its own only when it is not in one, and so is the task whose control block is
set up. -/
def AllowedSection (s : QueueSystem) : Section → Prop
  | .critical (.create _ t) => s.call t = none
  | .critical (.block W _) =>
    W ≠ Queue.waitSend ∧ W ≠ Queue.waitRecv ∧ s.currentCall = none
  | .critical (.unblock W) => W ≠ Queue.waitSend ∧ W ≠ Queue.waitRecv
  | .critical .yield | .critical (.delay _) => s.currentCall = none
  | _ => True

/-- The steps that can come next.  Calls wait forever or not at all, and a task in its wait goes on
only when it has been taken off the wait list. -/
def Allowed (s : QueueSystem) : QueueOp → Prop
  | .kernel a => AllowedSection s a
  | .enter a => s.currentCall = none ∧ (a.timeout = noWait ∨ a.timeout = waitForever) ∧
    a.Sized s.queue
  | .resume => ∃ c ∈ s.kernel.currentTcb, ∃ a ∈ s.call c, c ∉ s.waiting a.waitList
  | .sendFromIsr item => item.length = s.queue.itemSize
  | .dispatch _ | .receiveFromIsr | .reset => True

instance (s : QueueSystem) : DecidablePred (AllowedSection s)
  | .critical (.create _ t) => inferInstanceAs (Decidable (s.call t = none))
  | .critical (.block W _) => inferInstanceAs (Decidable
    (W ≠ Queue.waitSend ∧ W ≠ Queue.waitRecv ∧ s.currentCall = none))
  | .critical (.unblock W) => inferInstanceAs (Decidable (W ≠ Queue.waitSend ∧ W ≠ Queue.waitRecv))
  | .critical .yield | .critical (.delay _) => inferInstanceAs (Decidable (s.currentCall = none))
  | .critical (.start _) | .critical .tick | .critical .reschedule | .critical .lock
  | .critical .unlock | .start _ | .switchContext | .performSwitch => .isTrue trivial

instance (s : QueueSystem) : DecidablePred (Allowed s)
  | .kernel a => inferInstanceAs (Decidable (AllowedSection s a))
  | .enter a => inferInstanceAs (Decidable (s.currentCall = none ∧
    (a.timeout = noWait ∨ a.timeout = waitForever) ∧ a.Sized s.queue))
  | .resume => inferInstanceAs (Decidable
    (∃ c ∈ s.kernel.currentTcb, ∃ a ∈ s.call c, c ∉ s.waiting a.waitList))
  | .sendFromIsr item => inferInstanceAs (Decidable (item.length = s.queue.itemSize))
  | .dispatch _ | .receiveFromIsr | .reset => .isTrue trivial

/-- One step of a run. -/
abbrev Step : QueueSystem → QueueOp → QueueSystem → Prop := Guarded QueueOp.Allowed QueueOp.run

end QueueOp

/-! ## The two sides of a queue -/

namespace Queue

/-- `A` is the wait list of one side of the queue and `B` that of the other. -/
def Sides (A B : WaitList) : Prop :=
  (A = waitSend ∧ B = waitRecv) ∨ (A = waitRecv ∧ B = waitSend)

variable {x x' : Queue} {items : List (List UInt8)} {item : List UInt8} {V W : WaitList}

/-- How many units there are of what the tasks on `W` wait for. -/
def level (x : Queue) (W : WaitList) : ℕ :=
  if W = waitRecv then x.getCount else x.getSpacesAvailable

theorem level_waitRecv : x.level waitRecv = x.getCount := rfl

theorem level_waitSend : x.level waitSend = x.getSpacesAvailable := rfl

/-- The queue holds items. -/
def Sound (x : Queue) : Prop := ∃ items, x.Holds items

/-- A data step that takes a unit from the side `V` and adds one to the side `W`. -/
structure Trade (V W : WaitList) (x x' : Queue) : Prop where
  sound : x'.Sound
  itemSize : x'.itemSize = x.itemSize
  taken : x.level V = x'.level V + 1
  added : x'.level W = x.level W + 1

theorem sendData_trade (h : x.Sound) (hitem : item.length = x.itemSize) :
    (x.sendData item = none ∧ x.level waitSend = 0) ∨
      ∃ x', x.sendData item = some x' ∧ Trade waitSend waitRecv x x' := by
  obtain ⟨items, h⟩ := h
  have hspaces := h.getSpacesAvailable
  rcases h.length_le.eq_or_lt with hfull | hspace
  · refine Or.inl ⟨sendData_of_full h hfull, ?_⟩
    rw [level_waitSend]
    omega
  · obtain ⟨x', hx', h', hsize, hmax⟩ := sendData_of_space h hspace hitem
    have hlen : (items ++ [item]).length = items.length + 1 := by simp
    refine Or.inr ⟨x', hx', ⟨_, h'⟩, hsize, ?_, ?_⟩
    · rw [level_waitSend, level_waitSend, hspaces, h'.getSpacesAvailable, hmax, hlen]
      omega
    · rw [level_waitRecv, level_waitRecv, h.getCount, h'.getCount, hlen]

theorem receiveData_trade (h : x.Sound) :
    (x.receiveData = none ∧ x.level waitRecv = 0) ∨
      ∃ x' item, x.receiveData = some (x', item) ∧ Trade waitRecv waitSend x x' := by
  obtain ⟨items, h⟩ := h
  cases items with
  | nil =>
    refine Or.inl ⟨receiveData_of_empty h, ?_⟩
    rw [level_waitRecv, h.getCount]
    rfl
  | cons item items =>
    have hle := h.length_le
    rw [List.length_cons] at hle
    obtain ⟨x', hx', h', hsize, hmax⟩ := receiveData_of_cons h
    refine Or.inr ⟨x', item, hx', ⟨_, h'⟩, hsize, ?_, ?_⟩
    · rw [level_waitRecv, level_waitRecv, h.getCount, h'.getCount, List.length_cons]
    · rw [level_waitSend, level_waitSend, h.getSpacesAvailable, h'.getSpacesAvailable, hmax,
        List.length_cons]
      omega

end Queue

/-! ## Units on their way -/

namespace QueueSystem

variable {s : QueueSystem} {V W : WaitList} {n m : ℕ} {c t : TaskId} {a : QueueCall} {k : Kernel}

@[simp] theorem waiting_setCall (b : Option QueueCall) : (s.setCall c b).waiting W = s.waiting W :=
  rfl

theorem pending_setCall_of_ne {b : Option QueueCall} (h : t ≠ c) :
    (s.setCall c b).Pending W t ↔ s.Pending W t := by
  simp only [Pending, setCall_call_of_ne s c b h]

/-- What the task `c` does is no concern of the side it does not wait for. -/
theorem Pending.setCall {b : Option QueueCall} (ht : s.Pending W t) (hc : ¬ s.Pending W c) :
    (s.setCall c b).Pending W t := by
  have htc : t ≠ c := fun e => hc (e ▸ ht)
  exact (pending_setCall_of_ne htc).2 ht

/-- The wait list `W` is in order, the tasks on it are in calls that wait on it, and `n` units are
on their way to tasks that have been taken off it. -/
structure Served (W : WaitList) (n : ℕ) (s : QueueSystem) : Prop where
  usable : s.kernel.Usable W
  pending : ∀ t ∈ s.waiting W, s.Pending W t
  covered : Covered (s.waiting W) (s.Pending W) n

namespace Served

/-- What the scheduler does to the list by itself. -/
theorem shrink (h : Served W n s) (hk : Kernel.Shrinks W s.kernel k) (x : Queue) :
    Served W n { s with kernel := k, queue := x } := by
  obtain ⟨husable, hsub⟩ := hk h.usable
  exact ⟨husable, fun t ht => h.pending t (hsub ht), h.covered.mono hsub (fun _ ht => ht) le_rfl⟩

/-- A task outside calls is not on the list. -/
theorem notMem_of_call (h : Served W n s) (hc : s.call c = none) : c ∉ s.waiting W := by
  intro hm
  obtain ⟨b, hb, -⟩ := h.pending c hm
  rw [hc] at hb
  exact absurd hb (by simp)

theorem mono (h : Served W n s) (hm : m ≤ n) : Served W m s :=
  ⟨h.usable, h.pending, h.covered.mono (List.Subset.refl _) (fun _ ht => ht) hm⟩

/-- A unit is added and a task is woken for it. -/
theorem wake (h : Served W n s) (x : Queue) :
    Served W (n + 1) { s with kernel := (waitListUnblockHighest s.kernel W).1, queue := x } := by
  have hshrink := h.shrink (Kernel.Shrinks.unblockHighest (V := W)) x
  cases hW : s.waiting W with
  | nil =>
    rw [show (waitListUnblockHighest s.kernel W).1 = s.kernel by
      rw [waitListUnblockHighest_nil hW]]
    refine ⟨h.usable, h.pending, ?_⟩
    rw [show QueueSystem.waiting { s with queue := x } W = [] from hW]
    exact .nil _ _
  | cons t rest =>
    have hrest : waiting { s with kernel := (waitListUnblockHighest s.kernel W).1, queue := x } W
        = rest := h.usable.unblock hW
    have hnodup := h.usable.nodup
    have hcovered := h.covered
    rw [show (s.kernel.waitLists W).nodes = t :: rest from hW, List.nodup_cons] at hnodup
    rw [hW] at hcovered
    refine ⟨hshrink.usable, hshrink.pending, ?_⟩
    rw [hrest]
    exact hcovered.wake (h.pending t (by simp [hW])) hnodup.1

/-- The task `c`, which is not on the list, leaves its call. -/
theorem setCall_none (h : Served W n s) (hc : c ∉ s.waiting W)
    (hcovered : Covered (s.waiting W) ((s.setCall c none).Pending W) m) :
    Served W m (s.setCall c none) := by
  refine ⟨h.usable, fun t ht => ?_, hcovered⟩
  have htc : t ≠ c := fun e => hc (e ▸ ht)
  exact (pending_setCall_of_ne htc).2 (h.pending t ht)

/-- A task that comes for its unit. -/
theorem leave (h : Served W n s) (hc : c ∉ s.waiting W) : Served W (n - 1) (s.setCall c none) :=
  h.setCall_none hc (h.covered.leave fun _ hu hp => (pending_setCall_of_ne hu).2 hp)

/-- A task that waits for units of the other side. -/
theorem leave_other (h : Served W n s) (hc : ¬ s.Pending W c) :
    Served W n (s.setCall c none) := by
  refine h.setCall_none (fun hm => hc (h.pending c hm)) ?_
  exact h.covered.mono (List.Subset.refl _) (fun t ht => ht.setCall hc) le_rfl

/-- A task is queued on `W` when there are no units. -/
theorem block (h : Served W n s) (hc : c ∉ s.waiting W) (ha : a.waitList = W) :
    Served W 0 (({ s with
      kernel := switchContext (waitListBlockSection s.kernel c W a.timeout) } :
        QueueSystem).setCall c (some a)) := by
  obtain ⟨husable, hmem⟩ := h.usable.block hc a.timeout
  obtain ⟨husable', hsub⟩ := Kernel.Shrinks.switchContext husable
  refine ⟨husable', fun t ht => ?_, .zero _ _⟩
  rcases (hmem t).1 (hsub ht) with htW | rfl
  · have htc : t ≠ c := fun e => hc (e ▸ htW)
    exact (pending_setCall_of_ne htc).2 (h.pending t htW)
  · exact ⟨a, setCall_call_same _ _ _, ha⟩

/-- A task is queued on the other list. -/
theorem block_other (h : Served W n s) (hc : s.call c = none) (ha : W ≠ V) :
    Served W n (({ s with
      kernel := switchContext (waitListBlockSection s.kernel c V a.timeout) } :
        QueueSystem).setCall c (some a)) := by
  have hnot : ¬ s.Pending W c := by
    rintro ⟨b, hb, -⟩
    rw [hc] at hb
    exact absurd hb (by simp)
  have hcW := h.notMem_of_call hc
  have hshrink := h.shrink ((Kernel.Shrinks.block ha hcW a.timeout).trans .switchContext) s.queue
  exact ⟨hshrink.usable, fun t ht => (hshrink.pending t ht).setCall hnot,
    hshrink.covered.mono (List.Subset.refl _) (fun t ht => ht.setCall hnot) le_rfl⟩

end Served

/-! ## The calls -/

/-- The queue holds items, and the calls in which tasks wait have no timeout and send items of the
right size. -/
structure Sound (s : QueueSystem) : Prop where
  queue : s.queue.Sound
  forever : ∀ t a, s.call t = some a → a.timeout = waitForever
  sized : ∀ t a, s.call t = some a → a.Sized s.queue

theorem Sound.of_queue (h : Sound s) {x : Queue} (hx : x.Sound)
    (hsize : x.itemSize = s.queue.itemSize) (k : Kernel) :
    Sound { s with kernel := k, queue := x } := by
  refine ⟨hx, h.forever, fun t a ha => ?_⟩
  have hsized := h.sized t a ha
  cases a with
  | send item timeout => exact Eq.trans hsized hsize.symm
  | receive timeout => trivial
  | peek timeout => trivial

theorem Sound.setCall (h : Sound s) {b : Option QueueCall}
    (hb : ∀ a ∈ b, a.timeout = waitForever ∧ a.Sized s.queue) : Sound (s.setCall c b) := by
  have hcall : ∀ t a, (s.setCall c b).call t = some a → a.timeout = waitForever ∧
    a.Sized s.queue := by
    intro t a ha
    by_cases htc : t = c
    · rw [htc, setCall_call_same] at ha
      exact hb a ha
    · rw [setCall_call_of_ne s c b htc] at ha
      exact ⟨h.forever t a ha, h.sized t a ha⟩
  exact ⟨h.queue, fun t a ha => (hcall t a ha).1, fun t a ha => (hcall t a ha).2⟩

/-- All that the loop of a call can do. -/
inductive Proceeds (s : QueueSystem) (a : QueueCall) : QueueSystem → Prop
  /-- The call takes a unit from its side, adds one to the other and wakes a task there. -/
  | trade {B : WaitList} {x : Queue} {u : Option TaskId} (hB : Queue.Sides a.waitList B)
      (ha : ¬ a.IsPeek) (hx : Queue.Trade a.waitList B s.queue x) :
      Proceeds s a { s with
        kernel := notifyUnblocked (waitListUnblockHighest s.kernel B).1 u
        queue := x }
  | peek (ha : a.IsPeek) : Proceeds s a s
  /-- There is no unit, and the call returns with an error. -/
  | refuse (h : s.queue.level a.waitList = 0) : Proceeds s a s
  /-- There is no unit, and the call waits. -/
  | wait {c : TaskId} (hc : s.kernel.currentTcb = some c) (h : s.queue.level a.waitList = 0)
      (ht : a.timeout ≠ noWait) :
      Proceeds s a (({ s with
        kernel := switchContext (waitListBlockSection s.kernel c a.waitList a.timeout) } :
          QueueSystem).setCall c (some a))

/-- A call that fails its test returns or waits. -/
theorem proceeds_of_none (hattempt : s.attempt a = none) (h : s.queue.level a.waitList = 0) :
    Proceeds s a (s.proceed a).1 := by
  rw [proceed, hattempt]
  simp only
  split_ifs with ht
  · exact .refuse h
  · split
    · rename_i c hrun hc
      simp only [waitListBlock, hrun, hc]
      exact .wait hc h ht
    · exact .refuse h

theorem proceeds (hs : s.queue.Sound) (ha : a.Sized s.queue) : Proceeds s a (s.proceed a).1 := by
  cases a with
  | send item timeout =>
    rcases Queue.sendData_trade hs ha with ⟨hnone, hlevel⟩ | ⟨x, hx, htrade⟩
    · exact proceeds_of_none (by rw [attempt, hnone]) hlevel
    · simp only [proceed, attempt, hx]
      exact .trade (Or.inl ⟨rfl, rfl⟩) id htrade
  | receive timeout =>
    rcases Queue.receiveData_trade hs with ⟨hnone, hlevel⟩ | ⟨x, item, hx, htrade⟩
    · exact proceeds_of_none (by rw [attempt, hnone]) hlevel
    · simp only [proceed, attempt, hx]
      exact .trade (Or.inr ⟨rfl, rfl⟩) id htrade
  | peek timeout =>
    rcases Queue.receiveData_trade hs with ⟨hnone, hlevel⟩ | ⟨x, item, hx, -⟩
    · exact proceeds_of_none (by rw [attempt, Queue.peekData_eq, hnone]; rfl) hlevel
    · simp only [proceed, attempt, Queue.peekData_eq, hx, Option.map_some]
      exact .peek trivial

theorem Sound.proceed (hs : Sound s) (ha : a.Sized s.queue)
    (ht : a.timeout = noWait ∨ a.timeout = waitForever) : Sound (s.proceed a).1 := by
  have hproceeds := proceeds hs.queue ha
  generalize (s.proceed a).1 = s' at hproceeds ⊢
  cases hproceeds with
  | trade _ _ hx => exact hs.of_queue hx.sound hx.itemSize _
  | peek => exact hs
  | refuse => exact hs
  | @wait c hc h hw =>
    have hk := hs.of_queue hs.queue rfl
      (switchContext (waitListBlockSection s.kernel c a.waitList a.timeout))
    refine hk.setCall fun b hb => ?_
    obtain rfl := Option.mem_some_iff.1 hb
    exact ⟨ht.resolve_left hw, ha⟩

/-- **A trade** takes a unit from one side and sends one on its way on the other. -/
theorem Served.trade {A B : WaitList} {x : Queue} (h : Served W n s) (hAB : Queue.Sides A B)
    (hW : W = Queue.waitSend ∨ W = Queue.waitRecv) (hx : Queue.Trade A B s.queue x)
    (hk : Kernel.Shrinks W (waitListUnblockHighest s.kernel B).1 k)
    (hn : s.queue.level W ≤ n ∨ W = A ∧ s.queue.level W ≤ n + 1) :
    Served W (x.level W) { s with kernel := k, queue := x } := by
  have hne : A ≠ B := by
    rcases hAB with ⟨rfl, rfl⟩ | ⟨rfl, rfl⟩ <;> decide
  have hside : W = A ∨ W = B := by
    rcases hAB with ⟨rfl, rfl⟩ | ⟨rfl, rfl⟩
    · exact hW
    · exact hW.symm
  rcases hside with rfl | rfl
  · have htaken := hx.taken
    exact (h.shrink (Kernel.Shrinks.unblockHighest.trans hk) x).mono (by omega)
  · have hle : s.queue.level W ≤ n := hn.resolve_right fun hA => hne hA.1.symm
    have hwake := (h.wake s.queue).shrink hk x
    exact hwake.mono (by rw [hx.added]; omega)

/-- **The loop of a call** keeps the units of a side on their way.  One unit of the side for which
the call itself has come may be on the way to nobody. -/
theorem Served.proceed (h : Served W n s) (hs : s.queue.Sound) (ha : a.Sized s.queue)
    (hW : W = Queue.waitSend ∨ W = Queue.waitRecv) (hcur : s.currentCall = none)
    (hn : s.queue.level W ≤ n ∨ W = a.waitList ∧ ¬ a.IsPeek ∧ s.queue.level W ≤ n + 1) :
    Served W ((s.proceed a).1.queue.level W) (s.proceed a).1 := by
  have hother : s.queue.level a.waitList = 0 → s.queue.level W ≤ n := by
    intro h0
    rcases hn with hn | ⟨rfl, -, -⟩
    · exact hn
    · omega
  have hproceeds := proceeds hs ha
  generalize (s.proceed a).1 = s' at hproceeds ⊢
  cases hproceeds with
  | trade hB hpeek hx =>
    refine h.trade hB hW hx (.notifyUnblocked _) (hn.imp_right fun hn => ⟨hn.1, hn.2.2⟩)
  | peek hpeek => exact h.mono (hn.resolve_right fun hn => hn.2.1 hpeek)
  | refuse h0 => exact h.mono (hother h0)
  | @wait c hc h0 _ =>
    have hcall : s.call c = none := by
      rw [currentCall, hc] at hcur
      exact hcur
    by_cases hWa : a.waitList = W
    · rw [hWa] at h0 ⊢
      exact (h.block (h.notMem_of_call hcall) hWa).mono (le_of_eq h0)
    · exact (h.block_other hcall (Ne.symm hWa)).mono (hother h0)

/-! ## Runs -/

/-- All units of the side that waits on `W` are on their way. -/
structure AllServed (W : WaitList) (s : QueueSystem) : Prop where
  sound : Sound s
  served : Served W (s.queue.level W) s

/-- What a step must not do to the side that waits on `W`: come back from a wait only to look at an
item, or add spaces by a reset, unless the units that are there then are on their way to others. -/
def Careful (W : WaitList) (s : QueueSystem) : QueueOp → Prop
  | .resume => ∀ c ∈ s.kernel.currentTcb, ∀ a ∈ s.call c, a.IsPeek → a.waitList = W →
    Covered (s.waiting W) (fun t => t ≠ c ∧ s.Pending W t) (s.queue.level W)
  | .reset => Covered (s.waiting W) (s.Pending W) (s.queue.resetData.level W)
  | _ => True

theorem AllServed.proceed (h : AllServed W s) (hW : W = Queue.waitSend ∨ W = Queue.waitRecv)
    (hcur : s.currentCall = none) (ht : a.timeout = noWait ∨ a.timeout = waitForever)
    (ha : a.Sized s.queue) : AllServed W (s.proceed a).1 :=
  ⟨h.sound.proceed ha ht, h.served.proceed h.sound.queue ha hW hcur (Or.inl le_rfl)⟩

theorem AllServed.resume (h : AllServed W s) (hW : W = Queue.waitSend ∨ W = Queue.waitRecv)
    (hc : s.kernel.currentTcb = some c) (hcall : s.call c = some a)
    (hoff : c ∉ s.waiting a.waitList) (hcareful : a.IsPeek → a.waitList = W →
      Covered (s.waiting W) (fun t => t ≠ c ∧ s.Pending W t) (s.queue.level W)) :
    AllServed W (s.resume c a).1 := by
  have hforever := h.sound.forever c a hcall
  have hstatus : waitListBlockStatus s.kernel c a.timeout = .ok := by
    rw [waitListBlockStatus, hforever]
    simp
  have hleft : Sound (s.setCall c none) := h.sound.setCall fun b hb => absurd hb (by simp)
  have hcur : (s.setCall c none).currentCall = none := by
    simp [currentCall, hc]
  have ha : a.Sized s.queue := h.sound.sized c a hcall
  rw [QueueSystem.resume, hstatus]
  simp only [ne_eq, not_true, if_false]
  refine ⟨hleft.proceed ha (Or.inr hforever), ?_⟩
  by_cases haW : a.waitList = W
  · have hcW : c ∉ s.waiting W := haW ▸ hoff
    by_cases hpeek : a.IsPeek
    · have hcovered := (hcareful hpeek haW).mono (Q := (s.setCall c none).Pending W)
        (List.Subset.refl _) (fun t ht => (pending_setCall_of_ne ht.1).2 ht.2) le_rfl
      exact (h.served.setCall_none hcW hcovered).proceed hleft.queue ha hW hcur (Or.inl le_rfl)
    · refine (h.served.leave hcW).proceed hleft.queue ha hW hcur (Or.inr ⟨haW.symm, hpeek, ?_⟩)
      rw [setCall_queue]
      omega
  · have hnot : ¬ s.Pending W c := by
      rintro ⟨b, hb, hbW⟩
      obtain rfl := Option.some_inj.1 (hcall.symm.trans hb)
      exact haW hbW
    exact (h.served.leave_other hnot).proceed hleft.queue ha hW hcur (Or.inl le_rfl)

/-- A trade that an interrupt makes. -/
theorem AllServed.trade {A B : WaitList} {x : Queue} (h : AllServed W s) (hAB : Queue.Sides A B)
    (hW : W = Queue.waitSend ∨ W = Queue.waitRecv) (hx : Queue.Trade A B s.queue x) :
    AllServed W { s with kernel := (waitListUnblockHighest s.kernel B).1, queue := x } :=
  ⟨h.sound.of_queue hx.sound hx.itemSize _,
    h.served.trade hAB hW hx (.refl W _) (Or.inl le_rfl)⟩

/-- **Every careful step** keeps all units of a side on their way. -/
theorem AllServed.step (h : AllServed W s) (hW : W = Queue.waitSend ∨ W = Queue.waitRecv)
    {op : QueueOp} (hop : op.Allowed s) (hcareful : Careful W s op) :
    AllServed W (op.run s) := by
  obtain ⟨items, hitems⟩ := h.sound.queue
  have hmagic : ¬ s.queue.magic ≠ queueMagicWord := not_not.2 hitems.magic
  cases op with
  | kernel b =>
    have hleaves : b.LeavesQueued W s.kernel := by
      refine .of_calls (fun t ht => h.served.notMem_of_call ht) ?_ ?_
      · rintro config t rfl
        exact hop
      · rintro V timeout rfl
        obtain ⟨hsend, hrecv, hcur⟩ := hop
        refine ⟨?_, hcur⟩
        rcases hW with rfl | rfl
        · exact hsend.symm
        · exact hrecv.symm
    exact ⟨h.sound.of_queue h.sound.queue rfl _, h.served.shrink (Section.shrinks hleaves) s.queue⟩
  | dispatch t =>
    have hshrink : Kernel.Shrinks W s.kernel { s.kernel with currentTcb := some t } :=
      .of_eq rfl fun _ _ => rfl
    exact ⟨h.sound.of_queue h.sound.queue rfl _, h.served.shrink hshrink s.queue⟩
  | enter b =>
    rw [QueueOp.run, enter, if_neg hmagic]
    exact h.proceed hW hop.1 hop.2.1 hop.2.2
  | resume =>
    obtain ⟨c, hc, b, hb, hoff⟩ := hop
    rw [QueueOp.run, Option.mem_def.1 hc]
    simp only [Option.mem_def.1 hb]
    exact h.resume hW hc hb hoff (hcareful c hc b hb)
  | sendFromIsr item =>
    rw [QueueOp.run, sendFromIsr, if_neg hmagic]
    rcases Queue.sendData_trade h.sound.queue hop with ⟨hnone, -⟩ | ⟨x, hx, htrade⟩
    · rw [hnone]; exact h
    · rw [hx]; exact h.trade (Or.inl ⟨rfl, rfl⟩) hW htrade
  | receiveFromIsr =>
    rw [QueueOp.run, receiveFromIsr, if_neg hmagic]
    rcases Queue.receiveData_trade h.sound.queue with ⟨hnone, -⟩ | ⟨x, item, hx, htrade⟩
    · rw [hnone]; exact h
    · rw [hx]; exact h.trade (Or.inr ⟨rfl, rfl⟩) hW htrade
  | reset =>
    rw [QueueOp.run, reset, if_neg hmagic]
    exact ⟨h.sound.of_queue ⟨_, hitems.resetData⟩ rfl _,
      ⟨h.served.usable, h.served.pending, hcareful⟩⟩

/-- Nobody waits for a new queue. -/
theorem AllServed.init {x : Queue} (hx : x.Created) (mem : Kernel) (config : Option Config)
    (idleStack : ℕ) : AllServed W (QueueSystem.init (initWithConfig mem config idleStack).1 x) := by
  obtain ⟨hempty, husable⟩ := Kernel.usable_initWithConfig mem config idleStack W
  have hwaiting : (QueueSystem.init (initWithConfig mem config idleStack).1 x).waiting W = [] :=
    hempty
  refine ⟨⟨⟨_, hx.holds⟩, fun t a ha => absurd ha (by simp [QueueSystem.init]),
    fun t a ha => absurd ha (by simp [QueueSystem.init])⟩, husable, fun t ht => ?_, ?_⟩
  · rw [hwaiting] at ht
    exact absurd ht List.not_mem_nil
  · rw [hwaiting]
    exact .nil _ _

/-- **No unit lies beside a waiter** once no task is on its way to one. -/
theorem AllServed.waiting_eq_nil (h : AllServed W s)
    (hquiet : ∀ t, s.Pending W t → t ∈ s.waiting W) (hlevel : s.queue.level W ≠ 0) :
    s.waiting W = [] := by
  by_contra hne
  exact hlevel (h.served.covered.eq_zero hquiet hne)

/-! ## Receivers and items -/

/-- If no task that was woken from `wait_recv` has yet to go on with its loop, and an item is
stored, then nobody is on `wait_recv`. -/
def NoReceiverSleeps (s : QueueSystem) : Prop :=
  (∀ t, s.Pending Queue.waitRecv t → t ∈ s.waiting Queue.waitRecv) →
    s.queue.itemSize ≤ s.queue.ringBuf.count → s.waiting Queue.waitRecv = []

/-- A peek that comes back from its wait finds nobody on `wait_recv`, or no more items than there
are other tasks woken from it. -/
def PeekCovered (s : QueueSystem) : QueueOp → Prop
  | .resume => ∀ c ∈ s.kernel.currentTcb, ∀ a ∈ s.call c, a.IsPeek →
    Covered (s.waiting Queue.waitRecv) (fun t => t ≠ c ∧ s.Pending Queue.waitRecv t) s.queue.getCount
  | _ => True

theorem PeekCovered.careful {op : QueueOp} (h : PeekCovered s op) (hs : Sound s) :
    Careful Queue.waitRecv s op := by
  cases op with
  | resume => exact fun c hc a ha hpeek _ => h c hc a ha hpeek
  | reset =>
    obtain ⟨items, hitems⟩ := hs.queue
    rw [Careful, Queue.level_waitRecv, hitems.resetData.getCount]
    exact .zero _ _
  | _ => trivial

/-- **When no receiver sleeps beside an item.**  In every run in which each peek that comes back
from its wait is covered, no state has a receiver asleep beside an item with nobody on the way. -/
theorem no_receiver_sleeps {x : Queue} (hx : x.Created) (mem : Kernel) (config : Option Config)
    (idleStack : ℕ) {ops : List QueueOp} {s : QueueSystem}
    (hcovered : Trace.AllSteps QueueOp.Step (fun s op _ => PeekCovered s op)
      (QueueSystem.init (initWithConfig mem config idleStack).1 x) ops s) :
    Trace.AllStates QueueOp.Step NoReceiverSleeps
      (QueueSystem.init (initWithConfig mem config idleStack).1 x) ops s := by
  have hinv : Trace.AllStates QueueOp.Step (AllServed Queue.waitRecv)
      (QueueSystem.init (initWithConfig mem config idleStack).1 x) ops s := by
    refine hcovered.invariant (fun s op s' hs hstep hC => ?_) (.init hx mem config idleStack)
    obtain ⟨hop, rfl⟩ := hstep
    exact hs.step (Or.inr rfl) hop (hC.careful hs.sound)
  intro ops₁ ops₂ t hsplit h₁ h₂ hquiet hstored
  have hserved := hinv ops₁ ops₂ t hsplit h₁ h₂
  obtain ⟨items, hitems⟩ := hserved.sound.queue
  refine hserved.waiting_eq_nil hquiet fun hlevel => ?_
  rw [Queue.level_waitRecv, hitems.getCount, List.length_eq_zero_iff] at hlevel
  exact absurd (hitems.count_lt_iff.2 hlevel) (not_lt.2 hstored)

/-- A new system with a queue for items of three bytes. -/
def withQueue : QueueSystem :=
  QueueSystem.init (initWithConfig bss none 0).1 Queue.threeByteQueue

theorem threeByteQueue_created : Queue.threeByteQueue.Created := .inl ⟨fun _ => 0, 8, 3, rfl⟩

/-- Task 2 peeks and waits, an interrupt sends an item, and the peek returns. -/
def peekAlone : List QueueOp :=
  [.kernel (.critical (.create (.ofPriority 2) 2)), .kernel (.start .ok),
    .enter (.peek waitForever), .sendFromIsr [1, 2, 3], .kernel .switchContext, .resume]

theorem no_receiver_sleeps_alone :
    ∃ s, Trace QueueOp.Step withQueue peekAlone s ∧ s.queue.getCount = 1 ∧
      Trace.AllSteps QueueOp.Step (fun s op _ => PeekCovered s op) withQueue peekAlone s ∧
      Trace.AllStates QueueOp.Step NoReceiverSleeps withQueue peekAlone s := by
  have hrun : Trace QueueOp.Step withQueue peekAlone _ := Trace.of_guards (by decide +kernel)
  have hempty : ((peekAlone.take 5).foldl QueueOp.run withQueue).waiting Queue.waitRecv = [] := by
    decide +kernel
  have hcovered : Trace.AllSteps QueueOp.Step (fun s op _ => PeekCovered s op) withQueue peekAlone
      (peekAlone.foldl QueueOp.run withQueue) := by
    refine Trace.allSteps_of_guards ⟨trivial, trivial, trivial, trivial, trivial, ?_, trivial⟩
    intro c _ a _ _
    exact Eq.mpr (congrArg (fun W => Covered W _ _) hempty) (.nil _ _)
  exact ⟨_, hrun, by decide +kernel, hcovered,
    no_receiver_sleeps threeByteQueue_created bss none 0 hcovered⟩

/-- Task 2 peeks and waits, task 1 receives and waits, an interrupt sends one item, which wakes
task 2, and the peek returns. -/
def peekBeforeReceive : List QueueOp :=
  [.kernel (.critical (.create (.ofPriority 1) 1)), .kernel (.critical (.create (.ofPriority 2) 2)),
    .kernel (.start .ok), .enter (.peek waitForever), .enter (.receive waitForever),
    .sendFromIsr [1, 2, 3], .kernel .switchContext, .resume]

/-- **A receiver sleeps beside an item.** -/
theorem receiver_sleeps_beside_item :
    ∃ s, Trace QueueOp.Step withQueue peekBeforeReceive s ∧ s.queue.getCount = 1 ∧
      s.waiting Queue.waitRecv = [1] ∧ s.call 2 = none ∧ ¬ NoReceiverSleeps s := by
  have hrun : Trace QueueOp.Step withQueue peekBeforeReceive _ :=
    Trace.of_guards (by decide +kernel)
  have hwaiting : (peekBeforeReceive.foldl QueueOp.run withQueue).waiting Queue.waitRecv = [1] := by
    decide +kernel
  have hcall : (peekBeforeReceive.foldl QueueOp.run withQueue).call =
      Function.update (Function.update (Function.update (fun _ => none) 2 (some (.peek waitForever)))
        1 (some (.receive waitForever))) 2 none := rfl
  refine ⟨_, hrun, by decide +kernel, hwaiting, by decide +kernel, fun h => ?_⟩
  have hnil := h (fun t ht => ?_) (by decide +kernel)
  · rw [hwaiting] at hnil
    exact absurd hnil (by simp)
  · obtain ⟨a, ha, -⟩ := ht
    rw [hcall] at ha
    rw [hwaiting, List.mem_singleton]
    by_contra ht1
    by_cases ht2 : t = 2 <;> simp [ht1, ht2] at ha

/-! ## Senders and spaces -/

/-- If no task that was woken from `wait_send` has yet to go on with its loop, and an item fits in,
then nobody is on `wait_send`. -/
def NoSenderSleeps (s : QueueSystem) : Prop :=
  (∀ t, s.Pending Queue.waitSend t → t ∈ s.waiting Queue.waitSend) →
    s.queue.itemSize ≤ Queue.freeBytes s.queue.ringBuf → s.waiting Queue.waitSend = []

/-- A reset finds nobody on `wait_send`, or at least as many tasks woken from it as the queue holds
items. -/
def ResetCovered (s : QueueSystem) : QueueOp → Prop
  | .reset => Covered (s.waiting Queue.waitSend) (s.Pending Queue.waitSend) s.queue.maxItems
  | _ => True

theorem ResetCovered.careful {op : QueueOp} (h : ResetCovered s op) (hs : Sound s) :
    Careful Queue.waitSend s op := by
  cases op with
  | resume =>
    intro c hc a ha hpeek haW
    cases a with
    | peek timeout => exact absurd haW (by simp [QueueCall.waitList, Queue.waitRecv, Queue.waitSend])
    | send item timeout => exact hpeek.elim
    | receive timeout => exact hpeek.elim
  | reset =>
    obtain ⟨items, hitems⟩ := hs.queue
    rw [Careful, Queue.level_waitSend, hitems.resetData.getSpacesAvailable]
    exact h
  | _ => trivial

/-- **When no sender sleeps beside free space.**  In every run in which each reset is covered, no
state has a sender asleep beside space for an item with nobody on the way. -/
theorem no_sender_sleeps {x : Queue} (hx : x.Created) (mem : Kernel) (config : Option Config)
    (idleStack : ℕ) {ops : List QueueOp} {s : QueueSystem}
    (hcovered : Trace.AllSteps QueueOp.Step (fun s op _ => ResetCovered s op)
      (QueueSystem.init (initWithConfig mem config idleStack).1 x) ops s) :
    Trace.AllStates QueueOp.Step NoSenderSleeps
      (QueueSystem.init (initWithConfig mem config idleStack).1 x) ops s := by
  have hinv : Trace.AllStates QueueOp.Step (AllServed Queue.waitSend)
      (QueueSystem.init (initWithConfig mem config idleStack).1 x) ops s := by
    refine hcovered.invariant (fun s op s' hs hstep hC => ?_) (.init hx mem config idleStack)
    obtain ⟨hop, rfl⟩ := hstep
    exact hs.step (Or.inl rfl) hop (hC.careful hs.sound)
  intro ops₁ ops₂ t hsplit h₁ h₂ hquiet hfree
  have hserved := hinv ops₁ ops₂ t hsplit h₁ h₂
  obtain ⟨items, hitems⟩ := hserved.sound.queue
  refine hserved.waiting_eq_nil hquiet fun hlevel => ?_
  have hle := hitems.length_le
  rw [Queue.level_waitSend, hitems.getSpacesAvailable] at hlevel
  exact absurd (hitems.free_lt_iff.2 (by omega)) (not_lt.2 hfree)

/-- An item is sent and dropped by a reset while nobody waits. -/
def resetAlone : List QueueOp :=
  [.kernel (.critical (.create (.ofPriority 1) 1)), .kernel (.start .ok),
    .enter (.send [1, 2, 3] noWait), .reset]

theorem no_sender_sleeps_alone :
    ∃ s, Trace QueueOp.Step withQueue resetAlone s ∧ s.queue.getCount = 0 ∧
      Trace.AllSteps QueueOp.Step (fun s op _ => ResetCovered s op) withQueue resetAlone s ∧
      Trace.AllStates QueueOp.Step NoSenderSleeps withQueue resetAlone s := by
  have hrun : Trace QueueOp.Step withQueue resetAlone _ := Trace.of_guards (by decide +kernel)
  have hempty : ((resetAlone.take 3).foldl QueueOp.run withQueue).waiting Queue.waitSend = [] := by
    decide +kernel
  have hcovered : Trace.AllSteps QueueOp.Step (fun s op _ => ResetCovered s op) withQueue resetAlone
      (resetAlone.foldl QueueOp.run withQueue) := by
    refine Trace.allSteps_of_guards ⟨trivial, trivial, trivial, ?_, trivial⟩
    exact Eq.mpr (congrArg (fun W => Covered W _ _) hempty) (.nil _ _)
  exact ⟨_, hrun, by decide +kernel, hcovered,
    no_sender_sleeps threeByteQueue_created bss none 0 hcovered⟩

/-- Task 1 fills the queue and waits to send a third item; the queue is reset. -/
def resetUnderSender : List QueueOp :=
  [.kernel (.critical (.create (.ofPriority 1) 1)), .kernel (.start .ok),
    .enter (.send [1, 2, 3] noWait), .enter (.send [4, 5, 6] noWait),
    .enter (.send [7, 8, 9] waitForever), .reset]

/-- **A sender sleeps beside free space.** -/
theorem sender_sleeps_beside_space :
    ∃ s, Trace QueueOp.Step withQueue resetUnderSender s ∧ s.queue.getSpacesAvailable = 2 ∧
      s.waiting Queue.waitSend = [1] ∧ ¬ NoSenderSleeps s := by
  have hrun : Trace QueueOp.Step withQueue resetUnderSender _ :=
    Trace.of_guards (by decide +kernel)
  have hwaiting : (resetUnderSender.foldl QueueOp.run withQueue).waiting Queue.waitSend = [1] := by
    decide +kernel
  have hcall : (resetUnderSender.foldl QueueOp.run withQueue).call =
      Function.update (fun _ => none) 1 (some (.send [7, 8, 9] waitForever)) := rfl
  refine ⟨_, hrun, by decide +kernel, hwaiting, fun h => ?_⟩
  have hnil := h (fun t ht => ?_) (by decide +kernel)
  · rw [hwaiting] at hnil
    exact absurd hnil (by simp)
  · obtain ⟨a, ha, -⟩ := ht
    rw [hcall] at ha
    rw [hwaiting, List.mem_singleton]
    by_contra ht1
    simp [ht1] at ha

end QueueSystem

end Sertos
