import Mathlib.Tactic.Common
import Sertos.Lib.Trace

/-!
# Bounded FIFOs

A FIFO of at most `max` items, as the sequence of what is seen of it: an item is accepted or
refused, an item is delivered or looked at, the FIFO is found empty, all items are dropped.

`Fifo.order` is what makes it a FIFO: since the last time it was cleared, the items that were
accepted are the items that were delivered, in the same order, followed by the items it holds.
-/

set_option autoImplicit false

namespace Fifo

open Lts

/-- What is seen of one step. -/
inductive Event (ι : Type*)
  | accepted (x : ι)
  /-- The FIFO is full. -/
  | refused
  | delivered (x : ι)
  /-- The item that will be delivered next is looked at. -/
  | peeked (x : ι)
  /-- There is nothing to deliver or to look at. -/
  | empty
  | cleared
deriving DecidableEq, Repr

variable {ι : Type*}

/-- The steps of a FIFO of at most `max` items. -/
inductive Step (max : ℕ) : List ι → Event ι → List ι → Prop
  | accepted {l : List ι} (x : ι) (h : l.length < max) : Step max l (.accepted x) (l ++ [x])
  | refused {l : List ι} (h : l.length = max) : Step max l .refused l
  | delivered (x : ι) (l : List ι) : Step max (x :: l) (.delivered x) l
  | peeked (x : ι) (l : List ι) : Step max (x :: l) (.peeked x) (x :: l)
  | empty : Step max [] .empty []
  | cleared (l : List ι) : Step max l .cleared []

/-- The items accepted, and the items delivered, since the last clearing. -/
structure History (ι : Type*) where
  accepted : List ι
  delivered : List ι

/-- One more event. -/
def History.record (h : History ι) : Event ι → History ι
  | .accepted x => { h with accepted := h.accepted ++ [x] }
  | .delivered x => { h with delivered := h.delivered ++ [x] }
  | .cleared => ⟨[], []⟩
  | .refused | .peeked _ | .empty => h

/-- The history of a sequence of events, from an empty FIFO on. -/
def history (es : List (Event ι)) : History ι := es.foldl History.record ⟨[], []⟩

variable {max : ℕ} {l l' : List ι} {es : List (Event ι)}

/-- Several items are accepted one after the other, if there is room for all. -/
theorem accepted_all (xs : List ι) (h : l.length + xs.length ≤ max) :
    Trace (Step max) l (xs.map .accepted) (l ++ xs) := by
  induction xs generalizing l with
  | nil =>
    rw [List.append_nil]
    exact .nil l
  | cons x xs ih =>
    rw [List.length_cons] at h
    have hrest := @ih (l ++ [x]) (by rw [List.length_append, List.length_singleton]; omega)
    rw [List.append_assoc, List.singleton_append] at hrest
    exact .cons (.accepted x (by omega)) hrest

/-- Several items are delivered one after the other. -/
theorem delivered_all (xs : List ι) : Trace (Step max) (xs ++ l) (xs.map .delivered) l := by
  induction xs with
  | nil => exact .nil l
  | cons x xs ih => exact .cons (.delivered x (xs ++ l)) ih

/-- **First in, first out,** without loss and without duplication. -/
theorem order (h : Trace (Step max) [] es l) :
    (history es).accepted = (history es).delivered ++ l := by
  have hrun : ∀ {l l' : List ι} {es : List (Event ι)}, Trace (Step max) l es l' →
      ∀ p : History ι, p.accepted = p.delivered ++ l →
        (es.foldl History.record p).accepted = (es.foldl History.record p).delivered ++ l' := by
    intro l l' es h
    induction h with
    | nil l => exact fun p hp => hp
    | cons hstep _ ih =>
      intro p hp
      refine ih (p.record _) ?_
      cases hstep with
      | accepted x => simp [History.record, hp]
      | delivered x => simp [History.record, hp]
      | cleared => rfl
      | _ => exact hp
  exact hrun h ⟨[], []⟩ rfl

end Fifo
