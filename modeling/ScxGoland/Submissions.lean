/-
The way of a task to user space.

`goland_enqueue` handles some tasks itself: the threads of the scheduler, which could
not schedule themselves, the memory reclaim threads, which the scheduler may be waiting
for, per-CPU kernel threads if it is told to, and a task for which it finds an idle CPU
at once.  Of every other task it submits a record to the ring `@queued`, if there is
room.

* `golandEnqueue_queued` — what one enqueue adds to the ring;
* `ring_carries_ordinary_tasks` — in every run, user space receives exactly the records
  submitted, in order and each once, and all of them are of ordinary tasks.
-/
import ScxGoland.DsqInit
import ScxGoland.Footprint
import ScxGoland.Runs

open Runs

namespace ScxGoland

variable {m : Machine}

/-! ### One enqueue -/

/-- The tasks that `goland_enqueue` never sends to user space. -/
def isExempt (ro : Rodata) (p : TaskStruct m) : Bool :=
  isUserschedTask ro p || isBelongUserschedTask ro p ||
    (isKthread p && p.nrCpusAllowed = 1 && ro.earlyProcessing) || (isKswapd p || isKhugepaged ro p)

/-- `goland_enqueue` gets to the ring. -/
def reachesRing (ro : Rodata) (env : Env m) (p : TaskStruct m) (enqFlags : UInt64) (w : World m) :
    Bool :=
  !isExempt ro p && !(enqueueDirect ro env p enqFlags w).dispatched

/-- The record that it submits there. -/
def ringRecord (ro : Rodata) (env : Env m) (p : TaskStruct m) (enqFlags : UInt64) (w : World m) :
    List QueuedTaskCtx :=
  if reachesRing ro env p enqFlags w = true ∧ w.queued.length < w.queuedCap then
    [getTaskInfo p enqFlags w]
  else []

/-- What the callbacks do to a task context does not show in a record. -/
theorem getTaskInfo_congr {w w' : World m} (h : Untouched w w') (p : TaskStruct m)
    (enqFlags : UInt64) : getTaskInfo p enqFlags w' = getTaskInfo p enqFlags w := by
  have hshape := h.taskCtx p.pid
  rcases hw : w.taskCtx p.pid with _ | t <;> rcases hw' : w'.taskCtx p.pid with _ | t'
  · rw [getTaskInfo, getTaskInfo, hw, hw']
  · rw [hw, hw'] at hshape
    exact absurd hshape (by simp)
  · rw [hw, hw'] at hshape
    exact absurd hshape (by simp)
  · rw [hw, hw', Option.map_some, Option.map_some, Option.some_inj] at hshape
    simp only [TaskCtx.shape, Prod.mk.injEq] at hshape
    obtain ⟨hstart, hstop, hexec, -, -⟩ := hshape
    simp [getTaskInfo, hw, hw', hstart, hstop, hexec]

theorem enqueueToUser_queued (env : Env m) (p : TaskStruct m) (enqFlags : UInt64) (cpu : Int32)
    (w : World m) : (enqueueToUser env p enqFlags cpu w).queued =
      w.queued ++ if w.queued.length < w.queuedCap then [getTaskInfo p enqFlags w] else [] := by
  rw [enqueueToUser, (quiet_kickTaskCpu _ _ _ _).queued]
  split_ifs with hroom
  · rfl
  · rw [List.append_nil]
    exact (Untouched.insert _ _ _).queued

theorem golandEnqueue_queued (ro : Rodata) (env : Env m) (p : TaskStruct m) (enqFlags : UInt64)
    (w : World m) :
    (golandEnqueue ro env p enqFlags w).queued = w.queued ++ ringRecord ro env p enqFlags w := by
  have hstay : reachesRing ro env p enqFlags w = false → ∀ w' : World m, w'.queued = w.queued →
      w'.queued = w.queued ++ ringRecord ro env p enqFlags w := by
    intro hnot w' hsame
    rw [hsame, ringRecord, if_neg (by simp [hnot]), List.append_nil]
  have hexempt : isExempt ro p = true → reachesRing ro env p enqFlags w = false := by
    intro h
    rw [reachesRing, h]
    rfl
  have hkernel := (Quiet.cpuToDsq w p.cpu.toS32).queued
  rw [golandEnqueue]
  dsimp only
  split_ifs with hsched hbelong hkthread hreclaim hdisp
  · exact hstay (hexempt (by simp [isExempt, hsched])) w rfl
  · exact hstay (hexempt (by simp [isExempt, hbelong])) _ (quiet_kickTaskCpu _ _ _ _).queued
  · exact hstay (hexempt (by simp [isExempt, hkthread])) _ hkernel
  · exact hstay (hexempt (by simp [isExempt, hreclaim])) _ hkernel
  · exact hstay (by simp [reachesRing, hdisp]) _ (enqueueDirect_spec ro env p enqFlags w).queued
  · have hreach : reachesRing ro env p enqFlags w = true := by
      simp only [reachesRing, isExempt, Bool.and_eq_true, Bool.not_eq_true', Bool.or_eq_false_iff]
      simp_all
    have hsame := untouched_beforeRing ro env p enqFlags w
    rw [enqueueToUser_queued, hsame.queued, hsame.queuedCap, getTaskInfo_congr hsame, ringRecord]
    simp only [hreach, true_and]

/-! ### Runs -/

/-- The records that a step submits. -/
def submittedBy (ro : Rodata) (w : World m) : Label m → List QueuedTaskCtx
  | .enqueue env pid enqFlags => (w.tasks.find pid).elim [] fun p =>
    ringRecord ro env p enqFlags (w.emit (.enqueueCalled pid))
  | _ => []

/-- The record that user space takes out of the ring. -/
def consumedBy (w : World m) : Label m → List QueuedTaskCtx
  | .consume => w.queued.take 1
  | _ => []

/-- Only an enqueue and user space change the ring. -/
theorem step_queued_frame {ro : Rodata} {w w' : World m} {l : Label m}
    (henq : ∀ env pid enqFlags, l ≠ .enqueue env pid enqFlags) (hcons : l ≠ .consume)
    (h : step ro w l = some w') : w'.queued = w.queued ∧ w'.queuedCap = w.queuedCap := by
  by_cases hl : l.isScheduling = true
  · obtain ⟨queued, needed, hsame, -, hqueued⟩ := step_untouched hl h
    exact ⟨hsame.queued.trans (hqueued henq hcons), hsame.queuedCap⟩
  · exact ⟨(step_tended hl h).queued, (step_tended hl h).queuedCap⟩

/-- What user space takes out comes from the front of the ring, and what an enqueue
submits goes to its end, within its capacity. -/
theorem step_ring {ro : Rodata} {w w' : World m} {l : Label m} (h : step ro w l = some w') :
    consumedBy w l ++ w'.queued = w.queued ++ submittedBy ro w l ∧
      (w.queued.length ≤ w.queuedCap → w'.queued.length ≤ w'.queuedCap) := by
  by_cases henq : ∃ env pid enqFlags, l = .enqueue env pid enqFlags
  · obtain ⟨env, pid, enqFlags, rfl⟩ := henq
    obtain ⟨p, hp, rfl⟩ := Option.map_eq_some_iff.mp h
    have hqueued := golandEnqueue_queued ro env p enqFlags (w.emit (.enqueueCalled pid))
    have hcap' : (golandEnqueue ro env p enqFlags (w.emit (.enqueueCalled pid))).queuedCap =
        w.queuedCap := (enqueueing_golandEnqueue ro env p enqFlags _).untouched.queuedCap
    constructor
    · show [] ++ (golandEnqueue ro env p enqFlags (w.emit (.enqueueCalled pid))).queued = _
      rw [hqueued, submittedBy, hp]
      rfl
    · intro hle
      show (golandEnqueue ro env p enqFlags (w.emit (.enqueueCalled pid))).queued.length ≤ _
      refine le_of_le_of_eq ?_ hcap'.symm
      rw [hqueued, ringRecord, List.length_append]
      split_ifs with hroom
      · exact hroom.2
      · exact hle
  by_cases hcons : l = .consume
  · subst hcons
    obtain rfl := Option.some_inj.mp h
    refine ⟨?_, fun hle => ?_⟩
    · show w.queued.take 1 ++ w.queued.tail = w.queued ++ []
      rw [← List.drop_one, List.take_append_drop, List.append_nil]
    · show w.queued.tail.length ≤ w.queuedCap
      rw [List.length_tail]
      omega
  · have hnot : ∀ env pid enqFlags, l ≠ .enqueue env pid enqFlags :=
      fun env pid enqFlags hl => henq ⟨env, pid, enqFlags, hl⟩
    obtain ⟨hqueued, hcap⟩ := step_queued_frame hnot hcons h
    rw [hqueued, hcap]
    refine ⟨?_, id⟩
    cases l with
    | enqueue env pid enqFlags => exact absurd rfl (hnot env pid enqFlags)
    | consume => exact absurd rfl hcons
    | _ => exact (List.append_nil _).symm

/-- A record submitted is of the task of its enqueue, which is not exempt. -/
theorem submittedBy_ordinary {ro : Rodata} {w : World m} {l : Label m} {r : QueuedTaskCtx}
    (hr : r ∈ submittedBy ro w l) :
    ∃ env enqFlags p, l = .enqueue env r.pid enqFlags ∧ w.tasks.find r.pid = some p ∧
      isExempt ro p = false ∧ r = getTaskInfo p enqFlags w := by
  cases l with
  | enqueue env pid enqFlags =>
    rw [submittedBy] at hr
    rcases hp : w.tasks.find pid with _ | p
    · rw [hp] at hr
      exact absurd hr (by simp)
    · rw [hp, Option.elim_some, ringRecord] at hr
      split_ifs at hr with hreach
      · obtain rfl := List.mem_singleton.mp hr
        obtain rfl : p.pid = pid := w.tasks.find_pid hp
        have hexempt := hreach.1
        rw [reachesRing, Bool.and_eq_true, Bool.not_eq_true'] at hexempt
        exact ⟨env, enqFlags, p, rfl, hp, hexempt.1, rfl⟩
      · exact absurd hr (by simp)
  | _ => exact absurd hr (by simp [submittedBy])

/-- **User space receives exactly the ordinary tasks.**  In every run the records that
user space has taken out of `@queued`, and those still there, are the records
submitted, in order and each once; the ring never holds more than fits; and every
record describes the task of an enqueue of the run, as it was then, and this task was
not exempt: not a thread of the scheduler, nor `khugepaged`, `kswapd` or
`kcompactd`. -/
theorem ring_carries_ordinary_tasks (ro : Rodata) (w₀ : World m) (hstart : Started w₀)
    (ls : List (Label m)) (w : World m) (hrun : run (step ro) w₀ ls = some w) :
    outputs (step ro) consumedBy w₀ ls ++ w.queued = outputs (step ro) (submittedBy ro) w₀ ls ∧
      w.queued.length ≤ w.queuedCap ∧
      ∀ r ∈ outputs (step ro) consumedBy w₀ ls ++ w.queued, ∃ u env enqFlags p,
        Takes (step ro) w₀ ls u (.enqueue env r.pid enqFlags) ∧ u.tasks.find r.pid = some p ∧
          isExempt ro p = false ∧ r = getTaskInfo p enqFlags u := by
  have hring := outputs_conserved (fun _ _ _ h => (step_ring h).1) hrun
  rw [hstart.atLoad.queued, List.nil_append] at hring
  refine ⟨hring, ?_, fun r hr => ?_⟩
  · refine invariant (I := fun w : World m => w.queued.length ≤ w.queuedCap) ?_
      (fun _ _ _ hle h => (step_ring h).2 hle) ls w (visits_of_run hrun)
    rw [hstart.atLoad.queued]
    exact Nat.zero_le _
  · rw [hring] at hr
    obtain ⟨u, l, htake, hmem⟩ := exists_takes_of_mem_outputs hrun hr
    obtain ⟨env, enqFlags, p, rfl, hp, hexempt, hinfo⟩ := submittedBy_ordinary hmem
    exact ⟨u, env, enqFlags, p, htake, hp, hexempt, hinfo⟩

/-- Task 7 is enqueued, and user space takes its record. -/
theorem ring_carries_ordinary_tasks_task7 :
    let ls : List (Label twoCpus) :=
      [.enqueue (Env.lowest cpu0) 1 0, .enqueue (Env.lowest cpu0) 7 0, .consume]
    let w₀ := startedWorld (((TaskTable.empty twoCpus).set (plainTask 1)).set (plainTask 7))
    ∃ w, run (step plainRodata) w₀ ls = some w ∧
      (outputs (step plainRodata) consumedBy w₀ ls).map QueuedTaskCtx.pid = [7] ∧
      ∀ r ∈ outputs (step plainRodata) consumedBy w₀ ls ++ w.queued, ∃ u env enqFlags p,
        Takes (step plainRodata) w₀ ls u (.enqueue env r.pid enqFlags) ∧
          u.tasks.find r.pid = some p ∧ isExempt plainRodata p = false ∧
          r = getTaskInfo p enqFlags u := by
  intro ls w₀
  obtain ⟨w, hw⟩ : ∃ w, run (step plainRodata) w₀ ls = some w := ⟨_, rfl⟩
  obtain ⟨-, -, hall⟩ := ring_carries_ordinary_tasks plainRodata w₀ (started_startedWorld _) ls w hw
  exact ⟨w, hw, by decide +kernel, hall⟩

end ScxGoland
