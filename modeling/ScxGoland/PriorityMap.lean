/-
`priority_tasks` against the decisions of the user-space scheduler.

The map is meant to hold the pids whose last record had `vtime == 0`, each with
the slice of that record.  `PrioState` remembers the last record handled for
each task since its creation.

* `priority_tasks_reflects_iff` — in every run with at most 4096 priority tasks
  at a time, the map agrees with the last records in every state exactly when
  each record handled for a live task names a CPU that the task may use, or
  finds the map agreeing with it already: `dispatch_task` returns before
  `update_priority_task_map` for `RL_CPU_ANY` and for a bounced record.
-/
import Mathlib.Data.Set.Card
import ScxGoland.Custody
import ScxGoland.DsqInit
import ScxGoland.Frames
import ScxGoland.Runs

namespace ScxGoland

variable {m : Machine}

/-- The slice under which a record's pid belongs into `priority_tasks`. -/
def DispatchedTaskCtx.granted (task : DispatchedTaskCtx) : Option UInt64 :=
  if task.vtime = 0 then some task.sliceNs else none

structure PrioState (m : Machine) where
  world : World m
  -- the last record handled for a task since its creation
  last : Int32 → Option DispatchedTaskCtx

/-- The records are handled one by one; everything but `goland_dispatch`, which
handles records itself, may happen in between. -/
inductive PrioLabel (m : Machine) where
  | sys (l : Label m)
  | handle (env : Env m) (task : DispatchedTaskCtx)

/-- What a step does to the records that are remembered. -/
def forget (last : Int32 → Option DispatchedTaskCtx) : Label m → Int32 → Option DispatchedTaskCtx
  | .fork p => Function.update last p.pid none
  | _ => last

def prioStep (ro : Rodata) (s : PrioState m) : PrioLabel m → Option (PrioState m)
  | .sys (.dispatch _ _ _) => none
  | .sys l => (step ro s.world l).map fun w => ⟨w, forget s.last l⟩
  | .handle env task =>
    some ⟨dispatchTask env none task s.world,
      if (s.world.tasks.find task.pid).isSome then Function.update s.last task.pid (some task)
      else s.last⟩

/-- The slice that the last record of a live task has granted. -/
def PrioState.decided (s : PrioState m) (pid : Int32) : Option UInt64 :=
  if (s.world.tasks.find pid).isSome then (s.last pid).bind DispatchedTaskCtx.granted else none

/-- A live pid is in the map iff its last record had `vtime == 0`, with the slice
of that record; no other pid is in the map. -/
def PrioState.Reflects (s : PrioState m) : Prop :=
  ∀ pid : Int32, s.world.priorityTasks.lookup pid.toUInt32 = s.decided pid

/-- The pids that have priority. -/
def PrioState.boosted (s : PrioState m) : Set Int32 := {pid | (s.decided pid).isSome}

/-- The record reaches `update_priority_task_map`, or the map agrees with it
already. -/
def recorded (s : PrioState m) : PrioLabel m → Bool
  | .sys _ => true
  | .handle _ task => (s.world.tasks.find task.pid).all fun p =>
    (task.cpu ≠ rlCpuAny && bpfCpumaskTestCpu task.cpu p.cpusPtr) ||
      s.world.priorityTasks.lookup task.pid.toUInt32 = task.granted

/-! ### One record -/

/-- The map after a record for a live task. -/
theorem dispatchTask_priorityTasks (env : Env m) {race : Option (CpuMask m)}
    {task : DispatchedTaskCtx} {w : World m} {p : TaskStruct m}
    (hp : w.tasks.find task.pid = some p) :
    (dispatchTask env race task w).priorityTasks =
      if task.cpu ≠ rlCpuAny ∧ bpfCpumaskTestCpu task.cpu p.cpusPtr = true then
        if task.vtime = 0 then w.priorityTasks.update task.pid.toUInt32 task.sliceNs
        else w.priorityTasks.delete task.pid.toUInt32
      else w.priorityTasks := by
  rw [dispatchTask, hp]
  dsimp only
  by_cases hany : task.cpu = rlCpuAny
  · rw [if_pos hany, if_neg (fun h => h.1 hany), (quiet_kickTaskCpu _ _ _ _).priorityTasks]
    exact insert_priorityTasks _ _ _
  rw [if_neg hany]
  by_cases hcpu : bpfCpumaskTestCpu task.cpu p.cpusPtr = true
  · have hcpu' : ¬ bpfCpumaskTestCpu task.cpu p.cpusPtr = false := by simp [hcpu]
    -- the map has its update before the second test
    have hmap := updatePriorityTaskMap_priorityTasks (insertByVtime p task w) task.pid.toUInt32
      task.vtime task.sliceNs
    rw [insertByVtime_priorityTasks] at hmap
    rw [if_neg hcpu', if_pos (show task.cpu ≠ rlCpuAny ∧ _ from ⟨hany, hcpu⟩), ← hmap]
    by_cases hsecond : bpfCpumaskTestCpu task.cpu (race.getD p.cpusPtr) = false
    · rw [if_pos hsecond]
      exact scxBpfDispatchCancel_priorityTasks _
    · rw [if_neg hsecond]
      rfl
  · rw [if_pos (by simpa using hcpu), if_neg (fun h => hcpu h.2),
      (quiet_kickTaskCpu _ _ _ _).priorityTasks]
    exact insert_priorityTasks _ _ _

/-- With room for its pid, a record that reaches the map is stored there. -/
theorem lookup_recorded {b : BoundedMap UInt32 UInt64 maxEnqueuedTasks} {pid : UInt32}
    (task : DispatchedTaskCtx) (hroom : task.vtime = 0 → (b.lookup pid).isSome ∨ ¬ b.Full) :
    (if task.vtime = 0 then b.update pid task.sliceNs else b.delete pid).lookup pid =
      task.granted := by
  rw [DispatchedTaskCtx.granted]
  by_cases hv : task.vtime = 0
  · rw [if_pos hv, if_pos hv]
    exact b.lookup_update_self pid _ (hroom hv)
  · rw [if_neg hv, if_neg hv, BoundedMap.lookup_delete, if_pos rfl]

/-- The pids in a map that reflects the decisions have priority; so a full map
has no room for one more. -/
theorem not_full_of_boosted {s s' : PrioState m} {pid : Int32} (hs : s.Reflects)
    (hcard : s'.boosted.encard ≤ maxEnqueuedTasks) (hpid : pid ∈ s'.boosted)
    (hother : ∀ q, q ≠ pid → s'.decided q = s.decided q) :
    (s.world.priorityTasks.lookup pid.toUInt32).isSome ∨ ¬ s.world.priorityTasks.Full := by
  by_contra hcon
  rw [not_or, not_not] at hcon
  obtain ⟨hnone, hfull⟩ := hcon
  -- the keys of the map, and one more
  set keys := s.world.priorityTasks.entries.keys.image UInt32.toInt32 with hkeys
  have hinj : Function.Injective UInt32.toInt32 := fun a b h => congrArg Int32.toUInt32 h
  have hmem : ∀ q ∈ keys, (s.world.priorityTasks.lookup q.toUInt32).isSome := by
    intro q hq
    obtain ⟨k, hk, rfl⟩ := Finset.mem_image.mp hq
    exact (BoundedMap.mem_iff_lookup_isSome _ k).mp (Finmap.mem_keys.mp hk)
  have hnotin : pid ∉ keys := fun hin => hnone (hmem pid hin)
  have hsub : (↑(insert pid keys) : Set Int32) ⊆ s'.boosted := by
    intro q hq
    rcases Finset.mem_insert.mp (Finset.mem_coe.mp hq) with rfl | hq
    · exact hpid
    · have hne : q ≠ pid := fun h => hnotin (h ▸ hq)
      show (s'.decided q).isSome = true
      rw [hother q hne, ← hs q]
      exact hmem q hq
  have hle := (Set.encard_le_encard hsub).trans hcard
  rw [Set.encard_coe_eq_coe_finsetCard, Finset.card_insert_of_notMem hnotin, hkeys,
    Finset.card_image_of_injective _ hinj, hfull] at hle
  exact absurd (Nat.cast_le.mp hle) (by decide)

/-! ### Runs -/

/-- Every step but the handling of a record keeps the map in agreement. -/
theorem reflects_sys {ro : Rodata} {s s' : PrioState m} {l : Label m} (hs : s.Reflects)
    (h : prioStep ro s (.sys l) = some s') : s'.Reflects := by
  have hnot : l.keepsPriority = true ∨ ∃ pid, l = .exitTask pid := by
    cases l with
    | dispatch env cpu prev => exact absurd h (by simp [prioStep])
    | exitTask pid => exact Or.inr ⟨pid, rfl⟩
    | _ => exact Or.inl rfl
  obtain ⟨w, hw, rfl⟩ : ∃ w, step ro s.world l = some w ∧ ⟨w, forget s.last l⟩ = s' := by
    cases l with
    | dispatch env cpu prev => exact absurd h (by simp [prioStep])
    | _ => exact Option.map_eq_some_iff.mp h
  intro pid
  rcases hnot with hkeep | ⟨q, rfl⟩
  · have hprio := step_priorityTasks hkeep hw
    show w.priorityTasks.lookup pid.toUInt32 = _
    rw [hprio, hs pid, PrioState.decided, PrioState.decided]
    dsimp only
    by_cases hfork : ∃ p, l = .fork p
    · -- a new task was dead before, and has no record yet
      obtain ⟨p, rfl⟩ := hfork
      rw [step] at hw
      split_ifs at hw with hdead
      obtain rfl := Option.some_inj.mp hw
      rw [forget]
      dsimp only
      by_cases hpid : pid = p.pid
      · subst hpid
        rw [if_neg hdead, Function.update_self]
        simp
      · rw [Function.update_of_ne hpid, show (s.world.tasks.set p).find pid =
          s.world.tasks.find pid from Function.update_of_ne hpid _ _]
    · have hlive := step_live (fun p hp => hfork ⟨p, hp⟩)
        (fun q hq => by rw [hq] at hkeep; exact absurd hkeep (by simp [Label.keepsPriority])) hw pid
      have hlast : forget s.last l = s.last := by
        cases l with
        | fork p => exact absurd ⟨p, rfl⟩ hfork
        | _ => rfl
      rw [hlive, hlast]
  · -- the pid of a task that exits leaves the map
    obtain ⟨p, hp, rfl⟩ := Option.map_eq_some_iff.mp hw
    have hpq : p.pid = q := s.world.tasks.find_pid hp
    show (s.world.priorityTasks.delete p.pid.toUInt32).lookup pid.toUInt32 = _
    rw [BoundedMap.lookup_delete, hpq, PrioState.decided]
    by_cases hpid : pid = q
    · subst hpid
      rw [if_pos rfl, if_neg]
      show ¬ ((s.world.tasks.remove pid).find pid).isSome = true
      rw [show (s.world.tasks.remove pid).find pid = none from Function.update_self _ _ _]
      simp
    · rw [if_neg fun heq => hpid (toUInt32_injective heq), hs pid, PrioState.decided]
      show _ = if ((s.world.tasks.remove q).find pid).isSome then _ else _
      rw [s.world.tasks.find_remove_ne hpid]
      rfl

/-- The decisions after a record: only the one for its own pid has changed. -/
theorem decided_handle (env : Env m) (task : DispatchedTaskCtx) (s : PrioState m)
    (hlive : (s.world.tasks.find task.pid).isSome) (pid : Int32) :
    PrioState.decided ⟨dispatchTask env none task s.world,
        Function.update s.last task.pid (some task)⟩ pid =
      if pid = task.pid then task.granted else s.decided pid := by
  rw [PrioState.decided, PrioState.decided]
  dsimp only
  rw [(dispatching_dispatchTask env none task s.world).untouched.live pid]
  by_cases hpid : pid = task.pid
  · subst hpid
    rw [if_pos hlive, if_pos rfl, Function.update_self]
    rfl
  · rw [if_neg hpid, Function.update_of_ne hpid]

theorem lookup_dispatchTask_ne (env : Env m) (task : DispatchedTaskCtx) (w : World m)
    {pid : Int32} (hpid : pid ≠ task.pid) :
    (dispatchTask env none task w).priorityTasks.lookup pid.toUInt32 =
      w.priorityTasks.lookup pid.toUInt32 :=
  dispatchTask_lookup_ne env task none fun h => hpid (toUInt32_injective h)

/-- A record of a live task leaves the map in agreement iff it is `recorded`. -/
theorem reflects_handle {ro : Rodata} {s s' : PrioState m} {env : Env m}
    {task : DispatchedTaskCtx} (hs : s.Reflects)
    (h : prioStep ro s (.handle env task) = some s') :
    (recorded s (.handle env task) = true → s'.boosted.encard ≤ maxEnqueuedTasks →
      s'.Reflects) ∧
    (s'.Reflects → recorded s (.handle env task) = true) := by
  obtain rfl := Option.some_inj.mp h
  rw [recorded]
  rcases hp : s.world.tasks.find task.pid with _ | p
  · -- a record for a task that is gone is ignored
    rw [dispatchTask_dead env task none hp]
    exact ⟨fun _ _ => hs, fun _ => rfl⟩
  · have hlive : (s.world.tasks.find task.pid).isSome := by rw [hp]; rfl
    have hdecided := decided_handle env task s hlive
    rw [Option.all_some, Option.isSome_some, if_pos rfl]
    by_cases hreach : task.cpu ≠ rlCpuAny ∧ bpfCpumaskTestCpu task.cpu p.cpusPtr = true
    · refine ⟨fun _ hcard pid => ?_, fun _ => by simp [hreach.1, hreach.2]⟩
      rw [hdecided pid]
      dsimp only
      by_cases hpid : pid = task.pid
      · subst hpid
        rw [if_pos rfl, dispatchTask_priorityTasks env hp, if_pos hreach]
        refine lookup_recorded task fun hv => not_full_of_boosted hs hcard ?_ fun q hq => ?_
        · show (PrioState.decided _ task.pid).isSome = true
          rw [hdecided, if_pos rfl, DispatchedTaskCtx.granted, if_pos hv]
          rfl
        · rw [hdecided, if_neg hq]
      · rw [if_neg hpid, ← hs pid]
        exact lookup_dispatchTask_ne env task s.world hpid
    · -- one of the exits before the map is updated
      have hsame : (dispatchTask env none task s.world).priorityTasks = s.world.priorityTasks := by
        rw [dispatchTask_priorityTasks env hp, if_neg hreach]
      have hreach' : (task.cpu ≠ rlCpuAny && bpfCpumaskTestCpu task.cpu p.cpusPtr) = false := by
        rw [Bool.eq_false_iff]
        simpa using hreach
      rw [hreach', Bool.false_or]
      refine ⟨fun hagree _ pid => ?_, fun hs' => ?_⟩
      · rw [hdecided pid]
        dsimp only
        rw [hsame]
        by_cases hpid : pid = task.pid
        · subst hpid
          rw [if_pos rfl]
          exact of_decide_eq_true hagree
        · rw [if_neg hpid]
          exact hs pid
      · have hpid := hs' task.pid
        rw [hdecided, if_pos rfl] at hpid
        dsimp only at hpid
        rw [hsame] at hpid
        exact decide_eq_true hpid

/-- **`priority_tasks` reflects the last decisions exactly when every record is
`recorded`.**  For every run of records, exits and all other steps in which at
most 4096 pids have priority at once. -/
theorem priority_tasks_reflects_iff (ro : Rodata) (w₀ : World m) (hstart : Started w₀)
    (ls : List (PrioLabel m))
    (hcard : ∀ s, Runs.Visits (prioStep ro) ⟨w₀, fun _ => none⟩ ls s →
      s.boosted.encard ≤ maxEnqueuedTasks) :
    (∀ s, Runs.Visits (prioStep ro) ⟨w₀, fun _ => none⟩ ls s → s.Reflects) ↔
      ∀ s l, Runs.Takes (prioStep ro) ⟨w₀, fun _ => none⟩ ls s l → recorded s l = true := by
  have hinit : PrioState.Reflects ⟨w₀, fun _ => none⟩ := by
    intro pid
    dsimp only
    rw [hstart.atLoad.priorityTasks, PrioState.decided]
    split_ifs <;> rfl
  refine Runs.visits_iff_takes_of hcard hinit (fun _ hs => hs) ?_ ?_
  · intro s l s' hs hrec h hle
    cases l with
    | sys l => exact reflects_sys hs h
    | handle env task => exact (reflects_handle hs h).1 hrec hle
  · intro s l s' hs hrec h hs'
    cases l with
    | sys l => exact hrec rfl
    | handle env task => exact hrec ((reflects_handle hs h).2 hs')

/-- Task 7, waiting for its first record. -/
def waitingTask7 : PrioState twoCpus :=
  ⟨startedWorld ((TaskTable.empty twoCpus).set (plainTask 7)), fun _ => none⟩

/-- Only task 7 can have priority. -/
theorem waitingTask7_boosted {ls : List (PrioLabel twoCpus)}
    (hls : ∀ l ∈ ls, ∃ env task, l = .handle env task ∧ task.pid = 7) {s : PrioState twoCpus}
    (hs : Runs.Visits (prioStep plainRodata) waitingTask7 ls s) :
    s.boosted.encard ≤ maxEnqueuedTasks := by
  have hlast : ∀ pid, pid ≠ 7 → s.last pid = none := by
    refine Runs.invariant_of_guarded (I := fun s : PrioState twoCpus => ∀ pid, pid ≠ 7 →
      s.last pid = none) (C := fun _ l => l ∈ ls) (fun _ _ => rfl) ?_ ?_ s hs
    · intro t l t' ht hl hstep pid hpid
      obtain ⟨env, task, rfl, htask⟩ := hls l hl
      obtain rfl := Option.some_inj.mp hstep
      dsimp only
      split_ifs
      · rw [Function.update_of_ne (by rw [htask]; exact hpid)]
        exact ht pid hpid
      · exact ht pid hpid
    · rintro t l ⟨pre, hpre, -, -⟩
      exact hpre.subset (List.mem_append_right pre List.mem_cons_self)
  have hsub : s.boosted ⊆ {7} := by
    intro pid hpid
    by_contra hne
    change (s.decided pid).isSome = true at hpid
    rw [PrioState.decided, hlast pid hne] at hpid
    simp at hpid
  refine (Set.encard_le_encard hsub).trans ?_
  rw [Set.encard_singleton]
  exact Nat.one_le_cast.mpr (by decide)

/-- The user-space scheduler boosts task 7 without naming a CPU: the task does not
get into `priority_tasks`. -/
theorem any_cpu_record_not_reflected :
    let ls : List (PrioLabel twoCpus) :=
      [.handle (Env.lowest cpu0) ⟨7, rlCpuAny, 0, 1000, 0⟩]
    Started waitingTask7.world ∧
      (∀ s, Runs.Visits (prioStep plainRodata) waitingTask7 ls s →
        s.boosted.encard ≤ maxEnqueuedTasks) ∧
      (∃ s, Runs.run (prioStep plainRodata) waitingTask7 ls = some s ∧
        s.world.priorityTasks.lookup 7 = none ∧ s.decided 7 = some 1000) ∧
      ¬ ∀ s, Runs.Visits (prioStep plainRodata) waitingTask7 ls s → s.Reflects := by
  intro ls
  have hrun : ∃ s, Runs.run (prioStep plainRodata) waitingTask7 ls = some s ∧
      s.world.priorityTasks.lookup 7 = none ∧ s.decided 7 = some 1000 :=
    ⟨_, rfl, by decide, by decide⟩
  refine ⟨started_startedWorld _, fun s hs => waitingTask7_boosted (by simp [ls]) hs, hrun,
    fun h => ?_⟩
  obtain ⟨s, hs, hlookup, hdecided⟩ := hrun
  have hreflects := h s (Runs.visits_of_run hs) 7
  rw [hdecided] at hreflects
  exact absurd (hlookup.symm.trans hreflects) (by simp)

/-- Naming a CPU that the task may use gets it into the map, and out again. -/
theorem priority_tasks_reflects_iff_named_cpu :
    let ls : List (PrioLabel twoCpus) :=
      [.handle (Env.lowest cpu0) ⟨7, 1, 0, 1000, 0⟩, .handle (Env.lowest cpu0) ⟨7, 1, 0, 1000, 42⟩]
    (∃ s, Runs.run (prioStep plainRodata) waitingTask7 ls = some s) ∧
      ∀ s, Runs.Visits (prioStep plainRodata) waitingTask7 ls s → s.Reflects := by
  intro ls
  refine ⟨⟨_, rfl⟩, ?_⟩
  have hiff := priority_tasks_reflects_iff plainRodata waitingTask7.world (started_startedWorld _) ls
    fun s hs => waitingTask7_boosted (by simp [ls]) hs
  exact hiff.mpr (Runs.guard_of_check (by decide))

end ScxGoland
