/-
`dispatch_task`: one record of the user-space scheduler becomes an insertion.

The task's affinity is tested twice.  Between the two tests the affinity may
change (`race`); the second test then fails and the insertion is taken back
with `scx_bpf_dispatch_cancel`.

* `dispatchTask_cancel_iff` — taking back restores the dispatch buffer and
  `priority_tasks` in exactly the states of `CancelRestores`: in all others the
  map update survives the cancellation, or the cancellation hits the insertion
  of another task;
* `dispatchTask_inserts` — with a slot left, a record for a live task that is
  not in `priority_tasks` inserts this task once, and nothing else;
* `Dispatching` — what `dispatch_task` and a drain are made of, said once.
-/
import ScxGoland.IdleCpu

namespace ScxGoland

variable {m : Machine}

/-- The insertion into the queue of the CPU that the record names, counted as a
user dispatch. -/
def insertOnCpu (p : TaskStruct m) (task : DispatchedTaskCtx) (w : World m) : World m :=
  let dsq := w.cpuToDsq task.cpu
  (dsq.2.scxBpfDsqInsertVtime .dispatch p.pid (.user dsq.1) task.sliceNs task.vtime
    task.flags).updBss fun b => { b with nrUserDispatches := b.nrUserDispatches + 1 }

/-- The two vtime branches: a priority task (`vtime == 0`) that is already in
`priority_tasks` is not inserted. -/
def insertByVtime (p : TaskStruct m) (task : DispatchedTaskCtx) (w : World m) : World m :=
  if task.vtime ≠ 0 then insertOnCpu p task w
  else
    match w.priorityTasks.lookup task.pid.toUInt32 with
    | none => insertOnCpu p task w
    | some _ => w

/-- `dispatch_task`.  `race` is the task's affinity at the second test, when it
changed after the first one. -/
def dispatchTask (env : Env m) (race : Option (CpuMask m)) (task : DispatchedTaskCtx)
    (w : World m) : World m :=
  match w.tasks.find task.pid with
  | none => w
  | some p =>
    let prevCpu := p.cpu.toS32
    if task.cpu = rlCpuAny then
      kickTaskCpu env p prevCpu
        (w.scxBpfDsqInsertVtime .dispatch p.pid (.user sharedDsq) task.sliceNs task.vtime
          task.flags)
    else if bpfCpumaskTestCpu task.cpu p.cpusPtr = false then
      kickTaskCpu env p prevCpu
        ((w.scxBpfDsqInsertVtime .dispatch p.pid (.user sharedDsq) task.sliceNs task.vtime
          task.flags).updBss fun b => { b with nrBounceDispatches := b.nrBounceDispatches + 1 })
    else
      let w := (insertByVtime p task w).updatePriorityTaskMap task.pid.toUInt32 task.vtime
        task.sliceNs
      if bpfCpumaskTestCpu task.cpu (race.getD p.cpusPtr) = false then
        w.scxBpfDispatchCancel.updBss fun b =>
          { b with nrCancelDispatches := b.nrCancelDispatches + 1 }
      else w.scxBpfKickCpu task.cpu .idle

/-- The two branches at once: only a priority task that is known is not inserted. -/
theorem insertByVtime_eq (p : TaskStruct m) (task : DispatchedTaskCtx) (w : World m) :
    insertByVtime p task w =
      if task.vtime = 0 ∧ (w.priorityTasks.lookup task.pid.toUInt32).isSome then w
      else insertOnCpu p task w := by
  rw [insertByVtime]
  by_cases hv : task.vtime = 0
  · rw [if_neg (not_not.mpr hv)]
    rcases w.priorityTasks.lookup task.pid.toUInt32 with _ | slice
    · rw [if_neg (by simp)]
    · rw [if_pos ⟨hv, rfl⟩]
  · rw [if_pos hv, if_neg fun hcon => hv hcon.1]

/-! ### The cancelled dispatch -/

theorem insertOnCpu_priorityTasks (p : TaskStruct m) (task : DispatchedTaskCtx) (w : World m) :
    (insertOnCpu p task w).priorityTasks = w.priorityTasks := by
  have hq := Quiet.cpuToDsq w task.cpu
  exact (insert_priorityTasks _ _ _).trans hq.priorityTasks

theorem insertOnCpu_buf (p : TaskStruct m) (task : DispatchedTaskCtx) (w : World m) :
    (w.buf.length < maxDispatchSlot →
      ∃ i, i.pid = p.pid ∧ (insertOnCpu p task w).buf = w.buf ++ [i]) ∧
    (¬ w.buf.length < maxDispatchSlot → (insertOnCpu p task w).buf = w.buf) := by
  have hq := Quiet.cpuToDsq w task.cpu
  have hins : (insertOnCpu p task w).buf = ((w.cpuToDsq task.cpu).2.insert .dispatch
      ⟨p.pid, .user (w.cpuToDsq task.cpu).1, task.sliceNs, some task.vtime, task.flags⟩).buf := rfl
  rw [hins]
  constructor
  · intro h
    refine ⟨_, ?_, (insert_dispatch_buf _ _ (by rw [hq.buf]; exact h)).trans (by rw [hq.buf])⟩
    rfl
  · intro h
    exact (insert_dispatch_buf_full _ _ (by rw [hq.buf]; exact h)).trans hq.buf

theorem insertByVtime_priorityTasks (p : TaskStruct m) (task : DispatchedTaskCtx) (w : World m) :
    (insertByVtime p task w).priorityTasks = w.priorityTasks := by
  rw [insertByVtime_eq]
  split_ifs
  · rfl
  · exact insertOnCpu_priorityTasks p task w

@[simp] theorem updatePriorityTaskMap_buf (w : World m) (pid : UInt32) (vtime slice : UInt64) :
    (w.updatePriorityTaskMap pid vtime slice).buf = w.buf := by
  rw [World.updatePriorityTaskMap]
  split_ifs <;> rfl

theorem updatePriorityTaskMap_priorityTasks (w : World m) (pid : UInt32)
    (vtime slice : UInt64) :
    (w.updatePriorityTaskMap pid vtime slice).priorityTasks =
      if vtime = 0 then w.priorityTasks.update pid slice else w.priorityTasks.delete pid := by
  rw [World.updatePriorityTaskMap]
  split_ifs <;> rfl

/-- When taking a dispatch back restores the state: the record inserted its task
(a slot was left, the pid was not a priority task) and the map update was
without effect (`vtime ≠ 0`, or the map was full); or it neither inserted
anything nor changed the stored slice, and there was nothing to cancel. -/
def CancelRestores (task : DispatchedTaskCtx) (w : World m) : Prop :=
  (w.buf.length < maxDispatchSlot ∧ w.priorityTasks.lookup task.pid.toUInt32 = none ∧
    (task.vtime ≠ 0 ∨ w.priorityTasks.Full)) ∨
  (task.vtime = 0 ∧ w.priorityTasks.lookup task.pid.toUInt32 = some task.sliceNs ∧ w.buf = [])

/-- The dispatch buffer after inserting and cancelling: as before if a slot was
left, one insertion of somebody else short if not. -/
theorem insertOnCpu_dropLast (p : TaskStruct m) (task : DispatchedTaskCtx) (w : World m) :
    (insertOnCpu p task w).buf.dropLast = w.buf ↔ w.buf.length < maxDispatchSlot := by
  obtain ⟨hroom, hfull⟩ := insertOnCpu_buf p task w
  by_cases h : w.buf.length < maxDispatchSlot
  · obtain ⟨i, -, hi⟩ := hroom h
    rw [hi, List.dropLast_concat]
    exact ⟨fun _ => h, fun _ => rfl⟩
  · rw [hfull h]
    refine ⟨fun heq => ?_, fun hc => absurd hc h⟩
    have hlen : w.buf.length - 1 = w.buf.length := by
      rw [← List.length_dropLast, heq]
    have hpos : 0 < maxDispatchSlot := by decide
    omega

/-- The state after a dispatch that was cancelled. -/
theorem dispatchTask_cancelled (env : Env m) {race : CpuMask m} {task : DispatchedTaskCtx}
    {w : World m} {p : TaskStruct m} (hp : w.tasks.find task.pid = some p)
    (hany : task.cpu ≠ rlCpuAny) (hfirst : bpfCpumaskTestCpu task.cpu p.cpusPtr = true)
    (hsecond : bpfCpumaskTestCpu task.cpu race = false) :
    (dispatchTask env (some race) task w).buf = (insertByVtime p task w).buf.dropLast ∧
    (dispatchTask env (some race) task w).priorityTasks =
      if task.vtime = 0 then w.priorityTasks.update task.pid.toUInt32 task.sliceNs
      else w.priorityTasks.delete task.pid.toUInt32 := by
  have hcase : dispatchTask env (some race) task w =
      (((insertByVtime p task w).updatePriorityTaskMap task.pid.toUInt32 task.vtime
        task.sliceNs).scxBpfDispatchCancel.updBss fun b =>
          { b with nrCancelDispatches := b.nrCancelDispatches + 1 }) := by
    rw [dispatchTask, hp]
    dsimp only
    rw [if_neg hany, if_neg (by rw [hfirst]; decide), Option.getD_some, if_pos hsecond]
  rw [hcase]
  constructor
  · change (World.scxBpfDispatchCancel _).buf = _
    rw [scxBpfDispatchCancel_buf, updatePriorityTaskMap_buf]
  · change (World.scxBpfDispatchCancel _).priorityTasks = _
    rw [scxBpfDispatchCancel_priorityTasks, updatePriorityTaskMap_priorityTasks,
      insertByVtime_priorityTasks]

/-- **A cancelled dispatch is a rollback exactly in the states of
`CancelRestores`.**  For every dispatch buffer, every `priority_tasks` and every
record whose CPU is allowed at the first test and no longer at the second. -/
theorem dispatchTask_cancel_iff (env : Env m) (race : CpuMask m) (task : DispatchedTaskCtx)
    (w : World m) (p : TaskStruct m) (hp : w.tasks.find task.pid = some p)
    (hany : task.cpu ≠ rlCpuAny) (hfirst : bpfCpumaskTestCpu task.cpu p.cpusPtr = true)
    (hsecond : bpfCpumaskTestCpu task.cpu race = false) :
    ((dispatchTask env (some race) task w).buf = w.buf ∧
      (dispatchTask env (some race) task w).priorityTasks = w.priorityTasks) ↔
    CancelRestores task w := by
  obtain ⟨hbuf, hmap⟩ := dispatchTask_cancelled env hp hany hfirst hsecond
  rw [hbuf, hmap, insertByVtime, CancelRestores]
  by_cases hv : task.vtime = 0
  · rw [if_pos hv, if_neg (not_not.mpr hv), BoundedMap.update_eq_self_iff]
    -- The priority branch inserts only when the pid is new to the map.
    rcases hlook : w.priorityTasks.lookup task.pid.toUInt32 with _ | slice
    · simp [insertOnCpu_dropLast, hv]
    · have hdrop : w.buf.dropLast = w.buf ↔ w.buf = [] := by
        constructor
        · intro heq
          have hlen : w.buf.length - 1 = w.buf.length := by rw [← List.length_dropLast, heq]
          exact List.length_eq_zero_iff.mp (by omega)
        · intro h
          rw [h]
          rfl
      simp [hdrop, hv, and_comm]
  · rw [if_neg hv, if_pos hv, BoundedMap.delete_eq_self_iff, insertOnCpu_dropLast]
    simp [hv]

/-- Task 7 is a priority task; an insertion of task 8 is waiting in the buffer. -/
def boostedWorld : World twoCpus :=
  { World.loaded twoCpus 4 with
    tasks := (TaskTable.empty twoCpus).set (plainTask 7)
    priorityTasks := (BoundedMap.empty UInt32 UInt64 maxEnqueuedTasks).update 7 1000
    buf := [⟨8, .user 1, 5000, some 3, 0⟩] }

/-- The affinity of task 7 shrinks to CPU 1 while its priority record for CPU 0 is
handled: the cancellation takes the insertion of task 8 out of the buffer. -/
theorem dispatchTask_cancel_drops_other :
    let task : DispatchedTaskCtx := ⟨7, 0, 0, 1000, 0⟩
    let w' := dispatchTask (Env.lowest cpu0) (some {cpu1}) task boostedWorld
    (boostedWorld.tasks.find 7 = some (plainTask 7) ∧ task.cpu ≠ rlCpuAny ∧
      bpfCpumaskTestCpu task.cpu (plainTask 7).cpusPtr = true ∧
      bpfCpumaskTestCpu task.cpu ({cpu1} : CpuMask twoCpus) = false) ∧
    w'.buf = [] ∧ ¬ (w'.buf = boostedWorld.buf ∧
      w'.priorityTasks = boostedWorld.priorityTasks) := by
  have hbuf : (dispatchTask (Env.lowest cpu0) (some {cpu1}) ⟨7, 0, 0, 1000, 0⟩
      boostedWorld).buf = [] := by decide
  refine ⟨⟨rfl, by decide, by decide, by decide⟩, hbuf, fun h => ?_⟩
  rw [hbuf] at h
  exact absurd h.1 (by decide)

/-- An ordinary record (`vtime ≠ 0`) of a task without priority is rolled back. -/
theorem dispatchTask_cancel_iff_ordinary :
    let task : DispatchedTaskCtx := ⟨7, 0, 0, 1000, 42⟩
    let w := { boostedWorld with priorityTasks := BoundedMap.empty _ _ _ }
    CancelRestores task w ∧
    (dispatchTask (Env.lowest cpu0) (some {cpu1}) task w).buf = w.buf ∧
    (dispatchTask (Env.lowest cpu0) (some {cpu1}) task w).priorityTasks = w.priorityTasks := by
  intro task w
  have hrestores : CancelRestores task w :=
    Or.inl ⟨by decide, rfl, Or.inl (by decide)⟩
  exact ⟨hrestores, (dispatchTask_cancel_iff (Env.lowest cpu0) {cpu1} task w (plainTask 7) rfl
    (by decide) (by decide) (by decide)).mpr hrestores⟩

/-! ### The dispatch that is not cancelled -/

section Effects

variable (env : Env m) (task : DispatchedTaskCtx) {w : World m}

/-- The priority branch that does not insert: `vtime == 0`, a CPU that the task
may use, and a pid that is already in `priority_tasks`. -/
def SkipsInsertion (task : DispatchedTaskCtx) (w : World m) (p : TaskStruct m) : Prop :=
  task.cpu ≠ rlCpuAny ∧ bpfCpumaskTestCpu task.cpu p.cpusPtr = true ∧ task.vtime = 0 ∧
    (w.priorityTasks.lookup task.pid.toUInt32).isSome

theorem effect_insertOnCpu (p : TaskStruct m) (hroom : w.buf.length < maxDispatchSlot) :
    Effect p.pid 1 0 w (insertOnCpu p task w) := by
  have hq := Quiet.cpuToDsq w task.cpu
  have hins : Effect p.pid 1 0 (w.cpuToDsq task.cpu).2
      ((w.cpuToDsq task.cpu).2.insert .dispatch
        ⟨p.pid, .user (w.cpuToDsq task.cpu).1, task.sliceNs, some task.vtime, task.flags⟩) :=
    Effect.insert_dispatch _ _ rfl (by rw [hq.buf]; exact hroom)
  exact Effect.after_quiet hq (hins.trans (Effect.updBss _
    fun b => { b with nrUserDispatches := b.nrUserDispatches + 1 }))

theorem effect_updatePriorityTaskMap (pid : Int32) (key : UInt32) (vtime slice : UInt64) :
    Effect pid 0 0 w (w.updatePriorityTaskMap key vtime slice) := by
  rw [World.updatePriorityTaskMap]
  split_ifs
  · exact Effect.of_eq rfl rfl
  · exact Effect.of_eq rfl rfl

/-- With a slot left, handling a record for a live task inserts that task exactly
once, unless the priority branch skips the insertion. -/
theorem dispatchTask_inserts {p : TaskStruct m} (hroom : w.buf.length < maxDispatchSlot)
    (hp : w.tasks.find task.pid = some p) (hskip : ¬ SkipsInsertion task w p) :
    Effect task.pid 1 0 w (dispatchTask env none task w) := by
  have hpid : p.pid = task.pid := w.tasks.find_pid hp
  have hshared : Effect p.pid 1 0 w (w.scxBpfDsqInsertVtime .dispatch p.pid (.user sharedDsq)
      task.sliceNs task.vtime task.flags) := Effect.insert_dispatch w _ rfl hroom
  rw [← hpid, dispatchTask, hp]
  dsimp only
  split_ifs with hany hfirst hsecond
  · exact hshared.then_quiet (quiet_kickTaskCpu _ _ _ _)
  · exact (hshared.trans (Effect.updBss _ _)).then_quiet (quiet_kickTaskCpu _ _ _ _)
  · rw [Option.getD_none] at hsecond
    exact absurd hsecond hfirst
  · -- The CPU is allowed: the insertion is skipped only for a known priority task.
    have hins : Effect p.pid 1 0 w (insertByVtime p task w) := by
      rw [insertByVtime_eq]
      split_ifs with hknown
      · exact absurd ⟨hany, by simpa using hfirst, hknown⟩ hskip
      · exact effect_insertOnCpu task p hroom
    exact (hins.trans (effect_updatePriorityTaskMap _ _ _ _)).then_quiet (Quiet.kick _ _ _)

/-- The skipping branch inserts nothing. -/
theorem dispatchTask_skips {p : TaskStruct m} (hp : w.tasks.find task.pid = some p)
    (hskip : SkipsInsertion task w p) :
    Effect task.pid 0 0 w (dispatchTask env none task w) := by
  obtain ⟨hany, hfirst, hknown⟩ := hskip
  have hnone : insertByVtime p task w = w := by rw [insertByVtime_eq, if_pos hknown]
  rw [dispatchTask, hp]
  dsimp only
  rw [if_neg hany, if_neg (by rw [hfirst]; decide), Option.getD_none,
    if_neg (by rw [hfirst]; decide), hnone]
  exact (effect_updatePriorityTaskMap _ _ _ _).then_quiet (Quiet.kick _ _ _)

theorem dispatchTask_dead (race : Option (CpuMask m)) (hp : w.tasks.find task.pid = none) :
    dispatchTask env race task w = w := by
  rw [dispatchTask, hp]

/-- A record changes `priority_tasks` at its own pid at most. -/
theorem dispatchTask_lookup_ne (race : Option (CpuMask m)) {key : UInt32}
    (hkey : key ≠ task.pid.toUInt32) :
    (dispatchTask env race task w).priorityTasks.lookup key = w.priorityTasks.lookup key := by
  rw [dispatchTask]
  split
  · rfl
  · rename_i p _
    have hmap : (World.updatePriorityTaskMap task.pid.toUInt32 task.vtime task.sliceNs
        (insertByVtime p task w)).priorityTasks.lookup key = w.priorityTasks.lookup key := by
      rw [updatePriorityTaskMap_priorityTasks, insertByVtime_priorityTasks]
      split_ifs
      · exact BoundedMap.lookup_update_ne _ _ hkey
      · rw [BoundedMap.lookup_delete, if_neg hkey]
    dsimp only
    split_ifs
    · rw [(quiet_kickTaskCpu _ _ _ _).priorityTasks]
      exact congrArg (BoundedMap.lookup · key) (insert_priorityTasks _ _ _)
    · rw [(quiet_kickTaskCpu _ _ _ _).priorityTasks]
      exact congrArg (BoundedMap.lookup · key) (insert_priorityTasks _ _ _)
    · change (World.scxBpfDispatchCancel _).priorityTasks.lookup key = _
      rw [scxBpfDispatchCancel_priorityTasks]
      exact hmap
    · exact hmap

/-- A record takes at most one slot. -/
theorem dispatchTask_buf_length_le (race : Option (CpuMask m)) :
    (dispatchTask env race task w).buf.length ≤ w.buf.length + 1 := by
  have hins : ∀ i, (w.insert .dispatch i).buf.length ≤ w.buf.length + 1 := by
    intro i
    by_cases hroom : w.buf.length < maxDispatchSlot
    · rw [insert_dispatch_buf w i hroom, List.length_append, List.length_singleton]
    · rw [insert_dispatch_buf_full w i hroom]
      omega
  have hcpu : ∀ p, (insertByVtime p task w).buf.length ≤ w.buf.length + 1 := by
    intro p
    have hon : (insertOnCpu p task w).buf.length ≤ w.buf.length + 1 := by
      obtain ⟨hroom, hfull⟩ := insertOnCpu_buf p task w
      by_cases h : w.buf.length < maxDispatchSlot
      · obtain ⟨i, -, hi⟩ := hroom h
        rw [hi, List.length_append, List.length_singleton]
      · rw [hfull h]
        omega
    rw [insertByVtime_eq]
    split_ifs
    · omega
    · exact hon
  rw [dispatchTask]
  split
  · omega
  · rename_i p _
    dsimp only
    split_ifs
    · rw [(quiet_kickTaskCpu _ _ _ _).buf]
      exact hins _
    · rw [(quiet_kickTaskCpu _ _ _ _).buf]
      exact hins _
    · change (World.scxBpfDispatchCancel _).buf.length ≤ _
      rw [scxBpfDispatchCancel_buf, updatePriorityTaskMap_buf, List.length_dropLast]
      have := hcpu p
      omega
    · change (World.updatePriorityTaskMap _ _ _ _).buf.length ≤ _
      rw [updatePriorityTaskMap_buf]
      exact hcpu p

end Effects

/-! ### The footprint -/

/-- The counters that are not bumped by an enqueue or a dispatch. -/
def Bss.resident (b : Bss) : UInt64 × UInt64 × UInt64 × UInt64 :=
  (b.userschedLastRunAt, b.nrScheduled, b.nrRunning, b.nrOnlineCpus)

/-- The elementary effects of `dispatch_task` and of a drain. -/
inductive DispatchEffect : World m → World m → Prop where
  | search {w w' : World m} (h : SearchEffect w w') : DispatchEffect w w'
  | insert (w : World m) (i : Insertion) : DispatchEffect w (w.insert .dispatch i)
  | error (w : World m) (msg : String) : DispatchEffect w (w.scxBpfError msg)
  | count (w : World m) {f : Bss → Bss} (hf : ∀ b, (f b).resident = b.resident) :
    DispatchEffect w (w.updBss f)
  | priority (w : World m) (pid : UInt32) (vtime slice : UInt64) :
    DispatchEffect w (w.updatePriorityTaskMap pid vtime slice)
  | cancel (w : World m) : DispatchEffect w w.scxBpfDispatchCancel
  | ring (w : World m) (dispatched : List Bytes) :
    DispatchEffect w { w with dispatched := dispatched }

/-- Any number of them. -/
def Dispatching : World m → World m → Prop := Relation.ReflTransGen DispatchEffect

namespace Dispatching

theorem refl (w : World m) : Dispatching w w := Relation.ReflTransGen.refl

theorem one {w w' : World m} (h : DispatchEffect w w') : Dispatching w w' :=
  Relation.ReflTransGen.single h

theorem andThen {w₁ w₂ w₃ : World m} (h : Dispatching w₁ w₂) (h' : DispatchEffect w₂ w₃) :
    Dispatching w₁ w₃ := Relation.ReflTransGen.tail h h'

theorem trans {w₁ w₂ w₃ : World m} (h : Dispatching w₁ w₂) (h' : Dispatching w₂ w₃) :
    Dispatching w₁ w₃ := Relation.ReflTransGen.trans h h'

theorem of_searching {w w' : World m} (h : Searching w w') : Dispatching w w' :=
  Relation.ReflTransGen.mono (fun _ _ => .search) _ _ h

theorem cpuToDsq (w : World m) (cpu : Int32) : Dispatching w (w.cpuToDsq cpu).2 := by
  rw [World.cpuToDsq]
  split_ifs
  · exact one (.error w _)
  · exact refl w

end Dispatching

theorem dispatching_insertOnCpu (p : TaskStruct m) (task : DispatchedTaskCtx) (w : World m) :
    Dispatching w (insertOnCpu p task w) := by
  rw [insertOnCpu]
  exact ((Dispatching.cpuToDsq w _).andThen (.insert _ _)).andThen (.count _ fun _ => rfl)

theorem dispatching_insertByVtime (p : TaskStruct m) (task : DispatchedTaskCtx) (w : World m) :
    Dispatching w (insertByVtime p task w) := by
  rw [insertByVtime_eq]
  split_ifs
  · exact Dispatching.refl w
  · exact dispatching_insertOnCpu p task w

theorem dispatching_dispatchTask (env : Env m) (race : Option (CpuMask m))
    (task : DispatchedTaskCtx) (w : World m) : Dispatching w (dispatchTask env race task w) := by
  rw [dispatchTask]
  split
  · exact Dispatching.refl w
  · rename_i p _
    have hshared := Dispatching.one (.insert w
      ⟨p.pid, .user sharedDsq, task.sliceNs, some task.vtime, task.flags⟩)
    have hmap := (dispatching_insertByVtime p task w).andThen
      (.priority _ task.pid.toUInt32 task.vtime task.sliceNs)
    dsimp only
    split_ifs
    · exact hshared.trans (.of_searching (.kickTaskCpu _ _ _ _))
    · refine Dispatching.trans ?_ (.of_searching (.kickTaskCpu _ _ _ _))
      exact hshared.andThen (.count _ fun _ => rfl)
    · exact (hmap.andThen (.cancel _)).andThen (.count _ fun _ => rfl)
    · exact hmap.andThen (.search (.kick _ _))

end ScxGoland
