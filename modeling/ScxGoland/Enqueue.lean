/-
`goland_enqueue` and `goland_select_cpu`: tasks that become ready to run.

`goland_enqueue` has six exits.  Threads of the scheduler, per-CPU kthreads,
`kswapd` and `khugepaged` are inserted at once; a remote wakeup may be
dispatched directly to an idle CPU; every other task goes on to the priority
path (`insertPriority`) and from there, inserted or not, to the `@queued` ring
(`enqueueToUser`).

* `Enqueueing` — what both callbacks are made of, said once: a relation that holds of
  each elementary effect holds of them (`effects_rule`);
* `golandEnqueue_once_iff` — one call inserts the task at most once, and inserts
  it or submits a record for it, unless a priority task reaches a full ring: it
  is then inserted by the priority path and again by the congestion path.
-/
import ScxGoland.DispatchTask

namespace ScxGoland

variable {m : Machine}

/-- What `try_direct_dispatch` returns: the CPU or a negative error, and whether
the task has been dispatched. -/
structure DirectDispatch (m : Machine) where
  cpu : Int32
  dispatched : Bool
  world : World m

def tryDirectDispatch (ro : Rodata) (env : Env m) (p : TaskStruct m) (prevCpu : Int32)
    (enqFlags : UInt64) (w : World m) : DirectDispatch m :=
  if ro.builtinIdle = false then ⟨-eBUSY, false, w⟩
  else
    let picked := pickIdleCpu ro env p prevCpu w
    if picked.1 < 0 then ⟨picked.1, false, picked.2⟩
    else if bpfCpumaskTestCpu picked.1 p.cpusPtr = false then
      ⟨-eBUSY, false, picked.2.scxBpfKickCpu picked.1 .idle⟩
    else if picked.2.scxBpfDsqNrQueued sharedDsq = 0 then
      let dsq := picked.2.cpuToDsq picked.1
      if dsq.2.scxBpfDsqNrQueued dsq.1 = 0 then
        -- `cpu_to_dsq(cpu)` is evaluated a second time for the insertion
        let dsq := dsq.2.cpuToDsq picked.1
        ⟨picked.1, true,
          (dsq.2.scxBpfDsqInsertVtime .direct p.pid (.user dsq.1) scxSliceDfl p.dsqVtime
            enqFlags).updBss fun b => { b with nrKernelDispatches := b.nrKernelDispatches + 1 }⟩
      else ⟨picked.1, false, dsq.2⟩
    else ⟨picked.1, false, picked.2⟩

def isWakeSync (env : Env m) (wakeFlags : UInt64) : Bool :=
  wakeFlags &&& scxWakeSync ≠ 0 ∧ env.currentFlags &&& pfEXITING = 0

def golandSelectCpu (ro : Rodata) (env : Env m) (p : TaskStruct m) (prevCpu : Int32)
    (wakeFlags : UInt64) (w : World m) : Int32 × World m :=
  if isUserschedTask ro p then (prevCpu, w)
  else
    let d := tryDirectDispatch ro env p prevCpu 0 w
    if d.cpu < 0 then
      (if isWakeSync env wakeFlags then env.smpProcessorId.toS32 else prevCpu, d.world)
    else (d.cpu, d.world)

/-- `get_task_info`; a task without a context reports zero times. -/
def getTaskInfo (p : TaskStruct m) (enqFlags : UInt64) (w : World m) : QueuedTaskCtx where
  pid := p.pid
  cpu := p.cpu.toS32
  nrCpusAllowed := UInt64.ofNat p.nrCpusAllowed
  flags := enqFlags
  startTs := ((w.taskCtx p.pid).map TaskCtx.startTs).getD 0
  stopTs := ((w.taskCtx p.pid).map TaskCtx.stopTs).getD 0
  execRuntime := ((w.taskCtx p.pid).map TaskCtx.execRuntime).getD 0
  weight := p.weight.toUInt64
  vtime := p.dsqVtime
  tgid := p.tgid

/-- The insertion of kernel threads into the queue of their CPU. -/
def insertKernelTask (ro : Rodata) (p : TaskStruct m) (enqFlags : UInt64) (w : World m) :
    World m :=
  let dsq := w.cpuToDsq p.cpu.toS32
  (dsq.2.scxBpfDsqInsertVtime .direct p.pid (.user dsq.1) ro.defaultSlice p.dsqVtime
    enqFlags).updBss fun b => { b with nrKernelDispatches := b.nrKernelDispatches + 1 }

/-- The flags of a priority insertion: a running priority task is not preempted. -/
def prioEnqFlags (cpu : Int32) (w : World m) : UInt64 :=
  match w.runningTask.lookup cpu with
  | none => scxEnqPreempt
  | some curPid =>
    if (w.priorityTasks.lookup curPid).isSome then scxEnqHead else scxEnqPreempt

/-- The priority path of `goland_enqueue`. -/
def insertPriority (env : Env m) (p : TaskStruct m) (w : World m) : World m :=
  match w.priorityTasks.lookup p.pid.toUInt32 with
  | none => w
  | some slice =>
    let picked := w.scxBpfPickIdleCpu env p.cpusPtr false
    let prioCpu := if picked.1 = -eBUSY then p.cpu.toS32 else picked.1
    if prioCpu < 0 then picked.2
    else
      (picked.2.scxBpfDsqInsert .direct p.pid (.localOn prioCpu) slice
        (prioEnqFlags prioCpu picked.2)).updBss fun b =>
          { b with nrUserDispatches := b.nrUserDispatches + 1 }

/-- The ring path of `goland_enqueue`: submit a record, or fall back to
`SHARED_DSQ` when the ring is full. -/
def enqueueToUser (env : Env m) (p : TaskStruct m) (enqFlags : UInt64) (cpu : Int32)
    (w : World m) : World m :=
  let w :=
    if w.queued.length < w.queuedCap then
      ({ w with queued := w.queued ++ [getTaskInfo p enqFlags w] }.emit
        (.submitted (getTaskInfo p enqFlags w))).updBss fun b =>
          { b with nrQueued := b.nrQueued + 1 }
    else
      (((w.updBss fun b => { b with nrSchedCongested := b.nrSchedCongested + 1 }).scxBpfDsqInsertVtime
        .direct p.pid (.user sharedDsq) scxSliceDfl p.dsqVtime enqFlags).updBss fun b =>
          { b with nrKernelDispatches := b.nrKernelDispatches + 1 })
  kickTaskCpu env p (if cpu < 0 then p.cpu.toS32 else cpu) w

/-- The direct dispatch of `goland_enqueue`, for a task that skipped
`ops.select_cpu()`. -/
def enqueueDirect (ro : Rodata) (env : Env m) (p : TaskStruct m) (enqFlags : UInt64)
    (w : World m) : DirectDispatch m :=
  if ro.builtinIdle ∧ isQueuedWakeup ro p enqFlags then
    tryDirectDispatch ro env p p.cpu.toS32 enqFlags w
  else ⟨-eBUSY, false, w⟩

def golandEnqueue (ro : Rodata) (env : Env m) (p : TaskStruct m) (enqFlags : UInt64)
    (w : World m) : World m :=
  if isUserschedTask ro p then w
  else if isBelongUserschedTask ro p then
    kickTaskCpu env p p.cpu.toS32
      (w.scxBpfDsqInsert .direct p.pid (.user schedDsq) scxSliceInf scxEnqHead)
  else if isKthread p ∧ p.nrCpusAllowed = 1 ∧ ro.earlyProcessing then
    insertKernelTask ro p enqFlags w
  else if isKswapd p ∨ isKhugepaged ro p then insertKernelTask ro p enqFlags w
  else
    let d := enqueueDirect ro env p enqFlags w
    if d.dispatched then d.world.scxBpfKickCpu d.cpu .idle
    else enqueueToUser env p enqFlags d.cpu (insertPriority env p d.world)

/-! ### When a task does not reach the ring -/

/-- `try_direct_dispatch` dispatches to the CPU that the search found. -/
def DirectTo (ro : Rodata) (env : Env m) (p : TaskStruct m) (w : World m) (prevCpu cpu : Int32) :
    Prop :=
  ro.builtinIdle = true ∧ (pickIdleCpu ro env p prevCpu w).1 = cpu ∧
    bpfCpumaskTestCpu cpu p.cpusPtr = true ∧ w.scxBpfDsqNrQueued sharedDsq = 0 ∧
    w.scxBpfDsqNrQueued (w.cpuToDsq cpu).1 = 0

instance (ro : Rodata) (env : Env m) (p : TaskStruct m) (w : World m) (prevCpu cpu : Int32) :
    Decidable (DirectTo ro env p w prevCpu cpu) :=
  inferInstanceAs (Decidable (_ ∧ _ ∧ _ ∧ _ ∧ _))

/-- `try_direct_dispatch` finds an idle CPU that the task may use, with nothing
waiting in front of the task. -/
def DirectlyDispatched (ro : Rodata) (env : Env m) (p : TaskStruct m) (enqFlags : UInt64)
    (w : World m) : Prop :=
  ro.builtinIdle = true ∧ isQueuedWakeup ro p enqFlags = true ∧
    ¬ (pickIdleCpu ro env p p.cpu.toS32 w).1 < 0 ∧
    bpfCpumaskTestCpu (pickIdleCpu ro env p p.cpu.toS32 w).1 p.cpusPtr = true ∧
    w.scxBpfDsqNrQueued sharedDsq = 0 ∧
    w.scxBpfDsqNrQueued (w.cpuToDsq (pickIdleCpu ro env p p.cpu.toS32 w).1).1 = 0

/-- One of the exits before the priority path takes the task. -/
def LeavesEarly (ro : Rodata) (env : Env m) (p : TaskStruct m) (enqFlags : UInt64)
    (w : World m) : Prop :=
  isBelongUserschedTask ro p = true ∨
  (isKthread p = true ∧ p.nrCpusAllowed = 1 ∧ ro.earlyProcessing = true) ∨
  (isKswapd p = true ∨ isKhugepaged ro p = true) ∨
  DirectlyDispatched ro env p enqFlags w

/-! ### The effect of each path -/

theorem nrQueued_of_quiet {w w' : World m} (h : Quiet w w') (dsq : UInt64) :
    w'.scxBpfDsqNrQueued dsq = w.scxBpfDsqNrQueued dsq := by
  rw [World.scxBpfDsqNrQueued, World.scxBpfDsqNrQueued, h.dsqs]

theorem cpuToDsq_fst (cpu : Int32) (w w' : World m) :
    (w'.cpuToDsq cpu).1 = (w.cpuToDsq cpu).1 := by
  rw [World.cpuToDsq, World.cpuToDsq]
  split_ifs <;> rfl

theorem effect_insertKernelTask (ro : Rodata) (p : TaskStruct m) (enqFlags : UInt64)
    (w : World m) : Effect p.pid 1 0 w (insertKernelTask ro p enqFlags w) := by
  rw [insertKernelTask]
  refine Effect.after_quiet (Quiet.cpuToDsq w p.cpu.toS32) ?_
  exact Effect.dsqInsertVtime_updBss _ _ _ _ _ _

/-- `try_direct_dispatch` searches for an idle CPU, and then inserts the task into the
queue of that CPU or does nothing more. -/
theorem tryDirectDispatch_cases (ro : Rodata) (env : Env m) (p : TaskStruct m) (prevCpu : Int32)
    (enqFlags : UInt64) (w : World m) :
    let cpu := (pickIdleCpu ro env p prevCpu w).1
    let d := tryDirectDispatch ro env p prevCpu enqFlags w
    (d.dispatched = false ∧ ¬ DirectTo ro env p w prevCpu cpu ∧ Searching w d.world) ∨
    (d.dispatched = true ∧ DirectTo ro env p w prevCpu cpu ∧ ∃ w₁, Searching w w₁ ∧ d.world =
      (w₁.scxBpfDsqInsertVtime .direct p.pid (.user (w.cpuToDsq cpu).1) scxSliceDfl p.dsqVtime
        enqFlags).updBss fun b => { b with nrKernelDispatches := b.nrKernelDispatches + 1 }) := by
  have hpick := Searching.pickIdleCpu ro env p prevCpu w
  dsimp only
  rw [tryDirectDispatch]
  by_cases hidle : ro.builtinIdle = false
  · rw [if_pos hidle]
    exact Or.inl ⟨rfl, fun h => absurd (hidle.symm.trans h.1) (by simp), .refl w⟩
  rw [if_neg hidle]
  dsimp only
  by_cases hmask : bpfCpumaskTestCpu (pickIdleCpu ro env p prevCpu w).1 p.cpusPtr = false
  · -- a negative number fails the test of the mask as well
    have hnot : ¬ DirectTo ro env p w prevCpu (pickIdleCpu ro env p prevCpu w).1 :=
      fun h => absurd (hmask.symm.trans h.2.2.1) (by simp)
    split_ifs
    · exact Or.inl ⟨rfl, hnot, hpick⟩
    · exact Or.inl ⟨rfl, hnot, hpick.andThen (.kick _ _)⟩
  obtain ⟨c, -, hc⟩ := exists_cpu_of_test (by simpa using hmask)
  -- the search changes no queue, so the lengths may be read in `w`
  have hdsq : ∀ w' : World m, Searching w' (w'.cpuToDsq (pickIdleCpu ro env p prevCpu w).1).2 :=
    fun w' => hc ▸ .cpuToDsq w' c
  have hown := hpick.trans (hdsq _)
  rw [if_neg (by rw [hc]; exact c.toS32_nonneg), if_neg hmask, nrQueued_of_quiet hpick.quiet,
    nrQueued_of_quiet hown.quiet, cpuToDsq_fst _ w (pickIdleCpu ro env p prevCpu w).2,
    cpuToDsq_fst _ w (World.cpuToDsq _ _).2]
  split_ifs with hshared hempty
  · exact Or.inr ⟨rfl, ⟨by simpa using hidle, rfl, by simpa using hmask, hshared, hempty⟩, _,
      hown.trans (hdsq _), rfl⟩
  · exact Or.inl ⟨rfl, fun h => hempty h.2.2.2.2, hown⟩
  · exact Or.inl ⟨rfl, fun h => hshared h.2.2.2.1, hpick⟩

/-- What `try_direct_dispatch` leaves for the paths behind it. -/
structure DirectSpec (p : TaskStruct m) (w : World m) (d : DirectDispatch m) : Prop where
  effect : Effect p.pid (if d.dispatched then 1 else 0) 0 w d.world
  priorityTasks : d.world.priorityTasks = w.priorityTasks
  queued : d.world.queued = w.queued
  queuedCap : d.world.queuedCap = w.queuedCap

theorem DirectSpec.of_quiet (p : TaskStruct m) {w : World m} {d : DirectDispatch m}
    (hd : d.dispatched = false) (h : Quiet w d.world) : DirectSpec p w d where
  effect := by rw [hd]; exact Effect.of_quiet h
  priorityTasks := h.priorityTasks
  queued := h.queued
  queuedCap := h.queuedCap

theorem tryDirectDispatch_spec (ro : Rodata) (env : Env m) (p : TaskStruct m) (prevCpu : Int32)
    (enqFlags : UInt64) (w : World m) :
    DirectSpec p w (tryDirectDispatch ro env p prevCpu enqFlags w) := by
  rcases tryDirectDispatch_cases ro env p prevCpu enqFlags w with
    ⟨hnot, -, hsearch⟩ | ⟨hdisp, -, w₁, hsearch, hworld⟩
  · exact DirectSpec.of_quiet p hnot hsearch.quiet
  · -- a search, one insertion, one counter
    have hquiet := hsearch.quiet
    refine ⟨?_, ?_, ?_, ?_⟩
    · rw [if_pos hdisp, hworld]
      exact Effect.after_quiet hquiet (Effect.dsqInsertVtime_updBss _ _ _ _ _ _)
    · rw [hworld]
      exact hquiet.priorityTasks
    · rw [hworld]
      exact hquiet.queued
    · rw [hworld]
      exact hquiet.queuedCap

/-- `goland_select_cpu` inserts the task at most once, and leaves `@queued` alone. -/
theorem golandSelectCpu_spec (ro : Rodata) (env : Env m) (p : TaskStruct m) (prevCpu : Int32)
    (wakeFlags : UInt64) (w : World m) :
    (∃ ins, Effect p.pid ins 0 w (golandSelectCpu ro env p prevCpu wakeFlags w).2) ∧
      (golandSelectCpu ro env p prevCpu wakeFlags w).2.queued = w.queued := by
  have hspec := tryDirectDispatch_spec ro env p prevCpu 0 w
  rw [golandSelectCpu]
  dsimp only
  split_ifs
  · exact ⟨⟨0, Effect.of_quiet (Quiet.refl w)⟩, rfl⟩
  all_goals exact ⟨⟨_, hspec.effect⟩, hspec.queued⟩

theorem enqueueDirect_spec (ro : Rodata) (env : Env m) (p : TaskStruct m) (enqFlags : UInt64)
    (w : World m) : DirectSpec p w (enqueueDirect ro env p enqFlags w) := by
  rw [enqueueDirect]
  split_ifs
  · exact tryDirectDispatch_spec ro env p _ enqFlags w
  · exact DirectSpec.of_quiet p rfl (Quiet.refl w)

theorem enqueueDirect_dispatched_iff (ro : Rodata) (env : Env m) (p : TaskStruct m)
    (enqFlags : UInt64) (w : World m) :
    (enqueueDirect ro env p enqFlags w).dispatched = true ↔
      DirectlyDispatched ro env p enqFlags w := by
  rw [enqueueDirect, DirectlyDispatched]
  by_cases hwake : ro.builtinIdle = true ∧ isQueuedWakeup ro p enqFlags = true
  · rw [if_pos hwake]
    rcases tryDirectDispatch_cases ro env p p.cpu.toS32 enqFlags w with
      ⟨hdisp, hnot, -⟩ | ⟨hdisp, ⟨-, -, htest, hshared, hown⟩, -⟩
    · rw [hdisp]
      refine ⟨fun h => absurd h (by simp), fun h => absurd ⟨hwake.1, rfl, ?_⟩ hnot⟩
      exact h.2.2.2
    · obtain ⟨c, -, hc⟩ := exists_cpu_of_test htest
      refine ⟨fun _ => ⟨hwake.1, hwake.2, ?_, htest, hshared, hown⟩, fun _ => hdisp⟩
      rw [hc]
      exact c.toS32_nonneg
  · rw [if_neg hwake]
    exact ⟨fun h => absurd h (by simp), fun h => absurd ⟨h.1, h.2.1⟩ hwake⟩

/-- The priority path searches for an idle CPU and inserts a task whose pid is in
`priority_tasks`: the CPU it falls back to is a valid one. -/
theorem insertPriority_cases (env : Env m) (p : TaskStruct m) (w : World m) :
    (w.priorityTasks.lookup p.pid.toUInt32 = none ∧ insertPriority env p w = w) ∨
    ∃ slice, ∃ c : Cpu m, ∃ w₁, w.priorityTasks.lookup p.pid.toUInt32 = some slice ∧
      Searching w w₁ ∧ insertPriority env p w =
        (w₁.scxBpfDsqInsert .direct p.pid (.localOn c.toS32) slice
          (prioEnqFlags c.toS32 w₁)).updBss fun b =>
            { b with nrUserDispatches := b.nrUserDispatches + 1 } := by
  rw [insertPriority]
  rcases w.priorityTasks.lookup p.pid.toUInt32 with _ | slice
  · exact Or.inl ⟨rfl, rfl⟩
  · obtain ⟨c, hc⟩ : ∃ c : Cpu m, (if (w.scxBpfPickIdleCpu env p.cpusPtr false).1 = -eBUSY then
        p.cpu.toS32 else (w.scxBpfPickIdleCpu env p.cpusPtr false).1) = c.toS32 := by
      rw [World.scxBpfPickIdleCpu]
      split
      · rename_i c _
        exact ⟨c, if_neg (c.toS32_ne_neg (by decide))⟩
      · exact ⟨p.cpu, if_pos rfl⟩
    dsimp only
    rw [hc, if_neg c.toS32_nonneg]
    exact Or.inr ⟨slice, c, _, rfl, Searching.pickIdle w env p.cpusPtr false, rfl⟩

theorem effect_insertPriority (env : Env m) (p : TaskStruct m) (w : World m) :
    Effect p.pid (if (w.priorityTasks.lookup p.pid.toUInt32).isSome then 1 else 0) 0 w
      (insertPriority env p w) := by
  rcases insertPriority_cases env p w with ⟨hnone, heq⟩ | ⟨slice, c, w₁, hsome, hsearch, heq⟩
  · rw [heq, hnone]
    exact Effect.of_quiet (Quiet.refl w)
  · rw [heq, hsome]
    exact Effect.after_quiet hsearch.quiet (Effect.dsqInsert_updBss _ _ _ _ _)

theorem insertPriority_queued (env : Env m) (p : TaskStruct m) (w : World m) :
    (insertPriority env p w).queued = w.queued ∧
      (insertPriority env p w).queuedCap = w.queuedCap := by
  rcases insertPriority_cases env p w with ⟨-, heq⟩ | ⟨slice, c, w₁, -, hsearch, heq⟩
  · rw [heq]
    exact ⟨rfl, rfl⟩
  · rw [heq]
    exact ⟨hsearch.quiet.queued, hsearch.quiet.queuedCap⟩

/-- The ring path submits one record while the ring has room, and inserts the
task otherwise. -/
theorem effect_enqueueToUser (env : Env m) (p : TaskStruct m) (enqFlags : UInt64) (cpu : Int32)
    (w : World m) :
    Effect p.pid (if w.queued.length < w.queuedCap then 0 else 1)
      (if w.queued.length < w.queuedCap then 1 else 0) w
      (enqueueToUser env p enqFlags cpu w) := by
  by_cases hroom : w.queued.length < w.queuedCap
  · simp only [enqueueToUser, if_pos hroom]
    refine Effect.then_quiet ?_ (quiet_kickTaskCpu _ _ _ _)
    exact ⟨fun q => rfl, [.submitted (getTaskInfo p enqFlags w)], rfl,
      by simp [Event.submits, getTaskInfo], by simp [Event.inserts],
      by simp [Event.submits, getTaskInfo]⟩
  · simp only [enqueueToUser, if_neg hroom]
    refine Effect.then_quiet ?_ (quiet_kickTaskCpu _ _ _ _)
    exact (Effect.updBss w _).trans (Effect.dsqInsertVtime_updBss _ _ _ _ _ _)

/-! ### One call of `goland_enqueue` -/

/-- An early exit inserts the task, once. -/
theorem golandEnqueue_early (ro : Rodata) (env : Env m) (p : TaskStruct m) (enqFlags : UInt64)
    (w : World m) (hus : isUserschedTask ro p = false) (h : LeavesEarly ro env p enqFlags w) :
    Effect p.pid 1 0 w (golandEnqueue ro env p enqFlags w) := by
  rw [golandEnqueue, hus, if_neg Bool.false_ne_true]
  split_ifs with hown hkth hksw
  · exact Effect.then_quiet (Effect.insert_direct w _ rfl) (quiet_kickTaskCpu _ _ _ _)
  · exact effect_insertKernelTask ro p enqFlags w
  · exact effect_insertKernelTask ro p enqFlags w
  · have hd : (enqueueDirect ro env p enqFlags w).dispatched = true := by
      rw [enqueueDirect_dispatched_iff]
      rcases h with h | h | h | h
      · exact absurd h hown
      · exact absurd h hkth
      · exact absurd h hksw
      · exact h
    have heff := (enqueueDirect_spec ro env p enqFlags w).effect
    rw [if_pos hd] at heff
    dsimp only
    rw [if_pos hd]
    exact heff.then_quiet (Quiet.kick _ _ _)

/-- Without an early exit the task passes the priority path and the ring path,
and each of them may insert it. -/
theorem golandEnqueue_late (ro : Rodata) (env : Env m) (p : TaskStruct m) (enqFlags : UInt64)
    (w : World m) (hus : isUserschedTask ro p = false) (h : ¬ LeavesEarly ro env p enqFlags w) :
    Effect p.pid ((if (w.priorityTasks.lookup p.pid.toUInt32).isSome then 1 else 0) +
        if w.queued.length < w.queuedCap then 0 else 1)
      (if w.queued.length < w.queuedCap then 1 else 0) w
      (golandEnqueue ro env p enqFlags w) := by
  simp only [LeavesEarly, not_or] at h
  obtain ⟨hown, hkth, hksw, hdir⟩ := h
  rw [← enqueueDirect_dispatched_iff] at hdir
  rw [golandEnqueue, hus, if_neg Bool.false_ne_true, if_neg hown, if_neg hkth,
    if_neg (not_or.mpr hksw)]
  dsimp only
  rw [if_neg hdir]
  have hspec := enqueueDirect_spec ro env p enqFlags w
  set d := enqueueDirect ro env p enqFlags w with hd
  -- the two paths look at the map and the ring as `w` has them
  have hprio := effect_insertPriority env p d.world
  have hring := effect_enqueueToUser env p enqFlags d.cpu (insertPriority env p d.world)
  obtain ⟨hq, hcap⟩ := insertPriority_queued env p d.world
  rw [hspec.priorityTasks] at hprio
  rw [hq, hcap, hspec.queued, hspec.queuedCap] at hring
  have heff := hspec.effect
  rw [if_neg hdir] at heff
  have hall := (heff.trans hprio).trans hring
  simpa only [zero_add] using hall

/-- What the callback does to its task is an `Effect`, on every path, and at most one
record is submitted for it. -/
theorem golandEnqueue_effect (ro : Rodata) (env : Env m) (p : TaskStruct m) (enqFlags : UInt64)
    (w : World m) :
    ∃ ins sub, sub ≤ 1 ∧ Effect p.pid ins sub w (golandEnqueue ro env p enqFlags w) := by
  by_cases hus : isUserschedTask ro p = false
  · by_cases hearly : LeavesEarly ro env p enqFlags w
    · exact ⟨1, 0, Nat.zero_le 1, golandEnqueue_early ro env p enqFlags w hus hearly⟩
    · refine ⟨_, _, ?_, golandEnqueue_late ro env p enqFlags w hus hearly⟩
      split_ifs
      · exact le_rfl
      · exact Nat.zero_le 1
  · refine ⟨0, 0, Nat.zero_le 1, ?_⟩
    rw [golandEnqueue, if_pos (by simpa using hus)]
    exact Effect.of_quiet (Quiet.refl w)

/-! ### The footprint -/

/-- The elementary effects of `goland_select_cpu` and `goland_enqueue` for the task `p`,
which may be one of the scheduler's `own` threads. -/
inductive EnqueueEffect (own : Bool) (p : TaskStruct m) (enqFlags : UInt64) :
    World m → World m → Prop where
  | search {w w' : World m} (h : SearchEffect w w') : EnqueueEffect own p enqFlags w w'
  -- the insertion that nothing counts
  | thread (w : World m) (h : own = true) :
    EnqueueEffect own p enqFlags w
      (w.scxBpfDsqInsert .direct p.pid (.user schedDsq) scxSliceInf scxEnqHead)
  | kernel (w : World m) (id slice : UInt64) :
    EnqueueEffect own p enqFlags w
      ((w.scxBpfDsqInsertVtime .direct p.pid (.user id) slice p.dsqVtime enqFlags).updBss
        fun b => { b with nrKernelDispatches := b.nrKernelDispatches + 1 })
  | priority (w : World m) (c : Cpu m) {slice : UInt64}
      (h : w.priorityTasks.lookup p.pid.toUInt32 = some slice) :
    EnqueueEffect own p enqFlags w
      ((w.scxBpfDsqInsert .direct p.pid (.localOn c.toS32) slice
        (prioEnqFlags c.toS32 w)).updBss
          fun b => { b with nrUserDispatches := b.nrUserDispatches + 1 })
  | submit (w : World m) :
    EnqueueEffect own p enqFlags w
      (({ w with queued := w.queued ++ [getTaskInfo p enqFlags w] }.emit
        (.submitted (getTaskInfo p enqFlags w))).updBss
          fun b => { b with nrQueued := b.nrQueued + 1 })
  | congested (w : World m) :
    EnqueueEffect own p enqFlags w
      (w.updBss fun b => { b with nrSchedCongested := b.nrSchedCongested + 1 })

/-- Any number of them. -/
def Enqueueing (own : Bool) (p : TaskStruct m) (enqFlags : UInt64) : World m → World m → Prop :=
  Relation.ReflTransGen (EnqueueEffect own p enqFlags)

namespace Enqueueing

variable {own : Bool} {p : TaskStruct m} {enqFlags : UInt64} {w₁ w₂ w₃ : World m}

theorem refl (w : World m) : Enqueueing own p enqFlags w w := Relation.ReflTransGen.refl

theorem one (h : EnqueueEffect own p enqFlags w₁ w₂) : Enqueueing own p enqFlags w₁ w₂ :=
  Relation.ReflTransGen.single h

theorem trans (h : Enqueueing own p enqFlags w₁ w₂) (h' : Enqueueing own p enqFlags w₂ w₃) :
    Enqueueing own p enqFlags w₁ w₃ := Relation.ReflTransGen.trans h h'

theorem andThen (h : Enqueueing own p enqFlags w₁ w₂) (h' : EnqueueEffect own p enqFlags w₂ w₃) :
    Enqueueing own p enqFlags w₁ w₃ := Relation.ReflTransGen.tail h h'

theorem of_searching (h : Searching w₁ w₂) : Enqueueing own p enqFlags w₁ w₂ :=
  Relation.ReflTransGen.mono (fun _ _ => .search) _ _ h

end Enqueueing

section Footprint

variable (ro : Rodata) (env : Env m) (p : TaskStruct m) (enqFlags : UInt64) {own : Bool}

theorem enqueueing_tryDirectDispatch (prevCpu : Int32) (w : World m) :
    Enqueueing own p enqFlags w (tryDirectDispatch ro env p prevCpu enqFlags w).world := by
  rcases tryDirectDispatch_cases ro env p prevCpu enqFlags w with
    ⟨-, -, hsearch⟩ | ⟨-, -, w₁, hsearch, hworld⟩
  · exact .of_searching hsearch
  · rw [hworld]
    exact (Enqueueing.of_searching hsearch).andThen (.kernel w₁ _ scxSliceDfl)

theorem enqueueing_golandSelectCpu (prevCpu : Int32) (wakeFlags : UInt64) (w : World m) :
    Enqueueing false p 0 w (golandSelectCpu ro env p prevCpu wakeFlags w).2 := by
  rw [golandSelectCpu]
  dsimp only
  split_ifs
  · exact .refl w
  all_goals exact enqueueing_tryDirectDispatch ro env p 0 prevCpu w

theorem enqueueing_insertKernelTask (w : World m) :
    Enqueueing own p enqFlags w (insertKernelTask ro p enqFlags w) :=
  (Enqueueing.of_searching (Searching.cpuToDsq w p.cpu)).andThen (.kernel _ _ ro.defaultSlice)

theorem enqueueing_enqueueDirect (w : World m) :
    Enqueueing own p enqFlags w (enqueueDirect ro env p enqFlags w).world := by
  rw [enqueueDirect]
  split_ifs
  · exact enqueueing_tryDirectDispatch ro env p enqFlags _ w
  · exact .refl w

theorem enqueueing_insertPriority (w : World m) :
    Enqueueing own p enqFlags w (insertPriority env p w) := by
  rcases insertPriority_cases env p w with ⟨-, heq⟩ | ⟨slice, c, w₁, hslice, hsearch, heq⟩
  · rw [heq]
    exact .refl w
  · rw [heq]
    refine (Enqueueing.of_searching hsearch).andThen (.priority w₁ c ?_)
    rw [hsearch.quiet.priorityTasks]
    exact hslice

theorem enqueueing_enqueueToUser (cpu : Int32) (w : World m) :
    Enqueueing own p enqFlags w (enqueueToUser env p enqFlags cpu w) := by
  refine Enqueueing.trans ?_ (.of_searching (.kickTaskCpu env p _ _))
  split_ifs
  · exact .one (.submit w)
  · exact (Enqueueing.one (.congested w)).andThen (.kernel _ _ scxSliceDfl)

/-- **The footprint of `goland_enqueue`**, on all of its paths. -/
theorem enqueueing_golandEnqueue (w : World m) :
    Enqueueing (isBelongUserschedTask ro p) p enqFlags w (golandEnqueue ro env p enqFlags w) := by
  have hdirect : Enqueueing (isBelongUserschedTask ro p) p enqFlags w _ :=
    enqueueing_enqueueDirect ro env p enqFlags w
  rw [golandEnqueue]
  dsimp only
  split_ifs with _ hown
  · exact .refl w
  · exact (Enqueueing.one (.thread w hown)).trans (.of_searching (.kickTaskCpu env p _ _))
  · exact enqueueing_insertKernelTask ro p enqFlags w
  · exact enqueueing_insertKernelTask ro p enqFlags w
  · exact hdirect.andThen (.search (.kick _ _))
  · exact (hdirect.trans (enqueueing_insertPriority env p enqFlags _)).trans
      (enqueueing_enqueueToUser env p enqFlags _ _)

end Footprint

/-- What an enqueue leaves as it is. -/
structure Spared (w w' : World m) : Prop where
  priorityTasks : w'.priorityTasks = w.priorityTasks
  buf : w'.buf = w.buf
  dispatched : w'.dispatched = w.dispatched

/-- An enqueue leaves `priority_tasks`, the dispatch buffer and the user ring alone. -/
theorem Enqueueing.spared {own : Bool} {p : TaskStruct m} {enqFlags : UInt64} {w w' : World m}
    (h : Enqueueing own p enqFlags w w') : Spared w w' := by
  refine effects_rule (fun _ => ⟨rfl, rfl, rfl⟩) (fun h h' => ⟨h'.priorityTasks.trans
    h.priorityTasks, h'.buf.trans h.buf, h'.dispatched.trans h.dispatched⟩) (fun heffect => ?_) h
  cases heffect with
  | search hsearch =>
    have hquiet := (Searching.one hsearch).quiet
    exact ⟨hquiet.priorityTasks, hquiet.buf, hquiet.dispatched⟩
  | thread hown => exact ⟨rfl, rfl, rfl⟩
  | kernel id slice => exact ⟨rfl, rfl, rfl⟩
  | priority c hslice => exact ⟨rfl, rfl, rfl⟩
  | submit => exact ⟨rfl, rfl, rfl⟩
  | congested => exact ⟨rfl, rfl, rfl⟩

/-- One call inserts the task at most once, and it inserts the task or submits a
record for it. -/
def EnqueuedOnce (p : TaskStruct m) (w w' : World m) : Prop :=
  ∃ es, w'.log = es ++ w.log ∧ es.countP (Event.inserts p.pid) ≤ 1 ∧
    ∃ e ∈ es, e.inserts p.pid = true ∨ e.submits p.pid = true

theorem enqueuedOnce_iff {p : TaskStruct m} {ins sub : ℕ} {w w' : World m}
    (h : Effect p.pid ins sub w w') : EnqueuedOnce p w w' ↔ ins ≤ 1 ∧ 0 < ins + sub := by
  obtain ⟨es, hes, -, hi, hs⟩ := h.log
  have hmem : (∃ e ∈ es, e.inserts p.pid = true ∨ e.submits p.pid = true) ↔ 0 < ins + sub := by
    rw [← hi, ← hs, Nat.add_pos_iff_pos_or_pos, List.countP_pos_iff, List.countP_pos_iff]
    constructor
    · rintro ⟨e, he, h | h⟩
      · exact Or.inl ⟨e, he, h⟩
      · exact Or.inr ⟨e, he, h⟩
    · rintro (⟨e, he, h⟩ | ⟨e, he, h⟩)
      · exact ⟨e, he, Or.inl h⟩
      · exact ⟨e, he, Or.inr h⟩
  constructor
  · rintro ⟨es', hes', hle, hex⟩
    obtain rfl : es' = es := List.append_cancel_right (hes'.symm.trans hes)
    exact ⟨hi ▸ hle, hmem.mp hex⟩
  · rintro ⟨hle, hpos⟩
    exact ⟨es, hes, hi ▸ hle, hmem.mpr hpos⟩

/-- **No double insertion, no dropped task, unless a priority task meets a full
ring.**  The priority path does not return after its insertion, and the ring
path inserts the task again when it cannot reserve a record. -/
theorem golandEnqueue_once_iff (ro : Rodata) (env : Env m) (p : TaskStruct m)
    (enqFlags : UInt64) (w : World m) (hus : isUserschedTask ro p = false) :
    EnqueuedOnce p w (golandEnqueue ro env p enqFlags w) ↔
      (LeavesEarly ro env p enqFlags w ∨ w.priorityTasks.lookup p.pid.toUInt32 = none ∨
        w.queued.length < w.queuedCap) := by
  by_cases hearly : LeavesEarly ro env p enqFlags w
  · rw [enqueuedOnce_iff (golandEnqueue_early ro env p enqFlags w hus hearly)]
    simp [hearly]
  · rw [enqueuedOnce_iff (golandEnqueue_late ro env p enqFlags w hus hearly)]
    rcases hp : w.priorityTasks.lookup p.pid.toUInt32 with _ | slice
    · by_cases hroom : w.queued.length < w.queuedCap <;> simp [hroom]
    · by_cases hroom : w.queued.length < w.queuedCap <;> simp [hroom, hearly]

/-- Nothing special: no kernel thread is prioritised and idle CPUs are not used. -/
def plainRodata : Rodata where
  userschedPid := 1
  khugepagedPid := 0
  earlyProcessing := false
  builtinIdle := false
  smtEnabled := false
  defaultSlice := scxSliceDfl
  isEnqCpuSelected _ := true
  timeDelta after before := if 0 < (after - before).toInt64 then (after - before).toInt64 else 0

/-- Task 7 is live and a priority task, and `n` of the 6553 records that fit
into the ring are waiting for user space. -/
def priorityWorld (n : ℕ) : World twoCpus :=
  { World.loaded twoCpus 6553 with
    tasks := (TaskTable.empty twoCpus).set (plainTask 7)
    priorityTasks := (BoundedMap.empty _ _ _).update 7 scxSliceDfl
    queued := List.replicate n (getTaskInfo (plainTask 8) 0 (World.loaded twoCpus 6553)) }

/-- With a full ring the task is inserted on its CPU and again into
`SHARED_DSQ`. -/
theorem golandEnqueue_inserts_twice :
    ¬ EnqueuedOnce (plainTask 7) (priorityWorld 6553)
      (golandEnqueue plainRodata (Env.lowest cpu0) (plainTask 7) 0 (priorityWorld 6553)) := by
  have hlate : ¬ LeavesEarly plainRodata (Env.lowest cpu0) (plainTask 7) 0
      (priorityWorld 6553) := by
    rintro (h | h | h | h)
    · exact absurd h (by decide)
    · exact absurd h (by decide)
    · exact absurd h (by decide)
    · exact absurd h.1 (by decide)
  have hfull : ¬ (priorityWorld 6553).queued.length < (priorityWorld 6553).queuedCap := by
    rw [show (priorityWorld 6553).queued.length = 6553 from List.length_replicate]
    exact lt_irrefl 6553
  have heff := golandEnqueue_late plainRodata (Env.lowest cpu0) (plainTask 7) 0
    (priorityWorld 6553) (by decide) hlate
  rw [if_pos (by decide +kernel), if_neg hfull] at heff
  rw [enqueuedOnce_iff heff]
  exact fun h => absurd h.1 (by decide)

theorem golandEnqueue_once_iff_room :
    EnqueuedOnce (plainTask 7) (priorityWorld 1)
      (golandEnqueue plainRodata (Env.lowest cpu0) (plainTask 7) 0 (priorityWorld 1)) :=
  (golandEnqueue_once_iff plainRodata (Env.lowest cpu0) (plainTask 7) 0 (priorityWorld 1)
    (by decide)).mpr (Or.inr (Or.inr (by decide)))

end ScxGoland
