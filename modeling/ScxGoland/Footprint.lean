/-
What the scheduling callbacks never touch.

`goland_select_cpu`, `goland_enqueue` and `goland_dispatch` write into idle
masks, scratch masks, ring buffers, `priority_tasks`, the dispatch counters and
the slices of tasks.  `Untouched w w'` says that everything else is as before:
the wake-up flag, the affinities, the owners of the CPUs, the shape of the task
contexts and the counters that user space and the other callbacks keep.

* `Searching.untouched`, `Dispatching.untouched`, `Enqueueing.untouched` — no elementary
  effect of the three footprints touches anything, but for the ring of an enqueue;
* `golandDispatch_untouched` — `goland_dispatch` touches the wake-up flag only;
* `step_untouched`, `step_tended` — the steps of the system that touch nothing else
  either, and what the others write.
-/
import ScxGoland.System

namespace ScxGoland

variable {m : Machine}

/-- A task, without what an insertion sets. -/
def TaskStruct.unsliced (p : TaskStruct m) : TaskStruct m := { p with slice := 0, dsqVtime := 0 }

/-- What the scheduling callbacks never touch is the same in `w` and `w'`. -/
structure Untouched (w w' : World m) : Prop where
  tasks : ∀ pid, (w'.tasks.find pid).map TaskStruct.unsliced =
    (w.tasks.find pid).map TaskStruct.unsliced
  taskCtx : ∀ pid, (w'.taskCtx pid).map TaskCtx.shape = (w.taskCtx pid).map TaskCtx.shape
  cpuCtx : w'.cpuCtx = w.cpuCtx
  nrCpuIds : w'.nrCpuIds = w.nrCpuIds
  bss : w'.bss.resident = w.bss.resident
  userschedNeeded : w'.userschedNeeded = w.userschedNeeded
  runningTask : w'.runningTask = w.runningTask
  queued : w'.queued = w.queued
  queuedCap : w'.queuedCap = w.queuedCap
  dsqs : w'.dsqs = w.dsqs

/-! ### Elementary effects -/

namespace Untouched

theorem refl (w : World m) : Untouched w w :=
  ⟨fun _ => rfl, fun _ => rfl, rfl, rfl, rfl, rfl, rfl, rfl, rfl, rfl⟩

theorem trans {w₁ w₂ w₃ : World m} (h : Untouched w₁ w₂) (h' : Untouched w₂ w₃) :
    Untouched w₁ w₃ where
  tasks pid := (h'.tasks pid).trans (h.tasks pid)
  taskCtx pid := (h'.taskCtx pid).trans (h.taskCtx pid)
  cpuCtx := h'.cpuCtx.trans h.cpuCtx
  nrCpuIds := h'.nrCpuIds.trans h.nrCpuIds
  bss := h'.bss.trans h.bss
  userschedNeeded := h'.userschedNeeded.trans h.userschedNeeded
  runningTask := h'.runningTask.trans h.runningTask
  queued := h'.queued.trans h.queued
  queuedCap := h'.queuedCap.trans h.queuedCap
  dsqs := h'.dsqs.trans h.dsqs

theorem live {w w' : World m} (h : Untouched w w') (pid : Int32) :
    (w'.tasks.find pid).isSome = (w.tasks.find pid).isSome := by
  have htasks := congrArg Option.isSome (h.tasks pid)
  rwa [Option.isSome_map, Option.isSome_map] at htasks

theorem with_queued {w w' : World m} (h : Untouched w w') (queued : List QueuedTaskCtx) :
    Untouched { w with queued := queued } { w' with queued := queued } :=
  ⟨h.tasks, h.taskCtx, h.cpuCtx, h.nrCpuIds, h.bss, h.userschedNeeded, h.runningTask, rfl,
    h.queuedCap, h.dsqs⟩

theorem with_userschedNeeded {w w' : World m} (h : Untouched w w') (needed : Bool) :
    Untouched { w with userschedNeeded := needed } { w' with userschedNeeded := needed } :=
  ⟨h.tasks, h.taskCtx, h.cpuCtx, h.nrCpuIds, h.bss, rfl, h.runningTask, h.queued, h.queuedCap,
    h.dsqs⟩

theorem pending_eq {w w' : World m} (h : Untouched w w') :
    World.userschedHasPendingTasks w'.bss.nrScheduled w'.availData =
      World.userschedHasPendingTasks w.bss.nrScheduled w.availData := by
  have hsched : w'.bss.nrScheduled = w.bss.nrScheduled := congrArg (fun r => r.2.1) h.bss
  rw [hsched, World.availData, World.availData, h.queued]

section Elementary

variable (w : World m)

/-- Idle masks, `priority_tasks`, the user ring, the dispatch buffer and the log
may all change. -/
theorem of_fields {idle idleSmt : CpuMask m}
    {priorityTasks : BoundedMap UInt32 UInt64 maxEnqueuedTasks} {dispatched : List Bytes}
    {buf : List Insertion} {log : List Event} :
    Untouched w { w with
      idle := idle
      idleSmt := idleSmt
      priorityTasks := priorityTasks
      dispatched := dispatched
      buf := buf
      log := log } :=
  ⟨fun _ => rfl, fun _ => rfl, rfl, rfl, rfl, rfl, rfl, rfl, rfl, rfl⟩

theorem emit (e : Event) : Untouched w (w.emit e) := of_fields w

theorem updBss {f : Bss → Bss} (hf : ∀ b, (f b).resident = b.resident) :
    Untouched w (w.updBss f) :=
  ⟨fun _ => rfl, fun _ => rfl, rfl, rfl, hf w.bss, rfl, rfl, rfl, rfl, rfl⟩

theorem then_updBss {w₁ w₂ : World m} {f : Bss → Bss} (h : Untouched w₁ w₂)
    (hf : ∀ b, (f b).resident = b.resident) : Untouched w₁ (w₂.updBss f) :=
  h.trans (updBss w₂ hf)

/-- The slice and the vtime of a task change. -/
theorem setSlice (pid : Int32) (slice vtime : TaskStruct m → UInt64) :
    Untouched w { w with tasks := w.tasks.setSlice pid slice vtime } := by
  refine ⟨fun q => ?_, fun _ => rfl, rfl, rfl, rfl, rfl, rfl, rfl, rfl, rfl⟩
  rw [TaskTable.setSlice]
  dsimp only
  split_ifs
  · rw [Option.map_map]
    rfl
  · rfl

theorem insert (ctx : OpsCtx) (i : Insertion) : Untouched w (w.insert ctx i) := by
  cases ctx with
  | direct => exact (setSlice w _ _ _).trans (of_fields _)
  | dispatch =>
    rw [World.insert]
    dsimp only
    by_cases hroom : w.buf.length < maxDispatchSlot
    · rw [if_pos hroom]
      exact (setSlice w _ _ _).trans (of_fields _)
    · rw [if_neg hroom]
      exact (setSlice w _ _ _).trans (of_fields _)

theorem cpuToDsq (cpu : Int32) : Untouched w (w.cpuToDsq cpu).2 := by
  rw [World.cpuToDsq]
  split_ifs
  · exact emit w _
  · exact refl w

theorem updatePriorityTaskMap (pid : UInt32) (vtime slice : UInt64) :
    Untouched w (w.updatePriorityTaskMap pid vtime slice) := by
  rw [World.updatePriorityTaskMap]
  split_ifs
  · exact of_fields w
  · exact of_fields w

theorem scxBpfDispatchCancel : Untouched w w.scxBpfDispatchCancel := by
  rw [World.scxBpfDispatchCancel]
  split
  · exact of_fields w
  · exact emit w _

theorem moveToLocal (env : Env m) (cpu : Int32) (dsq : UInt64) :
    Untouched w (w.scxBpfDsqMoveToLocal env cpu dsq).2 := of_fields w

end Elementary

end Untouched

/-! ### What the footprints touch -/

theorem Searching.untouched {w w' : World m} (h : Searching w w') : Untouched w w' := by
  refine effects_rule Untouched.refl Untouched.trans (fun heffect => ?_) h
  cases heffect with
  | claim c => exact Untouched.of_fields _
  | kick cpu => exact Untouched.emit _ _
  | scratch hscratch =>
    obtain ⟨ctx, rfl, hshape⟩ := hscratch
    exact ⟨fun _ => rfl, hshape, rfl, rfl, rfl, rfl, rfl, rfl, rfl, rfl⟩
  | error msg => exact Untouched.emit _ _

theorem Dispatching.untouched {w w' : World m} (h : Dispatching w w') : Untouched w w' := by
  refine effects_rule Untouched.refl Untouched.trans (fun heffect => ?_) h
  cases heffect with
  | search hsearch => exact (Searching.one hsearch).untouched
  | insert i => exact Untouched.insert _ _ i
  | error msg => exact Untouched.emit _ _
  | count hf => exact Untouched.updBss _ hf
  | priority pid vtime slice => exact Untouched.updatePriorityTaskMap _ pid vtime slice
  | cancel => exact Untouched.scxBpfDispatchCancel _
  | ring dispatched => exact Untouched.of_fields _

section Enqueue

variable (ro : Rodata) (env : Env m) (p : TaskStruct m) (enqFlags : UInt64) (w : World m)

/-- An enqueue changes the ring `@queued` as well. -/
theorem Enqueueing.untouched {own : Bool} {p : TaskStruct m} {enqFlags : UInt64} {w w' : World m}
    (h : Enqueueing own p enqFlags w w') : Untouched { w with queued := w'.queued } w' := by
  refine effects_rule (R := fun w w' => Untouched { w with queued := w'.queued } w')
    Untouched.refl (fun {_ _ w₃} h h' => (h.with_queued w₃.queued).trans h') (fun heffect => ?_) h
  cases heffect with
  | search hsearch =>
    rw [(Searching.one hsearch).untouched.queued]
    exact (Searching.one hsearch).untouched
  | thread hown => exact Untouched.insert _ .direct _
  | kernel id slice => exact (Untouched.insert _ .direct _).then_updBss fun _ => rfl
  | priority c hslice => exact (Untouched.insert _ .direct _).then_updBss fun _ => rfl
  | submit => exact (Untouched.emit _ _).then_updBss fun _ => rfl
  | congested => exact Untouched.updBss _ fun _ => rfl

theorem Enqueueing.untouched_of_queued {own : Bool} {p : TaskStruct m} {enqFlags : UInt64}
    {w w' : World m} (h : Enqueueing own p enqFlags w w') (hqueued : w'.queued = w.queued) :
    Untouched w w' := by
  have hsame := h.untouched
  rwa [hqueued] at hsame

theorem untouched_golandSelectCpu (prevCpu : Int32) (wakeFlags : UInt64) :
    Untouched w (golandSelectCpu ro env p prevCpu wakeFlags w).2 :=
  (enqueueing_golandSelectCpu ro env p prevCpu wakeFlags w).untouched_of_queued
    (golandSelectCpu_spec ro env p prevCpu wakeFlags w).2

/-- The task gets to the ring without anything touched. -/
theorem untouched_beforeRing :
    Untouched w (insertPriority env p (enqueueDirect ro env p enqFlags w).world) := by
  have hpaths : Enqueueing false p enqFlags w _ :=
    (enqueueing_enqueueDirect ro env p enqFlags w).trans (enqueueing_insertPriority env p enqFlags _)
  exact hpaths.untouched_of_queued ((insertPriority_queued env p _).1.trans
    (enqueueDirect_spec ro env p enqFlags w).queued)

end Enqueue

/-! ### `goland_dispatch` -/

/-- **A rule for the drain.**  With two slots left it handles at most one record, so a
relation that `dispatch_task` respects is respected by the drain. -/
theorem drainDispatched_rule {R : World m → World m → Prop} {env : Env m}
    {races : ℕ → Option (CpuMask m)} {w : World m} (hlen : w.buf.length ≤ 1) (hrefl : R w w)
    (htask : ∀ i task, w.buf.length < maxDispatchSlot → R w (dispatchTask env (races i) task w))
    (hring : ∀ w' dispatched, R w w' → R w { w' with dispatched := dispatched }) :
    R w (drainDispatched env races w) := by
  have hslots : w.buf.length + 1 < maxDispatchSlot :=
    lt_of_le_of_lt (Nat.succ_le_succ hlen) (by decide)
  rw [drainDispatched]
  refine hring _ _ ?_
  rcases drain_at_most_one env (w.dispatched.mapIdx fun i data => ⟨data, races i⟩) w hslots with
    hsame | ⟨s, hs, task, -, hworld⟩
  · rw [hsame]
    exact hrefl
  · obtain ⟨i, hi, rfl⟩ := List.mem_mapIdx.mp hs
    rw [hworld]
    exact htask i task (lt_trans (Nat.lt_succ_self _) hslots)

/-- The flag aside, what is left of `goland_dispatch` once no queue had a task
touches nothing. -/
theorem keepRunning_cases (ro : Rodata) (cpu : Cpu m) (prev : Option Int32) (w : World m) :
    (World.userschedHasPendingTasks w.bss.nrScheduled w.availData = true ∧
      keepRunning ro cpu prev w =
        ({ w with userschedNeeded := true } : World m).scxBpfKickCpu cpu.toS32 .idle) ∨
    (World.userschedHasPendingTasks w.bss.nrScheduled w.availData = false ∧
      Untouched w (keepRunning ro cpu prev w)) := by
  rw [keepRunning]
  by_cases hpending : World.userschedHasPendingTasks w.bss.nrScheduled w.availData = true
  · rw [if_pos hpending]
    exact Or.inl ⟨hpending, rfl⟩
  · rw [if_neg hpending]
    refine Or.inr ⟨by simpa using hpending, ?_⟩
    split
    · exact Untouched.refl w
    · split_ifs
      · exact Untouched.setSlice w _ _ _
      · exact Untouched.refl w

/-- The beginning of `goland_dispatch`: the flag is cleared, and the scheduler's task
inserted if it was set. -/
def takeWakeup (ro : Rodata) (w : World m) : World m :=
  if w.userschedNeeded then dispatchUserScheduler ro { w with userschedNeeded := false } else w

/-- The first half of `goland_dispatch`, up to the end of the drain. -/
def beforeConsuming (ro : Rodata) (env : Env m) (races : ℕ → Option (CpuMask m)) (w : World m) :
    World m :=
  drainDispatched env races (takeWakeup ro w)

theorem dispatching_dispatchUserScheduler (ro : Rodata) (w : World m) :
    Dispatching w (dispatchUserScheduler ro w) := by
  rw [dispatchUserScheduler]
  split
  · exact Dispatching.one (.error w _)
  · exact Dispatching.one (.insert w _)

theorem dispatching_takeWakeup (ro : Rodata) (w : World m) :
    Dispatching { w with userschedNeeded := false } (takeWakeup ro w) := by
  rw [takeWakeup]
  split_ifs with hflag
  · exact dispatching_dispatchUserScheduler ro _
  · have hclear : w.userschedNeeded = false := by simpa using hflag
    rw [show ({ w with userschedNeeded := false } : World m) = w by rw [← hclear]]
    exact Dispatching.refl w

/-- But for the flag, the first half is made of these effects. -/
theorem dispatching_beforeConsuming (ro : Rodata) (env : Env m) (races : ℕ → Option (CpuMask m))
    (w : World m) :
    Dispatching { w with userschedNeeded := false } (beforeConsuming ro env races w) :=
  ((dispatching_takeWakeup ro w).trans (dispatching_drain env _ _)).andThen (.ring _ _)

/-- The second half: the queues are tried in order, and the CPU goes on with its
task if there is none. -/
def consume (ro : Rodata) (env : Env m) (cpu : Cpu m) (prev : Option Int32) (w : World m) :
    World m :=
  let dsq := w.cpuToDsq cpu.toS32
  let own := dsq.2.scxBpfDsqMoveToLocal env cpu.toS32 dsq.1
  if own.1 then own.2
  else
    let shared := own.2.scxBpfDsqMoveToLocal env cpu.toS32 sharedDsq
    if shared.1 then shared.2
    else
      let sched := shared.2.scxBpfDsqMoveToLocal env cpu.toS32 schedDsq
      if sched.1 then sched.2
      else keepRunning ro cpu prev sched.2

theorem golandDispatch_eq (ro : Rodata) (env : Env m) (races : ℕ → Option (CpuMask m))
    (cpu : Cpu m) (prev : Option Int32) (w : World m) :
    golandDispatch ro env races cpu prev w =
      consume ro env cpu prev (beforeConsuming ro env races w) := rfl

/-- The log after the queues have been tried, up to the first that had a task. -/
theorem consume_cases (ro : Rodata) (env : Env m) (cpu : Cpu m) (prev : Option Int32)
    (w : World m) :
    let dsq := w.cpuToDsq cpu.toS32
    let own := (dsq.2.scxBpfDsqMoveToLocal env cpu.toS32 dsq.1).2
    let shared := (own.scxBpfDsqMoveToLocal env cpu.toS32 sharedDsq).2
    let sched := (shared.scxBpfDsqMoveToLocal env cpu.toS32 schedDsq).2
    (env.moveToLocal dsq.1 = true ∧ consume ro env cpu prev w = own) ∨
    (env.moveToLocal dsq.1 = false ∧ env.moveToLocal sharedDsq = true ∧
      consume ro env cpu prev w = shared) ∨
    (env.moveToLocal dsq.1 = false ∧ env.moveToLocal sharedDsq = false ∧
      env.moveToLocal schedDsq = true ∧ consume ro env cpu prev w = sched) ∨
    (env.moveToLocal dsq.1 = false ∧ env.moveToLocal sharedDsq = false ∧
      env.moveToLocal schedDsq = false ∧ consume ro env cpu prev w =
        keepRunning ro cpu prev sched) := by
  intro dsq own shared sched
  rw [consume]
  rcases hown : env.moveToLocal dsq.1 with _ | _
  · rcases hshared : env.moveToLocal sharedDsq with _ | _
    · rcases hsched : env.moveToLocal schedDsq with _ | _
      · refine Or.inr (Or.inr (Or.inr ⟨rfl, rfl, rfl, ?_⟩))
        simp only [World.scxBpfDsqMoveToLocal, hshared, hsched, dsq, hown, own, shared, sched]
        rfl
      · refine Or.inr (Or.inr (Or.inl ⟨rfl, rfl, rfl, ?_⟩))
        simp only [World.scxBpfDsqMoveToLocal, hshared, hsched, dsq, hown, own, shared, sched]
        rfl
    · refine Or.inr (Or.inl ⟨rfl, rfl, ?_⟩)
      simp only [World.scxBpfDsqMoveToLocal, hshared, dsq, hown, own, shared]
      rfl
  · refine Or.inl ⟨rfl, ?_⟩
    simp only [World.scxBpfDsqMoveToLocal, dsq, hown, own]
    rfl

/-- `goland_dispatch` touches nothing but the wake-up flag: that is set when no
queue had a task for the CPU and work is pending, and clear otherwise. -/
theorem golandDispatch_untouched (ro : Rodata) (env : Env m) (races : ℕ → Option (CpuMask m))
    (cpu : Cpu m) (prev : Option Int32) (w : World m) :
    Untouched { w with userschedNeeded :=
        !env.moveToLocal (w.cpuToDsq cpu.toS32).1 && !env.moveToLocal sharedDsq &&
          !env.moveToLocal schedDsq &&
          World.userschedHasPendingTasks w.bss.nrScheduled w.availData }
      (golandDispatch ro env races cpu prev w) := by
  have hbefore := (dispatching_beforeConsuming ro env races w).untouched
  have hown := (hbefore.trans (Untouched.cpuToDsq _ cpu.toS32)).trans
    (Untouched.moveToLocal _ env cpu.toS32
      ((beforeConsuming ro env races w).cpuToDsq cpu.toS32).1)
  have hshared := hown.trans (Untouched.moveToLocal _ env cpu.toS32 sharedDsq)
  have hsched := hshared.trans (Untouched.moveToLocal _ env cpu.toS32 schedDsq)
  rw [golandDispatch_eq, cpuToDsq_fst cpu.toS32 (beforeConsuming ro env races w) w]
  rcases consume_cases ro env cpu prev (beforeConsuming ro env races w) with
    ⟨h, heq⟩ | ⟨h, h', heq⟩ | ⟨h, h', h'', heq⟩ | ⟨h, h', h'', heq⟩
  · rw [heq, h]
    exact hown
  · rw [heq, h, h']
    exact hshared
  · rw [heq, h, h', h'']
    exact hsched
  · have hpending : World.userschedHasPendingTasks w.bss.nrScheduled w.availData = _ :=
      hsched.pending_eq.symm
    rw [heq, h, h', h'', hpending]
    rcases keepRunning_cases ro cpu prev _ with ⟨hwork, hkeep⟩ | ⟨hwork, hkeep⟩
    · rw [hkeep, hwork]
      exact (hsched.with_userschedNeeded true).trans (Untouched.emit _ _)
    · rw [hwork]
      exact hsched.trans hkeep

/-! ### The heartbeat timer -/

/-- The heartbeat finds that the scheduler has not run for too long, and that its
task is alive. -/
def heartbeatDue (ro : Rodata) (env : Env m) (w : World m) : Bool :=
  decide (userschedTimerNs ≤ ro.timeDelta env.now w.bss.userschedLastRunAt) &&
    (w.tasks.find ro.userschedPid.toInt32).isSome

theorem timer_untouched (ro : Rodata) (env : Env m) (armed : Bool) (w : World m) :
    Untouched { w with userschedNeeded := heartbeatDue ro env w || w.userschedNeeded }
      (userschedTimerFn ro env armed w) := by
  obtain ⟨w₁, hw₁, htrigger⟩ : ∃ w₁,
      (if userschedTimerNs ≤ ro.timeDelta env.now w.bss.userschedLastRunAt then
        triggerUsersched ro env w else w) = w₁ ∧
      Untouched { w with userschedNeeded := heartbeatDue ro env w || w.userschedNeeded } w₁ := by
    refine ⟨_, rfl, ?_⟩
    rw [heartbeatDue]
    split_ifs with hdue
    · rw [triggerUsersched]
      rcases w.tasks.find ro.userschedPid.toInt32 with _ | p
      · simp only [Option.isSome_none, Bool.and_false, Bool.false_or]
        exact Untouched.refl w
      · simp only [decide_eq_true hdue, Option.isSome_some, Bool.and_self, Bool.true_or]
        have hpick := (Searching.pickIdle ({ w with userschedNeeded := true } : World m) env
          p.cpusPtr false).untouched
        split_ifs
        · exact hpick
        · exact hpick.trans (Untouched.emit _ _)
    · simp only [decide_eq_false hdue, Bool.false_and, Bool.false_or]
      exact Untouched.refl w
  rw [userschedTimerFn, hw₁]
  split_ifs
  · exact htrigger
  · exact htrigger.trans (Untouched.emit _ _)

/-! ### Steps of the system -/

/-- The steps that make scheduling decisions or move records: of what the callbacks
never touch they change `@queued` and the wake-up flag at most. -/
def Label.isScheduling : Label m → Bool
  | .dequeue _ | .selectCpu _ _ _ _ | .enqueue _ _ _ | .cpuRelease _ | .dispatch _ _ _
  | .timer _ _ | .preempt _ | .rsSelectCpu _ _ _ | .push _ | .consume | .setIdle _ _ => true
  | _ => false

def Label.isDispatch : Label m → Bool
  | .dispatch _ _ _ => true
  | _ => false

/-- The step raises `usersched_needed`. -/
def Label.raises (ro : Rodata) (w : World m) : Label m → Bool
  | .timer env _ => heartbeatDue ro env w
  | .cpuRelease pid => (w.tasks.find pid).any (isBelongUserschedTask ro)
  | .dispatch env cpu _ =>
    !env.moveToLocal (w.cpuToDsq cpu.toS32).1 && !env.moveToLocal sharedDsq &&
      !env.moveToLocal schedDsq &&
      World.userschedHasPendingTasks w.bss.nrScheduled w.availData
  | _ => false

theorem step_untouched {ro : Rodata} {w w' : World m} {l : Label m} (hl : l.isScheduling = true)
    (h : step ro w l = some w') :
    ∃ queued needed, Untouched { w with queued := queued, userschedNeeded := needed } w' ∧
      needed = (l.raises ro w || (w.userschedNeeded && !l.isDispatch)) ∧
      ((∀ env pid enqFlags, l ≠ .enqueue env pid enqFlags) → l ≠ .consume → queued = w.queued) := by
  -- the flag after a step that neither raises nor clears it
  have hkept : w.userschedNeeded = (false || (w.userschedNeeded && !false)) :=
    (Bool.and_true _).symm
  cases l with
  | dequeue pid =>
    obtain ⟨p, -, rfl⟩ := Option.map_eq_some_iff.mp h
    exact ⟨w.queued, w.userschedNeeded, Untouched.emit w _, hkept, fun _ _ => rfl⟩
  | selectCpu env pid prevCpu wakeFlags =>
    obtain ⟨p, -, rfl⟩ := Option.map_eq_some_iff.mp h
    exact ⟨w.queued, w.userschedNeeded, untouched_golandSelectCpu ro env p w prevCpu wakeFlags,
      hkept, fun _ _ => rfl⟩
  | enqueue env pid enqFlags =>
    obtain ⟨p, -, rfl⟩ := Option.map_eq_some_iff.mp h
    have hq := (enqueueing_golandEnqueue ro env p enqFlags (w.emit (.enqueueCalled pid))).untouched
    exact ⟨_, w.userschedNeeded, (((Untouched.emit w _).with_queued _).trans hq).trans
      (Untouched.emit _ _), hkept, fun henq => absurd rfl (henq env pid enqFlags)⟩
  | cpuRelease pid =>
    obtain ⟨p, hp, rfl⟩ := Option.map_eq_some_iff.mp h
    rw [golandCpuRelease, Label.raises, hp, Option.any_some]
    by_cases hown : isBelongUserschedTask ro p = true
    · rw [if_pos hown, hown]
      exact ⟨w.queued, true, Untouched.refl _, rfl, fun _ _ => rfl⟩
    · rw [if_neg hown, Bool.eq_false_iff.mpr hown]
      exact ⟨w.queued, w.userschedNeeded, Untouched.refl w, hkept, fun _ _ => rfl⟩
  | dispatch env cpu prev =>
    obtain rfl := Option.some_inj.mp h
    refine ⟨w.queued, _, golandDispatch_untouched ro env _ cpu prev w, ?_, fun _ _ => rfl⟩
    rw [Label.isDispatch, Bool.not_true, Bool.and_false, Bool.or_false]
    rfl
  | timer env armed =>
    obtain rfl := Option.some_inj.mp h
    exact ⟨w.queued, _, timer_untouched ro env armed w,
      congrArg (heartbeatDue ro env w || ·) (Bool.and_true _).symm, fun _ _ => rfl⟩
  | preempt cpuId =>
    obtain rfl := Option.some_inj.mp h
    exact ⟨w.queued, w.userschedNeeded, Untouched.emit w _, hkept, fun _ _ => rfl⟩
  | rsSelectCpu env pid cpu =>
    obtain rfl := Option.some_inj.mp h
    refine ⟨w.queued, w.userschedNeeded, ?_, hkept, fun _ _ => rfl⟩
    rw [rsSelectCpu]
    split
    · exact Untouched.refl w
    · exact (Searching.pickIdleCpu ro env _ cpu w).untouched
  | push data =>
    obtain rfl := Option.some_inj.mp h
    exact ⟨w.queued, w.userschedNeeded, Untouched.of_fields w, hkept, fun _ _ => rfl⟩
  | consume =>
    obtain rfl := Option.some_inj.mp h
    exact ⟨w.queued.tail, w.userschedNeeded, Untouched.refl _, hkept,
      fun _ hcons => absurd rfl hcons⟩
  | setIdle idle idleSmt =>
    obtain rfl := Option.some_inj.mp h
    exact ⟨w.queued, w.userschedNeeded, Untouched.of_fields w, hkept, fun _ _ => rfl⟩
  | _ => exact absurd hl (by simp [Label.isScheduling])

/-- The remaining steps look after tasks, CPUs and counters.  They leave `@queued` and the
wake-up flag alone, and each of the rest is written by few of them. -/
structure Tended (l : Label m) (w w' : World m) : Prop where
  nrCpuIds : w'.nrCpuIds = w.nrCpuIds
  queued : w'.queued = w.queued
  queuedCap : w'.queuedCap = w.queuedCap
  userschedNeeded : w'.userschedNeeded = w.userschedNeeded
  cpuCtx : (∀ alloc lvlId cpuId siblingCpuId, l ≠ .siblingCpu alloc lvlId cpuId siblingCpuId) →
    w'.cpuCtx = w.cpuCtx
  bss : (∀ env pid, l ≠ .running env pid) → (∀ env pid, l ≠ .stopping env pid) →
    (∀ b, l ≠ .setCounters b) → w'.bss = w.bss

theorem Tended.of_map {l : Label m} {w w' : World m} {o : Option (TaskStruct m)}
    {f : TaskStruct m → World m} (h : o.map f = some w') (hf : ∀ p, Tended l w (f p)) :
    Tended l w w' := by
  obtain ⟨p, -, rfl⟩ := Option.map_eq_some_iff.mp h
  exact hf p

theorem step_tended {ro : Rodata} {w w' : World m} {l : Label m} (hl : ¬ l.isScheduling = true)
    (h : step ro w l = some w') : Tended l w w' := by
  cases l with
  | fork p =>
    rw [step] at h
    split_ifs at h
    obtain rfl := Option.some_inj.mp h
    exact ⟨rfl, rfl, rfl, rfl, fun _ => rfl, fun _ _ _ => rfl⟩
  | change p => exact .of_map h fun _ => ⟨rfl, rfl, rfl, rfl, fun _ => rfl, fun _ _ _ => rfl⟩
  | setAffinity pid mask =>
    exact .of_map h fun _ => ⟨rfl, rfl, rfl, rfl, fun _ => rfl, fun _ _ _ => rfl⟩
  | runnable pid =>
    refine .of_map h fun p => ?_
    rw [golandRunnable]
    split_ifs <;> exact ⟨rfl, rfl, rfl, rfl, fun _ => rfl, fun _ _ _ => rfl⟩
  | running env pid =>
    refine .of_map h fun p => ?_
    rw [golandRunning]
    split_ifs <;>
      exact ⟨rfl, rfl, rfl, rfl, fun _ => rfl, fun hrun _ _ => absurd rfl (hrun env pid)⟩
  | stopping env pid =>
    refine .of_map h fun p => ?_
    rw [golandStopping]
    split_ifs <;>
      exact ⟨rfl, rfl, rfl, rfl, fun _ => rfl, fun _ hstop _ => absurd rfl (hstop env pid)⟩
  | enable pid => exact .of_map h fun _ => ⟨rfl, rfl, rfl, rfl, fun _ => rfl, fun _ _ _ => rfl⟩
  | initTask allocs pid =>
    refine .of_map h fun p => ?_
    rw [golandInitTask]
    split
    · exact ⟨rfl, rfl, rfl, rfl, fun _ => rfl, fun _ _ _ => rfl⟩
    · dsimp only
      split_ifs <;> exact ⟨rfl, rfl, rfl, rfl, fun _ => rfl, fun _ _ _ => rfl⟩
  | exitTask pid => exact .of_map h fun p => ⟨rfl, rfl, rfl, rfl, fun _ => rfl, fun _ _ _ => rfl⟩
  | siblingCpu alloc lvlId cpuId siblingCpuId =>
    obtain rfl := Option.some_inj.mp h
    rw [enableSiblingCpu]
    dsimp only
    split_ifs
    · split <;> exact ⟨rfl, rfl, rfl, rfl, fun hne => absurd rfl (hne _ _ _ _), fun _ _ _ => rfl⟩
    · split <;> exact ⟨rfl, rfl, rfl, rfl, fun hne => absurd rfl (hne _ _ _ _), fun _ _ _ => rfl⟩
    · exact ⟨rfl, rfl, rfl, rfl, fun hne => absurd rfl (hne _ _ _ _), fun _ _ _ => rfl⟩
    · exact ⟨rfl, rfl, rfl, rfl, fun hne => absurd rfl (hne _ _ _ _), fun _ _ _ => rfl⟩
  | setCounters b =>
    obtain rfl := Option.some_inj.mp h
    exact ⟨rfl, rfl, rfl, rfl, fun _ => rfl, fun _ _ hset => absurd rfl (hset b)⟩
  | setDsqs dsqs =>
    obtain rfl := Option.some_inj.mp h
    exact ⟨rfl, rfl, rfl, rfl, fun _ => rfl, fun _ _ _ => rfl⟩
  | _ => exact absurd rfl hl

end ScxGoland
