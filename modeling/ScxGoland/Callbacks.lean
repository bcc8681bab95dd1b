/-
The other callbacks of the scheduler, its timer and the programs that user
space runs with `BPF_PROG_TEST_RUN`.

None of them inserts a task or touches `@queued`.  `goland_exit_task` takes a
pid out of `priority_tasks`; all the others are `Calm`.

* `Calm w w'` — the same tasks are alive, `priority_tasks` and the dispatch
  buffer are as before, and the new events are quiet ones.
-/
import ScxGoland.IdleCpu

namespace ScxGoland

variable {m : Machine}

def userschedTimerNs : Int64 := 100000000

/-! ### Callbacks of `struct sched_ext_ops` -/

def golandRunnable (ro : Rodata) (p : TaskStruct m) (w : World m) : World m :=
  if isUserschedTask ro p then w
  else w.updTaskCtx p.pid fun t => { t with execRuntime := 0 }

def golandRunning (ro : Rodata) (env : Env m) (p : TaskStruct m) (w : World m) : World m :=
  if isUserschedTask ro p then w.updBss fun b => { b with userschedLastRunAt := env.now }
  else
    let w := { w with runningTask := w.runningTask.update p.cpu.toS32 p.pid.toUInt32 }
    let w := w.updBss fun b => { b with nrRunning := b.nrRunning + 1 }
    w.updTaskCtx p.pid fun t => { t with startTs := env.now }

def golandStopping (ro : Rodata) (env : Env m) (p : TaskStruct m) (w : World m) : World m :=
  if isUserschedTask ro p then w
  else
    let w := w.updBss fun b => { b with nrRunning := b.nrRunning - 1 }
    w.updTaskCtx p.pid fun t =>
      { t with stopTs := env.now, execRuntime := t.execRuntime + (env.now - t.startTs) }

def golandCpuRelease (ro : Rodata) (p : TaskStruct m) (w : World m) : World m :=
  if isBelongUserschedTask ro p then { w with userschedNeeded := true } else w

def golandEnable (p : TaskStruct m) (w : World m) : World m :=
  { w with tasks := w.tasks.setSlice p.pid (fun _ => scxSliceDfl) (fun _ => 0) }

/-- Which of the allocations of `goland_init_task` succeed. -/
structure Allocs where
  storage : Bool
  l2 : Bool
  l3 : Bool

/-- `goland_init_task`: an allocation that fails leaves the earlier ones in
place. -/
def golandInitTask (allocs : Allocs) (p : TaskStruct m) (w : World m) : Int32 × World m :=
  -- `BPF_LOCAL_STORAGE_GET_F_CREATE` finds the context or creates a zeroed one
  match w.taskCtx p.pid <|> (if allocs.storage then some ⟨none, none, 0, 0, 0⟩ else none) with
  | none => (-eNOMEM, w)
  | some tctx =>
    let store := fun t => { w with taskCtx := Function.update w.taskCtx p.pid (some t) }
    if allocs.l2 = false then (-eNOMEM, store tctx)
    else
      let tctx := { tctx with l2Cpumask := some ∅ }
      if allocs.l3 = false then (-eNOMEM, store tctx)
      else (0, store { tctx with l3Cpumask := some ∅ })

/-- `goland_exit_task`: the pid leaves `priority_tasks`. -/
def golandExitTask (p : TaskStruct m) (w : World m) : World m :=
  w.updatePriorityTaskMap p.pid.toUInt32 1 0

/-! ### The heartbeat timer -/

/-- Wake the user-space scheduler, and an idle CPU for it to run on. -/
def triggerUsersched (ro : Rodata) (env : Env m) (w : World m) : World m :=
  match w.tasks.find ro.userschedPid.toInt32 with
  | none => w
  | some p =>
    let w : World m := { w with userschedNeeded := true }
    let picked := w.scxBpfPickIdleCpu env p.cpusPtr false
    if picked.1 < 0 then picked.2 else picked.2.scxBpfKickCpu picked.1 .idle

/-- `usersched_timer_fn`; `armed` is whether `bpf_timer_start` succeeds. -/
def userschedTimerFn (ro : Rodata) (env : Env m) (armed : Bool) (w : World m) : World m :=
  let w := if userschedTimerNs ≤ ro.timeDelta env.now w.bss.userschedLastRunAt then
    triggerUsersched ro env w else w
  if armed then w else w.scxBpfError "Failed to arm stats timer"

/-! ### Programs of type `syscall` -/

def doPreempt (cpuId : Int32) (w : World m) : Int32 × World m :=
  (0, w.scxBpfKickCpu cpuId .preempt)

def rsSelectCpu (ro : Rodata) (env : Env m) (pid cpu : Int32) (w : World m) : Int32 × World m :=
  match w.tasks.find pid with
  | none => (-eINVAL, w)
  | some p => pickIdleCpu ro env p cpu w

/-- `bpf_cpumask_set_cpu`: a number that is no possible CPU is ignored. -/
def bpfCpumaskSetCpu (cpu : Int32) (mask : CpuMask m) : CpuMask m :=
  if h : cpu.toUInt32.toNat < m.nrCpuIds then insert ⟨cpu.toUInt32.toNat, h⟩ mask else mask

/-- `init_cpumask`: an empty mask is allocated on first use. -/
def initCpumask (alloc : Bool) (mask : Option (CpuMask m)) : Option (CpuMask m) :=
  mask <|> (if alloc then some ∅ else none)

/-- `enable_sibling_cpu`; `alloc` is whether a missing mask can be allocated. -/
def enableSiblingCpu (alloc : Bool) (lvlId cpuId siblingCpuId : Int32) (w : World m) :
    Int32 × World m :=
  if h : cpuId.toUInt32.toNat < m.nrCpuIds then
    let cctx := w.cpuCtx ⟨cpuId.toUInt32.toNat, h⟩
    let store := fun c => { w with
      cpuCtx := Function.update w.cpuCtx ⟨cpuId.toUInt32.toNat, h⟩ c }
    if lvlId = 2 then
      match initCpumask alloc cctx.l2Cpumask with
      | none => (-eNOMEM, w)
      | some mask => (0, store { cctx with l2Cpumask := some (bpfCpumaskSetCpu siblingCpuId mask) })
    else if lvlId = 3 then
      match initCpumask alloc cctx.l3Cpumask with
      | none => (-eNOMEM, w)
      | some mask => (0, store { cctx with l3Cpumask := some (bpfCpumaskSetCpu siblingCpuId mask) })
    else (-eINVAL, w)
  else (-eNOENT, w)

/-! ### Calm changes -/

/-- The same tasks are alive, `priority_tasks` and the dispatch buffer are as
before, and the new events are quiet ones. -/
structure Calm (w w' : World m) : Prop where
  live : ∀ q, (w'.tasks.find q).isSome = (w.tasks.find q).isSome
  priorityTasks : w'.priorityTasks = w.priorityTasks
  buf : w'.buf = w.buf
  log : ∃ es, w'.log = es ++ w.log ∧ ∀ e ∈ es, e.quiet = true

theorem Calm.of_quiet {w w' : World m} (h : Quiet w w') : Calm w w' :=
  ⟨fun q => by rw [h.tasks], h.priorityTasks, h.buf, h.log⟩

/-- A change of fields that no part of `Calm` looks at. -/
theorem Calm.of_eq {w w' : World m} (htasks : w'.tasks = w.tasks)
    (hprio : w'.priorityTasks = w.priorityTasks) (hbuf : w'.buf = w.buf)
    (hlog : w'.log = w.log) : Calm w w' :=
  ⟨fun q => by rw [htasks], hprio, hbuf, [], hlog, by simp⟩

theorem Calm.trans {w₁ w₂ w₃ : World m} (h : Calm w₁ w₂) (h' : Calm w₂ w₃) : Calm w₁ w₃ := by
  obtain ⟨es, hes, hq⟩ := h.log
  obtain ⟨es', hes', hq'⟩ := h'.log
  refine ⟨fun q => (h'.live q).trans (h.live q), h'.priorityTasks.trans h.priorityTasks,
    h'.buf.trans h.buf, es' ++ es, ?_, ?_⟩
  · rw [hes', hes, List.append_assoc]
  · intro e he
    rcases List.mem_append.mp he with he | he
    · exact hq' e he
    · exact hq e he

section Calm

variable (ro : Rodata) (env : Env m) (p : TaskStruct m) (w : World m)

theorem calm_runnable : Calm w (golandRunnable ro p w) := by
  rw [golandRunnable]
  split_ifs
  · exact Calm.of_quiet (Quiet.refl w)
  · exact Calm.of_eq rfl rfl rfl rfl

theorem calm_running : Calm w (golandRunning ro env p w) := by
  rw [golandRunning]
  split_ifs
  · exact Calm.of_eq rfl rfl rfl rfl
  · exact Calm.of_eq rfl rfl rfl rfl

theorem calm_stopping : Calm w (golandStopping ro env p w) := by
  rw [golandStopping]
  split_ifs
  · exact Calm.of_quiet (Quiet.refl w)
  · exact Calm.of_eq rfl rfl rfl rfl

theorem calm_cpuRelease : Calm w (golandCpuRelease ro p w) := by
  rw [golandCpuRelease]
  split_ifs
  · exact Calm.of_eq rfl rfl rfl rfl
  · exact Calm.of_quiet (Quiet.refl w)

theorem calm_enable : Calm w (golandEnable p w) :=
  ⟨fun q => TaskTable.isSome_find_setSlice _ _ _ _ _, rfl, rfl, [], rfl, by simp⟩

theorem calm_initTask (allocs : Allocs) : Calm w (golandInitTask allocs p w).2 := by
  rw [golandInitTask]
  split
  · exact Calm.of_quiet (Quiet.refl w)
  · dsimp only
    split_ifs
    · exact Calm.of_eq rfl rfl rfl rfl
    · exact Calm.of_eq rfl rfl rfl rfl
    · exact Calm.of_eq rfl rfl rfl rfl

theorem calm_triggerUsersched : Calm w (triggerUsersched ro env w) := by
  rw [triggerUsersched]
  split
  · exact Calm.of_quiet (Quiet.refl w)
  · rename_i p _
    have hneeded : Calm w { w with userschedNeeded := true } := Calm.of_eq rfl rfl rfl rfl
    have hpick := Quiet.pickIdle { w with userschedNeeded := true } env p.cpusPtr false
    dsimp only
    split_ifs
    · exact hneeded.trans (Calm.of_quiet hpick)
    · exact hneeded.trans (Calm.of_quiet (hpick.trans (Quiet.kick _ _ _)))

theorem calm_timer (armed : Bool) : Calm w (userschedTimerFn ro env armed w) := by
  have htrigger := calm_triggerUsersched ro env w
  have harm : ∀ w' : World m, Calm w' (w'.scxBpfError "Failed to arm stats timer") :=
    fun w' => Calm.of_quiet (Quiet.emit w' rfl)
  rw [userschedTimerFn]
  split_ifs
  · exact htrigger
  · exact Calm.of_quiet (Quiet.refl w)
  · exact htrigger.trans (harm _)
  · exact harm w

theorem calm_doPreempt (cpuId : Int32) : Calm w (doPreempt cpuId w).2 :=
  Calm.of_quiet (Quiet.kick w cpuId .preempt)

theorem calm_rsSelectCpu (pid cpu : Int32) : Calm w (rsSelectCpu ro env pid cpu w).2 := by
  rw [rsSelectCpu]
  split
  · exact Calm.of_quiet (Quiet.refl w)
  · exact Calm.of_quiet (quiet_pickIdleCpu _ _ _ _ _)

theorem calm_enableSiblingCpu (alloc : Bool) (lvlId cpuId siblingCpuId : Int32) :
    Calm w (enableSiblingCpu alloc lvlId cpuId siblingCpuId w).2 := by
  rw [enableSiblingCpu]
  dsimp only
  split_ifs
  · split
    · exact Calm.of_quiet (Quiet.refl w)
    · exact Calm.of_eq rfl rfl rfl rfl
  · split
    · exact Calm.of_quiet (Quiet.refl w)
    · exact Calm.of_eq rfl rfl rfl rfl
  · exact Calm.of_quiet (Quiet.refl w)
  · exact Calm.of_quiet (Quiet.refl w)

end Calm

end ScxGoland
