/-
Work comes with a kick.

An idle CPU sleeps until somebody kicks it.  When `goland_enqueue` or
`dispatch_task` makes a task ready to run, one of them sends a `SCX_KICK_IDLE` to a CPU
that the task may use, idle or busy; `kick_task_cpu` looks for an idle one if the task
may not use the CPU it is called with.  A dispatch that is cancelled, since the affinity
of its task has changed, kicks nobody.

* `Onward w w'` — events are appended, and no CPU becomes idle;
* `golandEnqueue_kicked`, `dispatchTask_kicked` — the two callers;
* `work_kicks_cpu` — a task made ready by any step, but for cancelled dispatches, comes
  with a kick of one of its CPUs, unless none of them is idle.
-/
import ScxGoland.Placement
import ScxGoland.Transport

namespace ScxGoland

variable {m : Machine}

/-! ### Idle CPUs are claimed, never released -/

/-- Events are appended, and no CPU becomes idle. -/
structure Onward (w w' : World m) : Prop where
  log : Emits (fun _ => True) w w'
  idle : w'.idle ⊆ w.idle

namespace Onward

theorem refl (w : World m) : Onward w w := ⟨Emits.of_log rfl, Finset.Subset.refl _⟩

theorem trans {w₁ w₂ w₃ : World m} (h : Onward w₁ w₂) (h' : Onward w₂ w₃) : Onward w₁ w₃ :=
  ⟨h.log.trans h'.log, h'.idle.trans h.idle⟩

theorem of_eq {w w' : World m} (hlog : w'.log = w.log) (hidle : w'.idle = w.idle) : Onward w w' :=
  ⟨Emits.of_log hlog, hidle.subset⟩

theorem one {w w' : World m} {e : Event} (hlog : w'.log = e :: w.log) (hidle : w'.idle = w.idle) :
    Onward w w' := ⟨⟨[e], hlog, fun _ _ => trivial⟩, hidle.subset⟩

theorem insert (w : World m) (ctx : OpsCtx) (i : Insertion) : Onward w (w.insert ctx i) := by
  cases ctx with
  | direct => exact one rfl rfl
  | dispatch =>
    rw [World.insert.eq_def]
    dsimp only
    split_ifs <;> exact one rfl rfl

theorem claim (w : World m) (c : Cpu m) : Onward w (w.claim c) :=
  ⟨Emits.emit _ trivial, Finset.erase_subset c w.idle⟩

theorem cpuToDsq (w : World m) (cpu : Int32) : Onward w (w.cpuToDsq cpu).2 := by
  rw [World.cpuToDsq]
  split_ifs
  · exact one rfl rfl
  · exact refl w

theorem updatePriorityTaskMap (w : World m) (pid : UInt32) (vtime slice : UInt64) :
    Onward w (w.updatePriorityTaskMap pid vtime slice) := by
  rw [World.updatePriorityTaskMap]
  split_ifs <;> exact of_eq rfl rfl

theorem scxBpfDispatchCancel (w : World m) : Onward w w.scxBpfDispatchCancel := by
  rw [World.scxBpfDispatchCancel]
  split <;> exact one rfl rfl

theorem moveToLocal (w : World m) (env : Env m) (cpu : Int32) (dsq : UInt64) :
    Onward w (w.scxBpfDsqMoveToLocal env cpu dsq).2 := one rfl rfl

end Onward

theorem Searching.onward {w w' : World m} (h : Searching w w') : Onward w w' := by
  refine effects_rule Onward.refl Onward.trans (fun heffect => ?_) h
  cases heffect with
  | claim c => exact Onward.claim _ c
  | kick cpu => exact Onward.one rfl rfl
  | scratch hscratch =>
    obtain ⟨ctx, rfl, -⟩ := hscratch
    exact Onward.of_eq rfl rfl
  | error msg => exact Onward.one rfl rfl

theorem Dispatching.onward {w w' : World m} (h : Dispatching w w') : Onward w w' := by
  refine effects_rule Onward.refl Onward.trans (fun heffect => ?_) h
  cases heffect with
  | search hsearch => exact (Searching.one hsearch).onward
  | insert i => exact Onward.insert _ _ i
  | error msg => exact Onward.one rfl rfl
  | count hf => exact Onward.of_eq rfl rfl
  | priority pid vtime slice => exact Onward.updatePriorityTaskMap _ pid vtime slice
  | cancel => exact Onward.scxBpfDispatchCancel _
  | ring dispatched => exact Onward.of_eq rfl rfl

theorem onward_keepRunning (ro : Rodata) (cpu : Cpu m) (prev : Option Int32) (w : World m) :
    Onward w (keepRunning ro cpu prev w) := by
  rw [keepRunning]
  split_ifs
  · exact Onward.one rfl rfl
  · split
    · exact Onward.refl w
    · split_ifs <;> exact Onward.of_eq rfl rfl

theorem onward_consume (ro : Rodata) (env : Env m) (cpu : Cpu m) (prev : Option Int32)
    (w : World m) : Onward w (consume ro env cpu prev w) := by
  have hown := (Onward.cpuToDsq w cpu.toS32).trans
    (Onward.moveToLocal _ env cpu.toS32 (w.cpuToDsq cpu.toS32).1)
  have hshared := hown.trans (Onward.moveToLocal _ env cpu.toS32 sharedDsq)
  have hsched := hshared.trans (Onward.moveToLocal _ env cpu.toS32 schedDsq)
  rcases consume_cases ro env cpu prev w with
    ⟨-, heq⟩ | ⟨-, -, heq⟩ | ⟨-, -, -, heq⟩ | ⟨-, -, -, heq⟩
  · rw [heq]
    exact hown
  · rw [heq]
    exact hshared
  · rw [heq]
    exact hsched
  · rw [heq]
    exact hsched.trans (onward_keepRunning ro cpu prev _)

/-! ### The CPU that is kicked -/

/-- Between `w` and `w'` one of the CPUs in `mask` is kicked, unless none of them is
idle in `w'`. -/
def Kicked (mask : CpuMask m) (w w' : World m) : Prop :=
  (∃ cpu, bpfCpumaskTestCpu cpu mask = true ∧ .kicked cpu .idle ∈ newEvents w w') ∨
    mask ∩ w'.idle = ∅

namespace Kicked

variable {mask : CpuMask m} {w₁ w₂ w₃ : World m}

theorem kick {cpu : Int32} (w : World m) (hcpu : bpfCpumaskTestCpu cpu mask = true) :
    Kicked mask w (w.scxBpfKickCpu cpu .idle) := by
  have hlog : (w.scxBpfKickCpu cpu .idle).log = [.kicked cpu .idle] ++ w.log := rfl
  exact Or.inl ⟨cpu, hcpu, by rw [newEvents_eq hlog]; exact List.mem_singleton_self _⟩

/-- Events before and after do not matter, and idle CPUs may be claimed after. -/
theorem mono {w₀ : World m} (h₀ : Emits (fun _ => True) w₀ w₁) (h₁ : Emits (fun _ => True) w₁ w₂)
    (h : Kicked mask w₁ w₂) (h₂ : Onward w₂ w₃) : Kicked mask w₀ w₃ := by
  obtain ⟨es₀, hes₀, -⟩ := h₀
  obtain ⟨es₁, hes₁, -⟩ := h₁
  obtain ⟨es₂, hes₂, -⟩ := h₂.log
  rcases h with ⟨cpu, hcpu, hmem⟩ | hnone
  · have hlog : w₃.log = (es₂ ++ es₁ ++ es₀) ++ w₀.log := by
      rw [hes₂, hes₁, hes₀, List.append_assoc, List.append_assoc]
    rw [newEvents_eq hes₁] at hmem
    refine Or.inl ⟨cpu, hcpu, ?_⟩
    rw [newEvents_eq hlog]
    exact List.mem_append_left _ (List.mem_append_right _ hmem)
  · refine Or.inr (Finset.subset_empty.mp ?_)
    rw [← hnone]
    exact Finset.inter_subset_inter_left h₂.idle

theorem after (h₀ : Emits (fun _ => True) w₁ w₂) (h : Emits (fun _ => True) w₂ w₃)
    (h' : Kicked mask w₂ w₃) : Kicked mask w₁ w₃ := h'.mono h₀ h (Onward.refl w₃)

theorem then_kick {cpu : Int32} (h : Emits (fun _ => True) w₁ w₂)
    (hcpu : bpfCpumaskTestCpu cpu mask = true) : Kicked mask w₁ (w₂.scxBpfKickCpu cpu .idle) :=
  after h (Emits.emit w₂ trivial) (kick w₂ hcpu)

theorem before (h : Onward w₁ w₂) (h' : Kicked mask w₁ w₂) (h₂ : Onward w₂ w₃) :
    Kicked mask w₁ w₃ := h'.mono (Emits.of_log rfl) h.log h₂

end Kicked

/-- `kick_task_cpu` kicks a CPU of the task, or finds none of them idle. -/
theorem kickTaskCpu_kicked (env : Env m) (p : TaskStruct m) (cpu : Int32) (w : World m) :
    Kicked p.cpusPtr w (kickTaskCpu env p cpu w) := by
  rcases kickTaskCpu_cases env p cpu w with ⟨h, hcpu | hnone⟩ | ⟨c, hmem, h⟩
  · rw [h]
    exact Kicked.kick w hcpu
  · rw [h]
    exact Or.inr hnone
  · have hcpu : bpfCpumaskTestCpu c.toS32 p.cpusPtr = true := by
      rw [testCpu_toS32]
      exact decide_eq_true hmem
    have hfirst : Emits (fun _ => True) w ((w.scxBpfKickCpu cpu .idle).claim c) :=
      (Emits.emit w trivial).trans (Emits.emit _ trivial)
    rw [h]
    exact Kicked.then_kick hfirst hcpu

theorem Kicked.then_kickTaskCpu {env : Env m} {p : TaskStruct m} {cpu : Int32} {w₁ w₂ : World m}
    (h : Emits (fun _ => True) w₁ w₂) : Kicked p.cpusPtr w₁ (kickTaskCpu env p cpu w₂) :=
  Kicked.after h (Searching.kickTaskCpu env p cpu w₂).onward.log (kickTaskCpu_kicked env p cpu w₂)

/-! ### `goland_enqueue` -/

/-- The tasks for which `goland_enqueue` kicks a CPU: not the scheduler's task, which
`goland_dispatch` looks after, and not the kernel threads that it inserts itself. -/
def kicksCpu (ro : Rodata) (p : TaskStruct m) : Bool :=
  !isUserschedTask ro p && (isBelongUserschedTask ro p || !isKernelTask ro p)

section Enqueue

variable (ro : Rodata) (env : Env m) (p : TaskStruct m) (enqFlags : UInt64) (w : World m)

theorem enqueueDirect_cpu (h : (enqueueDirect ro env p enqFlags w).dispatched = true) :
    bpfCpumaskTestCpu (enqueueDirect ro env p enqFlags w).cpu p.cpusPtr = true := by
  rw [enqueueDirect] at h ⊢
  split_ifs at h ⊢
  rw [tryDirectDispatch] at h ⊢
  dsimp only at h ⊢
  split_ifs at h ⊢ with _ _ hmask
  exact Bool.not_eq_false _ ▸ hmask

theorem enqueueToUser_kicked (cpu : Int32) :
    Kicked p.cpusPtr w (enqueueToUser env p enqFlags cpu w) := by
  refine Kicked.then_kickTaskCpu ?_
  split_ifs
  · exact ⟨[_], rfl, fun _ _ => trivial⟩
  · exact ⟨[_], rfl, fun _ _ => trivial⟩

theorem golandEnqueue_kicked (hp : kicksCpu ro p = true) :
    Kicked p.cpusPtr w (golandEnqueue ro env p enqFlags w) := by
  rw [kicksCpu, Bool.and_eq_true, Bool.not_eq_true', Bool.or_eq_true, Bool.not_eq_true'] at hp
  obtain ⟨hsched, hkernel⟩ := hp
  have hdirect : Enqueueing false p enqFlags w _ := enqueueing_enqueueDirect ro env p enqFlags w
  rw [golandEnqueue]
  dsimp only
  split_ifs with husched hbelong hkthread hreclaim hdisp
  · exact absurd husched (by simp [hsched])
  · exact Kicked.then_kickTaskCpu (Onward.insert w _ _).log
  · exact absurd (hkernel.resolve_left hbelong) (by simp [isKernelTask, hkthread])
  · refine absurd (hkernel.resolve_left hbelong) ?_
    rcases hreclaim with hreclaim | hreclaim
    · simp [isKernelTask, hreclaim]
    · simp [isKernelTask, hreclaim]
  · exact Kicked.then_kick hdirect.appends (enqueueDirect_cpu ro env p enqFlags w hdisp)
  · have hprio := hdirect.trans (enqueueing_insertPriority env p enqFlags _)
    have huser (cpu w) : Enqueueing false p enqFlags w (enqueueToUser env p enqFlags cpu w) :=
      enqueueing_enqueueToUser env p enqFlags cpu w
    exact Kicked.after hprio.appends (huser _ _).appends (enqueueToUser_kicked env p enqFlags _ _)

end Enqueue

/-! ### `dispatch_task` -/

/-- The record names a CPU in the affinity `mask` of its task, but the affinity changes
before the second test: the dispatch is cancelled. -/
def cancels (mask : CpuMask m) (task : DispatchedTaskCtx) (race : Option (CpuMask m)) : Bool :=
  decide (task.cpu ≠ rlCpuAny) && bpfCpumaskTestCpu task.cpu mask &&
    !bpfCpumaskTestCpu task.cpu (race.getD mask)

theorem dispatchTask_kicked {env : Env m} {task : DispatchedTaskCtx} {race : Option (CpuMask m)}
    {w : World m} {p : TaskStruct m} (hp : w.tasks.find task.pid = some p)
    (hkept : cancels p.cpusPtr task race = false) :
    Kicked p.cpusPtr w (dispatchTask env race task w) := by
  have hins := Onward.insert w .dispatch
    ⟨p.pid, .user sharedDsq, task.sliceNs, some task.vtime, task.flags⟩
  have hmap := ((dispatching_insertByVtime p task w).andThen
    (.priority _ task.pid.toUInt32 task.vtime task.sliceNs)).onward
  rw [dispatchTask, hp]
  dsimp only
  split_ifs with hany hbounce hrace
  · exact Kicked.then_kickTaskCpu hins.log
  · exact Kicked.then_kickTaskCpu (hins.trans (Onward.of_eq rfl rfl)).log
  · exact absurd hkept (by simp [cancels, hany, hbounce, hrace])
  · have hcpu : bpfCpumaskTestCpu task.cpu p.cpusPtr = true := by simpa using hbounce
    exact Kicked.then_kick hmap.log hcpu

/-- A task is found with the same affinity all through a drain. -/
theorem cpusPtr_of_untouched {w w' : World m} (h : Untouched w w') {pid : Int32}
    {p : TaskStruct m} (hp : w.tasks.find pid = some p) :
    ∃ p', w'.tasks.find pid = some p' ∧ p'.cpusPtr = p.cpusPtr := by
  have htasks := h.tasks pid
  rw [hp, Option.map_some, Option.map_eq_some_iff] at htasks
  obtain ⟨p', hp', heq⟩ := htasks
  exact ⟨p', hp', by simpa [TaskStruct.unsliced] using congrArg TaskStruct.cpusPtr heq⟩

/-- The task for which a call of the drain has to kick a CPU: that of its record, unless
the dispatch is cancelled. -/
def readiedByCall (w : World m) (c : Sample m × World m) : Option (TaskStruct m) :=
  (dynptrData c.1.data).bind fun task =>
    (w.tasks.find task.pid).filter fun p => !cancels p.cpusPtr task c.1.race

theorem readiedByCall_eq_some {w : World m} {c : Sample m × World m} {p : TaskStruct m} :
    readiedByCall w c = some p ↔ ∃ task, dynptrData c.1.data = some task ∧
      w.tasks.find task.pid = some p ∧ cancels p.cpusPtr task c.1.race = false := by
  simp only [readiedByCall, Option.bind_eq_some_iff, Option.filter_eq_some_iff, Bool.not_eq_true']

theorem drain_kicked (env : Env m) (samples : List (Sample m)) (w : World m)
    {c : Sample m × World m} {p : TaskStruct m} (hp : readiedByCall w c = some p)
    (hc : c ∈ (bpfUserRingbufDrain (handleDispatchedTask env) samples w).calls) :
    Kicked p.cpusPtr w (bpfUserRingbufDrain (handleDispatchedTask env) samples w).world := by
  induction samples generalizing w p with
  | nil => exact absurd hc (by simp [bpfUserRingbufDrain])
  | cons s rest ih =>
    have hcall := dispatching_handleDispatchedTask env s w
    obtain ⟨task, hdata, hfind, hkept⟩ := readiedByCall_eq_some.mp hp
    -- the sample handled first
    have hfirst : c.1 = s → Kicked p.cpusPtr w (handleDispatchedTask env s w).2 := by
      rintro rfl
      rw [handleDispatchedTask, hdata]
      exact dispatchTask_kicked hfind hkept
    rw [bpfUserRingbufDrain] at hc ⊢
    dsimp only at hc ⊢
    split_ifs at hc ⊢ with hgo
    · rcases List.mem_cons.mp hc with rfl | hc
      · exact Kicked.before hcall.onward (hfirst rfl) (dispatching_drain env rest _).onward
      · obtain ⟨p', hp', hmask⟩ := cpusPtr_of_untouched hcall.untouched hfind
        rw [← hmask] at hkept ⊢
        exact Kicked.after hcall.onward.log (dispatching_drain env rest _).onward.log
          (ih _ (readiedByCall_eq_some.mpr ⟨task, hdata, hp', hkept⟩) hc)
    · obtain rfl := List.mem_singleton.mp hc
      exact hfirst rfl

/-! ### Every step -/

/-- The tasks that a step makes ready to run: the one enqueued, if `goland_enqueue`
kicks a CPU for it, and those of the records handed to `dispatch_task` whose dispatch is
not cancelled. -/
def readiedBy (ro : Rodata) (w : World m) :
    Label m × (ℕ → Option (CpuMask m)) → List (TaskStruct m)
  | (.enqueue _ pid _, _) => (w.tasks.find pid).toList.filter (kicksCpu ro)
  | (.dispatch env _ _, races) => (golandDrain ro env races w).calls.filterMap (readiedByCall w)
  | _ => []

theorem golandDispatch_kicked {ro : Rodata} {env : Env m} {races : ℕ → Option (CpuMask m)}
    {cpu : Cpu m} {prev : Option Int32} {w : World m} {p : TaskStruct m}
    (hp : p ∈ readiedBy ro w (.dispatch env cpu prev, races)) :
    Kicked p.cpusPtr w (golandDispatch ro env races cpu prev w) := by
  obtain ⟨c, hc, hready⟩ := List.mem_filterMap.mp hp
  obtain ⟨task, hdata, hfind, hkept⟩ := readiedByCall_eq_some.mp hready
  have hfirst := dispatching_takeWakeup ro w
  have hclear : Onward w { w with userschedNeeded := false } := Onward.of_eq rfl rfl
  obtain ⟨p', hp', hmask⟩ := cpusPtr_of_untouched hfirst.untouched hfind
  rw [← hmask] at hkept
  have hdrain := drain_kicked env _ (takeWakeup ro w)
    (readiedByCall_eq_some.mpr ⟨task, hdata, hp', hkept⟩) hc
  have hring : Dispatching (golandDrain ro env races w).world (beforeConsuming ro env races w) :=
    Dispatching.one (.ring _ _)
  rw [golandDispatch_eq, ← hmask]
  exact hdrain.mono (hclear.trans hfirst.onward).log (dispatching_drain env _ _).onward.log
    (hring.onward.trans (onward_consume ro env cpu prev _))

/-- **Work comes with a kick.**  When a step enqueues a task, other than the scheduler's own
or a kernel thread that `goland_enqueue` inserts itself, or hands a record of a live task
to `dispatch_task`, then in the same step a `SCX_KICK_IDLE` is sent to one of the CPUs that
this task may use, unless none of them is idle when the step ends; also when affinities
change inside `dispatch_task`, but for the records whose dispatch is cancelled for this. -/
theorem work_kicks_cpu (ro : Rodata) (w w' : World m)
    (l : Label m × (ℕ → Option (CpuMask m))) (h : stepRacing ro w l = some w') :
    ∀ p ∈ readiedBy ro w l, Kicked p.cpusPtr w w' := by
  intro p hp
  obtain ⟨l, races⟩ := l
  cases l with
  | enqueue env pid enqFlags =>
    obtain ⟨hfind, hkicks⟩ := List.mem_filter.mp hp
    obtain ⟨q, hq, rfl⟩ := Option.map_eq_some_iff.mp h
    obtain rfl : q = p := by
      rw [hq, Option.toList_some, List.mem_singleton] at hfind
      exact hfind.symm
    refine (golandEnqueue_kicked ro env q enqFlags _ hkicks).mono (Emits.emit w trivial) ?_
      (Onward.one rfl rfl)
    exact (enqueueing_golandEnqueue ro env q enqFlags _).appends
  | dispatch env cpu prev =>
    obtain rfl := Option.some_inj.mp h
    exact golandDispatch_kicked hp
  | _ => exact absurd hp (by simp [readiedBy])

/-- Task 7 may only use CPU 1, which is idle, but last ran on CPU 0. -/
def movedTask : TaskStruct twoCpus := { plainTask 7 with cpusPtr := {cpu1}, nrCpusAllowed := 1 }

/-- Its enqueue kicks CPU 1. -/
theorem work_kicks_cpu_moved_task :
    let w : World twoCpus := { startedWorld ((TaskTable.empty twoCpus).set movedTask) with
      idle := {cpu1} }
    let l : Label twoCpus × (ℕ → Option (CpuMask twoCpus)) :=
      (.enqueue (Env.lowest cpu0) 7 0, fun _ => none)
    ∃ w', stepRacing plainRodata w l = some w' ∧
      .kicked cpu1.toS32 .idle ∈ newEvents w w' ∧ Kicked movedTask.cpusPtr w w' := by
  intro w l
  obtain ⟨w', hw'⟩ : ∃ w', stepRacing plainRodata w l = some w' := ⟨_, rfl⟩
  have hkick : (stepRacing plainRodata w l).elim false (fun w' =>
      decide (.kicked cpu1.toS32 .idle ∈ newEvents w w')) = true := by decide +kernel
  rw [hw', Option.elim_some, decide_eq_true_eq] at hkick
  have hfind : w.tasks.find 7 = some movedTask := rfl
  have hready : movedTask ∈ readiedBy plainRodata w l := by
    rw [readiedBy, hfind]
    exact List.mem_filter.mpr ⟨List.mem_singleton_self _, by decide⟩
  exact ⟨w', hw', hkick, work_kicks_cpu plainRodata w w' _ hw' movedTask hready⟩

end ScxGoland
