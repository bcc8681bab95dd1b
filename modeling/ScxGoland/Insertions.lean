/-
The insertions that each part of the BPF program performs.

* `Performs is w w'` — between the two worlds exactly the insertions `is` were
  performed;
* `dispatchTask_performs` — the insertion that one record leads to
  (`recordInsertions`), on all four branches of `dispatch_task`;
* `golandSelectCpu_performs`, `golandEnqueue_performs` — the insertions of the callbacks,
  as decision tables over the state that they start from (`directInsertions`,
  `enqueueInsertions`);
* `fineStep` — the system with `goland_dispatch` taken apart into its calls of
  `dispatch_task`; `golandDispatch_fine` says that it makes at most one of them,
  with a slot left.
-/
import ScxGoland.Frames
import ScxGoland.Runs

namespace ScxGoland

variable {m : Machine}

/-! ### The insertions between two worlds -/

/-- The insertion that the event is. -/
def Event.insertion : Event → Option Insertion
  | .inserted i => some i
  | _ => none

/-- The insertions between two worlds, newest first. -/
def newInsertions (w w' : World m) : List Insertion := (newEvents w w').filterMap Event.insertion

/-- From `w` to `w'` these insertions were performed, newest first. -/
def Performs (is : List Insertion) (w w' : World m) : Prop :=
  ∃ es, w'.log = es ++ w.log ∧ es.filterMap Event.insertion = is

theorem Event.insertion_of_quiet {e : Event} (h : e.quiet = true) : e.insertion = none := by
  cases e with
  | inserted i => exact absurd h (by simp [Event.quiet])
  | _ => rfl

namespace Performs

variable {is is' : List Insertion} {w w₁ w₂ w₃ : World m}

theorem newInsertions_eq (h : Performs is w₁ w₂) : newInsertions w₁ w₂ = is := by
  obtain ⟨es, hes, his⟩ := h
  rw [newInsertions, newEvents_eq hes, his]

theorem of_log (h : w₂.log = w₁.log) : Performs [] w₁ w₂ := ⟨[], h, rfl⟩

theorem trans (h : Performs is w₁ w₂) (h' : Performs is' w₂ w₃) : Performs (is' ++ is) w₁ w₃ := by
  obtain ⟨es, hes, his⟩ := h
  obtain ⟨es', hes', his'⟩ := h'
  refine ⟨es' ++ es, by rw [hes', hes, List.append_assoc], ?_⟩
  rw [List.filterMap_append, his, his']

theorem emit (w : World m) {e : Event} (h : e.insertion = none) : Performs [] w (w.emit e) :=
  ⟨[e], rfl, by simp [h]⟩

theorem of_quiet (h : Quiet w₁ w₂) : Performs [] w₁ w₂ := by
  obtain ⟨es, hes, hquiet⟩ := h.log
  refine ⟨es, hes, List.filterMap_eq_nil_iff.mpr fun e he => ?_⟩
  exact Event.insertion_of_quiet (hquiet e he)

/-- What performs nothing may come before or after. -/
theorem then_nil (h : Performs is w₁ w₂) (h' : Performs [] w₂ w₃) : Performs is w₁ w₃ := h.trans h'

theorem after_nil (h : Performs [] w₁ w₂) (h' : Performs is w₂ w₃) : Performs is w₁ w₃ := by
  have hboth := h.trans h'
  rwa [List.append_nil] at hboth

theorem updBss (w : World m) (f : Bss → Bss) : Performs [] w (w.updBss f) := of_log rfl

theorem insert_direct (w : World m) (i : Insertion) : Performs [i] w (w.insert .direct i) :=
  ⟨[.inserted i], rfl, rfl⟩

theorem insert_dispatch (i : Insertion) (hroom : w.buf.length < maxDispatchSlot) :
    Performs [i] w (w.insert .dispatch i) :=
  ⟨[.inserted i], insert_dispatch_log w i hroom, rfl⟩

theorem updatePriorityTaskMap (w : World m) (pid : UInt32) (vtime slice : UInt64) :
    Performs [] w (w.updatePriorityTaskMap pid vtime slice) := by
  rw [World.updatePriorityTaskMap]
  split_ifs
  · exact of_log rfl
  · exact of_log rfl

theorem scxBpfDispatchCancel (w : World m) : Performs [] w w.scxBpfDispatchCancel := by
  rw [World.scxBpfDispatchCancel]
  split
  · exact ⟨[_], rfl, rfl⟩
  · exact ⟨[_], rfl, rfl⟩

end Performs

/-! ### One record -/

/-- Where a record's task goes: into `SHARED_DSQ` without a CPU that it may use,
nowhere if the priority branch skips the insertion, else into the queue of the CPU. -/
def recordInsertions (task : DispatchedTaskCtx) (w : World m) : List Insertion :=
  match w.tasks.find task.pid with
  | none => []
  | some p =>
    if task.cpu = rlCpuAny ∨ bpfCpumaskTestCpu task.cpu p.cpusPtr = false then
      [⟨p.pid, .user sharedDsq, task.sliceNs, some task.vtime, task.flags⟩]
    else if task.vtime = 0 ∧ (w.priorityTasks.lookup task.pid.toUInt32).isSome then []
    else [⟨p.pid, .user (w.cpuToDsq task.cpu).1, task.sliceNs, some task.vtime, task.flags⟩]

theorem performs_insertOnCpu (p : TaskStruct m) (task : DispatchedTaskCtx) {w : World m}
    (hroom : w.buf.length < maxDispatchSlot) :
    Performs [⟨p.pid, .user (w.cpuToDsq task.cpu).1, task.sliceNs, some task.vtime, task.flags⟩] w
      (insertOnCpu p task w) := by
  have hq := Quiet.cpuToDsq w task.cpu
  exact (Performs.of_quiet hq).after_nil
    ((Performs.insert_dispatch _ (by rw [hq.buf]; exact hroom)).then_nil (Performs.updBss _ _))

/-- **The insertions of one record**, with a slot left: the affinity change that
`race` stands for comes after them. -/
theorem dispatchTask_performs (env : Env m) (race : Option (CpuMask m)) (task : DispatchedTaskCtx)
    {w : World m} (hroom : w.buf.length < maxDispatchSlot) :
    Performs (recordInsertions task w) w (dispatchTask env race task w) := by
  rw [dispatchTask, recordInsertions]
  rcases w.tasks.find task.pid with _ | p
  · exact Performs.of_log rfl
  · have hshared := Performs.insert_dispatch (w := w)
      ⟨p.pid, .user sharedDsq, task.sliceNs, some task.vtime, task.flags⟩ hroom
    dsimp only
    by_cases hany : task.cpu = rlCpuAny
    · rw [if_pos hany, if_pos (Or.inl hany)]
      exact hshared.then_nil (Performs.of_quiet (quiet_kickTaskCpu _ _ _ _))
    rw [if_neg hany]
    by_cases hcpu : bpfCpumaskTestCpu task.cpu p.cpusPtr = false
    · rw [if_pos hcpu, if_pos (Or.inr hcpu)]
      exact (hshared.then_nil (Performs.updBss _ _)).then_nil
        (Performs.of_quiet (quiet_kickTaskCpu _ _ _ _))
    rw [if_neg hcpu, if_neg (not_or.mpr ⟨hany, hcpu⟩)]
    -- both outcomes of the second test come after the insertion
    have hins : Performs (if task.vtime = 0 ∧ (w.priorityTasks.lookup task.pid.toUInt32).isSome then
        [] else [⟨p.pid, .user (w.cpuToDsq task.cpu).1, task.sliceNs, some task.vtime, task.flags⟩])
        w (insertByVtime p task w) := by
      rw [insertByVtime_eq]
      split_ifs
      · exact Performs.of_log rfl
      · exact performs_insertOnCpu p task hroom
    have hmap := hins.then_nil (Performs.updatePriorityTaskMap _ task.pid.toUInt32 task.vtime
      task.sliceNs)
    by_cases hsecond : bpfCpumaskTestCpu task.cpu (race.getD p.cpusPtr) = false
    · rw [if_pos hsecond]
      exact (hmap.then_nil (Performs.scxBpfDispatchCancel _)).then_nil (Performs.updBss _ _)
    · rw [if_neg hsecond]
      exact hmap.then_nil (Performs.of_quiet (Quiet.kick _ _ _))

/-- A record without a CPU goes into `SHARED_DSQ`. -/
theorem recordInsertions_any {task : DispatchedTaskCtx} {w : World m}
    (hany : task.cpu = rlCpuAny) (hlive : (w.tasks.find task.pid).isSome) :
    recordInsertions task w =
      [⟨task.pid, .user sharedDsq, task.sliceNs, some task.vtime, task.flags⟩] := by
  obtain ⟨p, hp⟩ := Option.isSome_iff_exists.mp hlive
  rw [recordInsertions, hp]
  dsimp only
  rw [if_pos (Or.inl hany), w.tasks.find_pid hp]

theorem slice_of_mem_recordInsertions {task : DispatchedTaskCtx} {w : World m} {i : Insertion}
    (h : i ∈ recordInsertions task w) : i.slice = task.sliceNs := by
  rw [recordInsertions] at h
  split at h
  · exact absurd h List.not_mem_nil
  · split_ifs at h
    · rw [List.mem_singleton.mp h]
    · exact absurd h List.not_mem_nil
    · rw [List.mem_singleton.mp h]

/-! ### `goland_select_cpu` and `goland_enqueue` -/

section Tables

variable (ro : Rodata) (env : Env m) (p : TaskStruct m) (enqFlags : UInt64) (w : World m)

/-- The insertion of `try_direct_dispatch`. -/
def directInsertions (prevCpu : Int32) : List Insertion :=
  let cpu := (pickIdleCpu ro env p prevCpu w).1
  if DirectTo ro env p w prevCpu cpu then
    [⟨p.pid, .user (w.cpuToDsq cpu).1, scxSliceDfl, some p.dsqVtime, enqFlags⟩]
  else []

/-- The CPU of the priority path: an idle one, or the one the task last ran on. -/
def priorityCpu : Cpu m := (env.pick (p.cpusPtr ∩ w.idle)).getD p.cpu

/-- The insertion of the priority path. -/
def priorityInsertions : List Insertion :=
  match w.priorityTasks.lookup p.pid.toUInt32 with
  | none => []
  | some slice => [⟨p.pid, .localOn (priorityCpu env p w).toS32, slice, none,
      prioEnqFlags (priorityCpu env p w).toS32 w⟩]

/-- The insertion of the ring path, when the ring is full. -/
def ringInsertions : List Insertion :=
  if w.queued.length < w.queuedCap then []
  else [⟨p.pid, .user sharedDsq, scxSliceDfl, some p.dsqVtime, enqFlags⟩]

/-- The two exits of `goland_enqueue` for kernel threads. -/
def isKernelTask (ro : Rodata) (p : TaskStruct m) : Bool :=
  (isKthread p && decide (p.nrCpusAllowed = 1) && ro.earlyProcessing) || isKswapd p ||
    isKhugepaged ro p

/-- The insertions of `goland_enqueue`, newest first. -/
def enqueueInsertions : List Insertion :=
  if isUserschedTask ro p then []
  else if isBelongUserschedTask ro p then [⟨p.pid, .user schedDsq, scxSliceInf, none, scxEnqHead⟩]
  else if isKernelTask ro p then
    [⟨p.pid, .user (w.cpuToDsq p.cpu.toS32).1, ro.defaultSlice, some p.dsqVtime, enqFlags⟩]
  else
    let d := enqueueDirect ro env p enqFlags w
    if d.dispatched then directInsertions ro env p enqFlags w p.cpu.toS32
    else ringInsertions p enqFlags w ++ priorityInsertions env p d.world

end Tables

section Pids

variable {ro : Rodata} {env : Env m} {p : TaskStruct m} {enqFlags : UInt64} {w : World m}
  {i : Insertion}

theorem pid_of_mem_directInsertions {prevCpu : Int32}
    (h : i ∈ directInsertions ro env p enqFlags w prevCpu) : i.pid = p.pid := by
  rw [directInsertions] at h
  split_ifs at h
  · rw [List.mem_singleton.mp h]
  · exact absurd h List.not_mem_nil

/-- `goland_enqueue` inserts no other task. -/
theorem pid_of_mem_enqueueInsertions (h : i ∈ enqueueInsertions ro env p enqFlags w) :
    i.pid = p.pid := by
  rw [enqueueInsertions] at h
  dsimp only at h
  split_ifs at h
  · exact absurd h List.not_mem_nil
  · rw [List.mem_singleton.mp h]
  · rw [List.mem_singleton.mp h]
  · exact pid_of_mem_directInsertions h
  · rcases List.mem_append.mp h with h | h
    · rw [ringInsertions] at h
      split_ifs at h
      · exact absurd h List.not_mem_nil
      · rw [List.mem_singleton.mp h]
    · rw [priorityInsertions] at h
      split at h
      · exact absurd h List.not_mem_nil
      · rw [List.mem_singleton.mp h]

end Pids

section Performs

variable (ro : Rodata) (env : Env m) (p : TaskStruct m) (enqFlags : UInt64) (w : World m)

theorem tryDirectDispatch_performs (prevCpu : Int32) :
    Performs (directInsertions ro env p enqFlags w prevCpu) w
        (tryDirectDispatch ro env p prevCpu enqFlags w).world ∧
      ((tryDirectDispatch ro env p prevCpu enqFlags w).dispatched = true ↔
        directInsertions ro env p enqFlags w prevCpu ≠ []) := by
  rw [directInsertions]
  rcases tryDirectDispatch_cases ro env p prevCpu enqFlags w with
    ⟨hdisp, hnot, hsearch⟩ | ⟨hdisp, hto, w₁, hsearch, hworld⟩
  · rw [hdisp, if_neg hnot]
    exact ⟨Performs.of_quiet hsearch.quiet, by simp⟩
  · rw [hdisp, if_pos hto, hworld]
    exact ⟨(Performs.of_quiet hsearch.quiet).after_nil
      ((Performs.insert_direct _ _).then_nil (Performs.updBss _ _)), by simp⟩

theorem golandSelectCpu_performs (prevCpu : Int32) (wakeFlags : UInt64) :
    Performs (if isUserschedTask ro p then [] else directInsertions ro env p 0 w prevCpu) w
      (golandSelectCpu ro env p prevCpu wakeFlags w).2 := by
  have hdirect := (tryDirectDispatch_performs ro env p 0 w prevCpu).1
  rw [golandSelectCpu]
  dsimp only
  split_ifs
  · exact Performs.of_log rfl
  · exact hdirect
  · exact hdirect
  · exact hdirect

theorem insertKernelTask_performs :
    Performs [⟨p.pid, .user (w.cpuToDsq p.cpu.toS32).1, ro.defaultSlice, some p.dsqVtime,
      enqFlags⟩] w (insertKernelTask ro p enqFlags w) :=
  (Performs.of_quiet (Quiet.cpuToDsq w p.cpu.toS32)).after_nil
    ((Performs.insert_direct _ _).then_nil (Performs.updBss _ _))

/-- The CPU of the priority path, and what is left of the idle CPUs. -/
theorem pickIdle_priorityCpu :
    (if (w.scxBpfPickIdleCpu env p.cpusPtr false).1 = -eBUSY then p.cpu.toS32
      else (w.scxBpfPickIdleCpu env p.cpusPtr false).1) = (priorityCpu env p w).toS32 := by
  rw [World.scxBpfPickIdleCpu, priorityCpu, if_neg Bool.false_ne_true]
  rcases env.pick (p.cpusPtr ∩ w.idle) with _ | c
  · exact if_pos rfl
  · exact if_neg (c.toS32_ne_neg neg_eBUSY_lt)

theorem insertPriority_performs :
    Performs (priorityInsertions env p w) w (insertPriority env p w) := by
  rw [insertPriority, priorityInsertions]
  rcases w.priorityTasks.lookup p.pid.toUInt32 with _ | slice
  · exact Performs.of_log rfl
  · have hpick := Quiet.pickIdle w env p.cpusPtr false
    have hflags : prioEnqFlags (priorityCpu env p w).toS32
        (w.scxBpfPickIdleCpu env p.cpusPtr false).2 =
          prioEnqFlags (priorityCpu env p w).toS32 w := by
      rw [prioEnqFlags, prioEnqFlags, hpick.priorityTasks,
        hpick.runningTask]
    dsimp only
    rw [pickIdle_priorityCpu, if_neg (Cpu.toS32_nonneg _), hflags]
    exact (Performs.of_quiet hpick).after_nil
      ((Performs.insert_direct _ _).then_nil (Performs.updBss _ _))

theorem enqueueToUser_performs (cpu : Int32) :
    Performs (ringInsertions p enqFlags w) w (enqueueToUser env p enqFlags cpu w) := by
  rw [enqueueToUser, ringInsertions]
  refine Performs.then_nil ?_ (Performs.of_quiet (quiet_kickTaskCpu env p _ _))
  split_ifs
  · exact ⟨[.submitted (getTaskInfo p enqFlags w)], rfl, rfl⟩
  · exact (Performs.updBss w _).after_nil
      ((Performs.insert_direct _ _).then_nil (Performs.updBss _ _))

theorem enqueueDirect_performs :
    Performs (if (enqueueDirect ro env p enqFlags w).dispatched then
      directInsertions ro env p enqFlags w p.cpu.toS32 else []) w
        (enqueueDirect ro env p enqFlags w).world := by
  obtain ⟨hperf, hiff⟩ := tryDirectDispatch_performs ro env p enqFlags w p.cpu.toS32
  rw [enqueueDirect]
  by_cases hwake : ro.builtinIdle = true ∧ isQueuedWakeup ro p enqFlags = true
  · rw [if_pos hwake]
    by_cases hdisp : (tryDirectDispatch ro env p p.cpu.toS32 enqFlags w).dispatched = true
    · rwa [if_pos hdisp]
    · rw [if_neg hdisp]
      rwa [not_ne_iff.mp fun h => hdisp (hiff.mpr h)] at hperf
  · rw [if_neg hwake]
    exact Performs.of_log rfl

/-- **`goland_enqueue` follows its table.** -/
theorem golandEnqueue_performs :
    Performs (enqueueInsertions ro env p enqFlags w) w (golandEnqueue ro env p enqFlags w) := by
  have hkernel := insertKernelTask_performs ro p enqFlags w
  have hdirect := enqueueDirect_performs ro env p enqFlags w
  have hspec := enqueueDirect_spec ro env p enqFlags w
  rw [golandEnqueue, enqueueInsertions]
  by_cases hus : isUserschedTask ro p = true
  · rw [if_pos hus, if_pos hus]
    exact Performs.of_log rfl
  rw [if_neg hus, if_neg hus]
  by_cases hown : isBelongUserschedTask ro p = true
  · rw [if_pos hown, if_pos hown]
    exact (Performs.insert_direct w _).then_nil (Performs.of_quiet (quiet_kickTaskCpu _ _ _ _))
  rw [if_neg hown, if_neg hown]
  by_cases hkth : isKthread p = true ∧ p.nrCpusAllowed = 1 ∧ ro.earlyProcessing = true
  · rw [if_pos hkth, if_pos (by simp [isKernelTask, hkth])]
    exact hkernel
  rw [if_neg hkth]
  by_cases hksw : isKswapd p = true ∨ isKhugepaged ro p = true
  · rw [if_pos hksw, if_pos (by rcases hksw with h | h <;> simp [isKernelTask, h])]
    exact hkernel
  rw [if_neg hksw, if_neg]
  · dsimp only
    by_cases hdisp : (enqueueDirect ro env p enqFlags w).dispatched = true
    · rw [if_pos hdisp] at hdirect
      rw [if_pos hdisp, if_pos hdisp]
      exact hdirect.then_nil (Performs.of_quiet (Quiet.kick _ _ _))
    · rw [if_neg hdisp] at hdirect
      rw [if_neg hdisp, if_neg hdisp]
      -- the priority path leaves the ring as it was
      obtain ⟨hq, hcap⟩ :=
        insertPriority_queued env p (enqueueDirect ro env p enqFlags w).world
      have hring := enqueueToUser_performs env p enqFlags
        (insertPriority env p (enqueueDirect ro env p enqFlags w).world)
        (enqueueDirect ro env p enqFlags w).cpu
      rw [ringInsertions, hq, hcap, hspec.queued, hspec.queuedCap] at hring
      exact (hdirect.after_nil (insertPriority_performs env p _)).trans hring
  · simp only [isKernelTask, Bool.or_eq_true, Bool.and_eq_true, decide_eq_true_eq]
    tauto

end Performs

/-! ### `goland_dispatch`, taken apart -/

inductive FineLabel (m : Machine) where
  | sys (l : Label m)
  -- `dispatch_task`, and the task's affinity at the second test, if that changed
  | handle (env : Env m) (race : Option (CpuMask m)) (task : DispatchedTaskCtx)
  -- the kernel carries out the buffered insertions
  | flush

/-- Records are handled one by one, and everything but `goland_dispatch` may
happen in between.  `dispatch_task` is called with a slot left
(`golandDispatch_fine`). -/
def fineStep (ro : Rodata) (w : World m) : FineLabel m → Option (World m)
  | .sys (.dispatch _ _ _) => none
  | .sys l => step ro w l
  | .handle env race task =>
    if w.buf.length < maxDispatchSlot then some (dispatchTask env race task w) else none
  | .flush => some { w with buf := [] }

theorem fineStep_sys {ro : Rodata} {w w' : World m} {l : Label m}
    (h : fineStep ro w (.sys l) = some w') :
    (∀ env cpu prev, l ≠ .dispatch env cpu prev) ∧ step ro w l = some w' := by
  cases l with
  | dispatch env cpu prev => exact absurd h (by simp [fineStep])
  | _ => exact ⟨by simp, h⟩

theorem fineStep_handle {ro : Rodata} {w w' : World m} {env : Env m} {race : Option (CpuMask m)}
    {task : DispatchedTaskCtx} (h : fineStep ro w (.handle env race task) = some w') :
    w.buf.length < maxDispatchSlot ∧ w' = dispatchTask env race task w := by
  rw [fineStep] at h
  split_ifs at h with hroom
  exact ⟨hroom, (Option.some_inj.mp h).symm⟩

/-- Nothing is inserted, and `priority_tasks` and the counters are as before. -/
structure Idles (w w' : World m) : Prop where
  performs : Performs [] w w'
  priorityTasks : w'.priorityTasks = w.priorityTasks
  bss : w'.bss = w.bss

namespace Idles

theorem of_quiet {w w' : World m} (h : Quiet w w') : Idles w w' :=
  ⟨Performs.of_quiet h, h.priorityTasks, h.bss⟩

theorem of_log {w w' : World m} (hlog : w'.log = w.log)
    (hprio : w'.priorityTasks = w.priorityTasks) (hbss : w'.bss = w.bss) : Idles w w' :=
  ⟨Performs.of_log hlog, hprio, hbss⟩

theorem trans {w₁ w₂ w₃ : World m} (h : Idles w₁ w₂) (h' : Idles w₂ w₃) : Idles w₁ w₃ :=
  ⟨h.performs.trans h'.performs, h'.priorityTasks.trans h.priorityTasks, h'.bss.trans h.bss⟩

theorem moveToLocal (env : Env m) (cpu : Int32) (dsq : UInt64) (w : World m) :
    Idles w (w.scxBpfDsqMoveToLocal env cpu dsq).2 := ⟨⟨[_], rfl, rfl⟩, rfl, rfl⟩

theorem keepRunning (ro : Rodata) (cpu : Cpu m) (prev : Option Int32) (w : World m) :
    Idles w (keepRunning ro cpu prev w) := by
  rw [ScxGoland.keepRunning]
  split_ifs
  · exact ⟨⟨[_], rfl, rfl⟩, rfl, rfl⟩
  · split
    · exact .of_quiet (Quiet.refl w)
    · split_ifs
      · exact .of_log rfl rfl rfl
      · exact .of_quiet (Quiet.refl w)

end Idles

theorem dispatchUserScheduler_buf (ro : Rodata) {w : World m} (hbuf : w.buf = []) :
    (dispatchUserScheduler ro w).buf.length ≤ 1 := by
  rw [dispatchUserScheduler]
  split
  · rw [show (w.scxBpfError _).buf = w.buf from rfl, hbuf]
    exact Nat.zero_le 1
  · rename_i p _
    have hroom : w.buf.length < maxDispatchSlot := by
      rw [hbuf]
      decide
    have hins := insert_dispatch_buf w ⟨p.pid, .user schedDsq, ro.defaultSlice, none, scxEnqHead⟩
      hroom
    rw [World.scxBpfDsqInsert, hins, hbuf]
    exact le_rfl

/-- **`goland_dispatch` in fine steps.**  It begins with an empty buffer and may insert
the scheduler's own task; then it handles one record of the user ring, with a slot
left, or none; and what follows inserts nothing. -/
theorem golandDispatch_fine (ro : Rodata) (env : Env m) (races : ℕ → Option (CpuMask m))
    (cpu : Cpu m) (prev : Option Int32) {w : World m} (hbuf : w.buf = []) :
    ∃ w₁ w₂, (w₁ = w ∨ w₁ = dispatchUserScheduler ro { w with userschedNeeded := false }) ∧
      (w₂ = w₁ ∨ ∃ data ∈ w₁.dispatched, ∃ task race, dynptrData data = some task ∧
        fineStep ro w₁ (.handle env race task) = some w₂) ∧
      Idles w₂ (golandDispatch ro env races cpu prev w) := by
  obtain ⟨w₁, hw₁, hcase, hlen⟩ : ∃ w₁, (if w.userschedNeeded then
      dispatchUserScheduler ro { w with userschedNeeded := false } else w) = w₁ ∧
      (w₁ = w ∨ w₁ = dispatchUserScheduler ro { w with userschedNeeded := false }) ∧
      w₁.buf.length ≤ 1 := by
    refine ⟨_, rfl, ?_⟩
    split_ifs
    · exact ⟨Or.inr rfl, dispatchUserScheduler_buf ro hbuf⟩
    · exact ⟨Or.inl rfl, by rw [hbuf]; exact Nat.zero_le 1⟩
  have hslots : w₁.buf.length + 1 < maxDispatchSlot :=
    lt_of_le_of_lt (Nat.succ_le_succ hlen) (by decide)
  -- what is left of the ring plays no role
  obtain ⟨w₂, hw₂, hhandled⟩ : ∃ w₂, Idles w₂ (drainDispatched env races w₁) ∧
      (w₂ = w₁ ∨ ∃ data ∈ w₁.dispatched, ∃ task race, dynptrData data = some task ∧
        fineStep ro w₁ (.handle env race task) = some w₂) := by
    refine ⟨(bpfUserRingbufDrain (handleDispatchedTask env)
      (w₁.dispatched.mapIdx fun i data => ⟨data, races i⟩) w₁).world, .of_log rfl rfl rfl, ?_⟩
    rcases drain_at_most_one env (w₁.dispatched.mapIdx fun i data => ⟨data, races i⟩) w₁ hslots with
      hsame | ⟨s, hs, task, htask, hworld⟩
    · exact Or.inl hsame
    · obtain ⟨i, hi, rfl⟩ := List.mem_mapIdx.mp hs
      refine Or.inr ⟨_, List.getElem_mem hi, task, races i, htask, ?_⟩
      rw [hworld, fineStep, if_pos (lt_trans (Nat.lt_succ_self _) hslots)]
  refine ⟨w₁, w₂, hcase, hhandled, ?_⟩
  have hown := (hw₂.trans (.of_quiet (Quiet.cpuToDsq _ cpu.toS32))).trans
    (.moveToLocal env cpu.toS32 ((drainDispatched env races w₁).cpuToDsq cpu.toS32).1 _)
  have hshared := hown.trans (.moveToLocal env cpu.toS32 sharedDsq _)
  have hsched := hshared.trans (.moveToLocal env cpu.toS32 schedDsq _)
  rw [golandDispatch]
  dsimp only
  rw [hw₁]
  split_ifs
  · exact hown
  · exact hshared
  · exact hsched
  · exact hsched.trans (.keepRunning ro cpu prev _)

end ScxGoland
