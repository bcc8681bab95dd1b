/-
What a step of the system leaves alone.

* `Steady w w'` — the same tasks are alive, `running_task` is as before, and no
  task's `start_ts`, `stop_ts` or `exec_runtime` has changed;
* `step_steady` — every step is steady, except the creation and the end of a
  task and the four callbacks that keep its times;
* `apart_of_step` — the steps that leave the tasks, `priority_tasks` and the user
  ring alone;
* `step_priorityTasks` — only `goland_dispatch` and `goland_exit_task` change
  `priority_tasks`;
* `step_dispatched` — only user space and `goland_dispatch` change the user ring;
* `Enqueueing.emits` — the events of an enqueue: what is inserted on a local
  queue, and the record that is submitted.
-/
import ScxGoland.Footprint

namespace ScxGoland

variable {m : Machine}

/-- `start_ts`, `stop_ts` and `exec_runtime` of a task. -/
def World.times (w : World m) (pid : Int32) : Option (UInt64 × UInt64 × UInt64) :=
  (w.taskCtx pid).map fun t => (t.startTs, t.stopTs, t.execRuntime)

/-- The same tasks are alive, with the same times, and `running_task` is as
before. -/
structure Steady (w w' : World m) : Prop where
  live : ∀ pid, (w'.tasks.find pid).isSome = (w.tasks.find pid).isSome
  times : ∀ pid, w'.times pid = w.times pid
  runningTask : w'.runningTask = w.runningTask

namespace Steady

theorem refl (w : World m) : Steady w w := ⟨fun _ => rfl, fun _ => rfl, rfl⟩

theorem trans {w₁ w₂ w₃ : World m} (h : Steady w₁ w₂) (h' : Steady w₂ w₃) : Steady w₁ w₃ :=
  ⟨fun pid => (h'.live pid).trans (h.live pid), fun pid => (h'.times pid).trans (h.times pid),
    h'.runningTask.trans h.runningTask⟩

/-- A change of other fields. -/
theorem of_eq {w w' : World m} (htasks : w'.tasks = w.tasks) (hctx : w'.taskCtx = w.taskCtx)
    (hrun : w'.runningTask = w.runningTask) : Steady w w' :=
  ⟨fun pid => by rw [htasks], fun pid => by rw [World.times, World.times, hctx], hrun⟩

end Steady

/-- What the callbacks never touch includes the times. -/
theorem Untouched.steady {w w' : World m} (h : Untouched w w') : Steady w w' := by
  refine ⟨h.live, fun pid => ?_, h.runningTask⟩
  have hshape := congrArg (Option.map fun s => (s.1, s.2.1, s.2.2.1)) (h.taskCtx pid)
  rwa [Option.map_map, Option.map_map] at hshape

/-- A new record in `@queued` touches no task. -/
theorem Enqueueing.steady {own : Bool} {p : TaskStruct m} {enqFlags : UInt64} {w w' : World m}
    (h : Enqueueing own p enqFlags w w') : Steady w w' := by
  have hqueued : Steady w { w with queued := w'.queued } := Steady.of_eq rfl rfl rfl
  exact hqueued.trans h.untouched.steady

/-! ### The steps of the system -/

/-- The steps that create or end a task, or change its times. -/
def Label.keepsTimes : Label m → Bool
  | .fork _ | .exitTask _ | .initTask _ _ | .runnable _ | .running _ _ | .stopping _ _ => false
  | _ => true

/-- Replacing a live task keeps the same tasks alive. -/
theorem isSome_find_set_live {w : World m} {p : TaskStruct m}
    (hp : (w.tasks.find p.pid).isSome) (pid : Int32) :
    ((w.tasks.set p).find pid).isSome = (w.tasks.find pid).isSome := by
  by_cases hq : pid = p.pid
  · subst hq
    rw [hp]
    exact w.tasks.isSome_find_set p hp
  · exact congrArg Option.isSome (Function.update_of_ne hq _ _)

theorem step_steady {ro : Rodata} {w w' : World m} {l : Label m} (hl : l.keepsTimes = true)
    (h : step ro w l = some w') : Steady w w' := by
  by_cases hsched : l.isScheduling = true
  · obtain ⟨queued, needed, hsame, -⟩ := step_untouched hsched h
    have hfields : Steady w { w with queued := queued, userschedNeeded := needed } :=
      Steady.of_eq rfl rfl rfl
    exact hfields.trans hsame.steady
  cases l with
  | change p =>
    obtain ⟨old, hold, rfl⟩ := Option.map_eq_some_iff.mp h
    refine ⟨fun pid => isSome_find_set_live (by rw [hold]; rfl) pid, fun _ => rfl, rfl⟩
  | setAffinity pid mask =>
    obtain ⟨p, hp, rfl⟩ := Option.map_eq_some_iff.mp h
    have hpid : p.pid = pid := w.tasks.find_pid hp
    exact ⟨fun q => isSome_find_set_live (by rw [hpid, hp]; rfl) q, fun _ => rfl, rfl⟩
  | enable pid =>
    obtain ⟨p, -, rfl⟩ := Option.map_eq_some_iff.mp h
    exact ⟨fun q => TaskTable.isSome_find_setSlice _ _ _ _ _, fun _ => rfl, rfl⟩
  | siblingCpu alloc lvlId cpuId siblingCpuId =>
    obtain rfl := Option.some_inj.mp h
    rw [enableSiblingCpu]
    dsimp only
    split_ifs
    · split <;> exact Steady.of_eq rfl rfl rfl
    · split <;> exact Steady.of_eq rfl rfl rfl
    · exact Steady.refl w
    · exact Steady.refl w
  | setCounters b =>
    obtain rfl := Option.some_inj.mp h
    exact Steady.of_eq rfl rfl rfl
  | setDsqs dsqs =>
    obtain rfl := Option.some_inj.mp h
    exact Steady.of_eq rfl rfl rfl
  | fork _ | exitTask _ | initTask _ _ | runnable _ | running _ _ | stopping _ _ =>
    exact absurd hl (by simp [Label.keepsTimes])
  | _ => exact absurd rfl hsched

/-! ### Steps that concern few parts of the world -/

/-- The tasks, `priority_tasks` and the user ring are as before. -/
structure Apart (w w' : World m) : Prop where
  tasks : w'.tasks = w.tasks
  priorityTasks : w'.priorityTasks = w.priorityTasks
  dispatched : w'.dispatched = w.dispatched

theorem Apart.of_quiet {w w' : World m} (h : Quiet w w') : Apart w w' :=
  ⟨h.tasks, h.priorityTasks, h.dispatched⟩

/-- The steps that leave the tasks, `priority_tasks` and the user ring alone. -/
def Label.isApart : Label m → Bool
  | .fork _ | .change _ | .setAffinity _ _ | .selectCpu _ _ _ _ | .enqueue _ _ _ | .enable _
  | .exitTask _ | .dispatch _ _ _ | .push _ => false
  | _ => true

theorem apart_timer (ro : Rodata) (env : Env m) (armed : Bool) (w : World m) :
    Apart w (userschedTimerFn ro env armed w) := by
  have htrigger : Apart w (triggerUsersched ro env w) := by
    rw [triggerUsersched]
    split
    · exact ⟨rfl, rfl, rfl⟩
    · rename_i p _
      have hpick := Quiet.pickIdle { w with userschedNeeded := true } env p.cpusPtr false
      dsimp only
      split_ifs
      · exact ⟨hpick.tasks, hpick.priorityTasks, hpick.dispatched⟩
      · exact ⟨hpick.tasks, hpick.priorityTasks, hpick.dispatched⟩
  rw [userschedTimerFn]
  split_ifs
  · exact htrigger
  · exact ⟨rfl, rfl, rfl⟩
  · exact ⟨htrigger.tasks, htrigger.priorityTasks, htrigger.dispatched⟩
  · exact ⟨rfl, rfl, rfl⟩

theorem apart_of_step {ro : Rodata} {w w' : World m} {l : Label m} (hl : l.isApart = true)
    (h : step ro w l = some w') : Apart w w' := by
  cases l with
  | dequeue pid =>
    obtain ⟨p, -, rfl⟩ := Option.map_eq_some_iff.mp h
    exact ⟨rfl, rfl, rfl⟩
  | runnable pid =>
    obtain ⟨p, -, rfl⟩ := Option.map_eq_some_iff.mp h
    rw [golandRunnable]
    split_ifs <;> exact ⟨rfl, rfl, rfl⟩
  | running env pid =>
    obtain ⟨p, -, rfl⟩ := Option.map_eq_some_iff.mp h
    rw [golandRunning]
    split_ifs <;> exact ⟨rfl, rfl, rfl⟩
  | stopping env pid =>
    obtain ⟨p, -, rfl⟩ := Option.map_eq_some_iff.mp h
    rw [golandStopping]
    split_ifs <;> exact ⟨rfl, rfl, rfl⟩
  | cpuRelease pid =>
    obtain ⟨p, -, rfl⟩ := Option.map_eq_some_iff.mp h
    rw [golandCpuRelease]
    split_ifs <;> exact ⟨rfl, rfl, rfl⟩
  | initTask allocs pid =>
    obtain ⟨p, -, rfl⟩ := Option.map_eq_some_iff.mp h
    rw [golandInitTask]
    split
    · exact ⟨rfl, rfl, rfl⟩
    · dsimp only
      split_ifs <;> exact ⟨rfl, rfl, rfl⟩
  | timer env armed =>
    obtain rfl := Option.some_inj.mp h
    exact apart_timer ro env armed w
  | preempt cpuId =>
    obtain rfl := Option.some_inj.mp h
    exact ⟨rfl, rfl, rfl⟩
  | rsSelectCpu env pid cpu =>
    obtain rfl := Option.some_inj.mp h
    rw [rsSelectCpu]
    split
    · exact ⟨rfl, rfl, rfl⟩
    · exact Apart.of_quiet (quiet_pickIdleCpu ro env _ cpu w)
  | siblingCpu alloc lvlId cpuId siblingCpuId =>
    obtain rfl := Option.some_inj.mp h
    rw [enableSiblingCpu]
    dsimp only
    split_ifs
    · split <;> exact ⟨rfl, rfl, rfl⟩
    · split <;> exact ⟨rfl, rfl, rfl⟩
    · exact ⟨rfl, rfl, rfl⟩
    · exact ⟨rfl, rfl, rfl⟩
  | consume =>
    obtain rfl := Option.some_inj.mp h
    exact ⟨rfl, rfl, rfl⟩
  | setCounters b =>
    obtain rfl := Option.some_inj.mp h
    exact ⟨rfl, rfl, rfl⟩
  | setIdle idle idleSmt =>
    obtain rfl := Option.some_inj.mp h
    exact ⟨rfl, rfl, rfl⟩
  | setDsqs dsqs =>
    obtain rfl := Option.some_inj.mp h
    exact ⟨rfl, rfl, rfl⟩
  | _ => exact absurd hl (by simp [Label.isApart])

/-- Only `fork` and `goland_exit_task` change which tasks are alive. -/
theorem step_live {ro : Rodata} {w w' : World m} {l : Label m} (hfork : ∀ p, l ≠ .fork p)
    (hexit : ∀ pid, l ≠ .exitTask pid) (h : step ro w l = some w') (pid : Int32) :
    (w'.tasks.find pid).isSome = (w.tasks.find pid).isSome := by
  by_cases hl : l.keepsTimes = true
  · exact (step_steady hl h).live pid
  · have hapart : l.isApart = true := by
      cases l with
      | fork p => exact absurd rfl (hfork p)
      | exitTask q => exact absurd rfl (hexit q)
      | initTask allocs q => rfl
      | runnable q => rfl
      | running env q => rfl
      | stopping env q => rfl
      | _ => exact absurd rfl hl
    rw [(apart_of_step hapart h).tasks]

/-- The steps that may change `priority_tasks`. -/
def Label.keepsPriority : Label m → Bool
  | .dispatch _ _ _ | .exitTask _ => false
  | _ => true

theorem step_priorityTasks {ro : Rodata} {w w' : World m} {l : Label m}
    (hl : l.keepsPriority = true) (h : step ro w l = some w') :
    w'.priorityTasks = w.priorityTasks := by
  by_cases hapart : l.isApart = true
  · exact (apart_of_step hapart h).priorityTasks
  cases l with
  | fork p =>
    rw [step] at h
    split_ifs at h
    obtain rfl := Option.some_inj.mp h
    rfl
  | change p =>
    obtain ⟨old, -, rfl⟩ := Option.map_eq_some_iff.mp h
    rfl
  | setAffinity pid mask =>
    obtain ⟨p, -, rfl⟩ := Option.map_eq_some_iff.mp h
    rfl
  | selectCpu env pid prevCpu wakeFlags =>
    obtain ⟨p, -, rfl⟩ := Option.map_eq_some_iff.mp h
    exact (enqueueing_golandSelectCpu ro env p prevCpu wakeFlags w).spared.priorityTasks
  | enqueue env pid enqFlags =>
    obtain ⟨p, -, rfl⟩ := Option.map_eq_some_iff.mp h
    exact (enqueueing_golandEnqueue ro env p enqFlags _).spared.priorityTasks
  | enable pid =>
    obtain ⟨p, -, rfl⟩ := Option.map_eq_some_iff.mp h
    rfl
  | exitTask pid => exact absurd hl (by simp [Label.keepsPriority])
  | dispatch env cpu prev => exact absurd hl (by simp [Label.keepsPriority])
  | push data =>
    obtain rfl := Option.some_inj.mp h
    rfl
  | _ => exact absurd rfl hapart

/-! ### The user ring -/

/-- Only user space and `goland_dispatch` change the user ring. -/
theorem step_dispatched {ro : Rodata} {w w' : World m} {l : Label m}
    (hpush : ∀ data, l ≠ .push data) (hdispatch : ∀ env cpu prev, l ≠ .dispatch env cpu prev)
    (h : step ro w l = some w') : w'.dispatched = w.dispatched := by
  by_cases hapart : l.isApart = true
  · exact (apart_of_step hapart h).dispatched
  cases l with
  | fork p =>
    rw [step] at h
    split_ifs at h
    obtain rfl := Option.some_inj.mp h
    rfl
  | change p =>
    obtain ⟨old, -, rfl⟩ := Option.map_eq_some_iff.mp h
    rfl
  | setAffinity pid mask =>
    obtain ⟨p, -, rfl⟩ := Option.map_eq_some_iff.mp h
    rfl
  | selectCpu env pid prevCpu wakeFlags =>
    obtain ⟨p, -, rfl⟩ := Option.map_eq_some_iff.mp h
    exact (enqueueing_golandSelectCpu ro env p prevCpu wakeFlags w).spared.dispatched
  | enqueue env pid enqFlags =>
    obtain ⟨p, -, rfl⟩ := Option.map_eq_some_iff.mp h
    exact (enqueueing_golandEnqueue ro env p enqFlags _).spared.dispatched
  | enable pid =>
    obtain ⟨p, -, rfl⟩ := Option.map_eq_some_iff.mp h
    rfl
  | exitTask pid =>
    obtain ⟨p, -, rfl⟩ := Option.map_eq_some_iff.mp h
    rfl
  | dispatch env cpu prev => exact absurd rfl (hdispatch env cpu prev)
  | push data => exact absurd rfl (hpush data)
  | _ => exact absurd rfl hapart

/-! ### The events of an enqueue -/

/-- Every event from `w` to `w'` satisfies `Q`. -/
def Emits (Q : Event → Prop) (w w' : World m) : Prop :=
  ∃ es, w'.log = es ++ w.log ∧ ∀ e ∈ es, Q e

namespace Emits

variable {Q : Event → Prop} {w₁ w₂ w₃ : World m}

theorem of_log (h : w₂.log = w₁.log) : Emits Q w₁ w₂ := ⟨[], h, by simp⟩

theorem trans (h : Emits Q w₁ w₂) (h' : Emits Q w₂ w₃) : Emits Q w₁ w₃ := by
  obtain ⟨es, hes, hQ⟩ := h
  obtain ⟨es', hes', hQ'⟩ := h'
  exact ⟨es' ++ es, by rw [hes', hes, List.append_assoc], List.forall_mem_append.mpr ⟨hQ', hQ⟩⟩

theorem emit (w : World m) {e : Event} (h : Q e) : Emits Q w (w.emit e) :=
  ⟨[e], rfl, by simpa using h⟩

theorem of_quiet (hquiet : ∀ e : Event, e.quiet = true → Q e) (h : Quiet w₁ w₂) :
    Emits Q w₁ w₂ := by
  obtain ⟨es, hes, hq⟩ := h.log
  exact ⟨es, hes, fun e he => hquiet e (hq e he)⟩

end Emits

/-- The world in which the priority path looks at the maps. -/
structure SameMaps (w w' : World m) : Prop where
  priorityTasks : w'.priorityTasks = w.priorityTasks
  runningTask : w'.runningTask = w.runningTask

/-- **The events of an enqueue** satisfy `Q` if quiet events and insertions into
queues of the scheduler do, the insertion of the priority path does, and the
record does. -/
theorem Enqueueing.emits {Q : Event → Prop} {own : Bool} {p : TaskStruct m} {enqFlags : UInt64}
    {w w' : World m} (h : Enqueueing own p enqFlags w w')
    (hquiet : ∀ e : Event, e.quiet = true → Q e)
    (huser : ∀ (i : Insertion) (id : UInt64), i.dsq = .user id → Q (.inserted i))
    (hlocal : ∀ w', SameMaps w w' → ∀ slice (c : Cpu m),
      w.priorityTasks.lookup p.pid.toUInt32 = some slice →
      Q (.inserted ⟨p.pid, .localOn c.toS32, slice, none, prioEnqFlags c.toS32 w'⟩))
    (hsub : ∀ w', Steady w w' → Q (.submitted (getTaskInfo p enqFlags w'))) : Emits Q w w' := by
  have hins : ∀ (w : World m) (i : Insertion) (f : Bss → Bss), Q (.inserted i) →
      Emits Q w ((w.insert .direct i).updBss f) :=
    fun w i f hi => ⟨[.inserted i], rfl, by simpa using hi⟩
  induction h with
  | refl => exact Emits.of_log rfl
  | tail hpre hlast ih =>
    -- the maps and the task's context are still those of `w`
    have hsteady := Enqueueing.steady hpre
    have hprio := (Enqueueing.spared hpre).priorityTasks
    refine ih.trans ?_
    cases hlast with
    | search hsearch => exact Emits.of_quiet hquiet (Searching.one hsearch).quiet
    | thread hown => exact hins _ _ id (huser _ schedDsq rfl)
    | kernel id slice => exact hins _ _ _ (huser _ id rfl)
    | priority c hslice =>
      rw [hprio] at hslice
      exact hins _ _ _ (hlocal _ ⟨hprio, hsteady.runningTask⟩ _ c hslice)
    | submit => exact Emits.emit _ (hsub _ hsteady)
    | congested => exact Emits.of_log rfl

theorem Enqueueing.appends {own : Bool} {p : TaskStruct m} {enqFlags : UInt64} {w w' : World m}
    (h : Enqueueing own p enqFlags w w') : Emits (fun _ => True) w w' :=
  h.emits (fun _ _ => trivial) (fun _ _ _ => trivial) (fun _ _ _ _ _ => trivial)
    fun _ _ => trivial

end ScxGoland
