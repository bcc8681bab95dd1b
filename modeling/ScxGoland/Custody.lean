/-
Tasks that wait for user space.

A task is in custody when its last `goland_enqueue` returned without inserting
it and it has been neither inserted nor dequeued since (`InCustody`, read off
the log).

* `Keeps q w w'` — unless it inserts or dequeues the task `q`, the step leaves
  `q` alive and does not put it into `priority_tasks`;
* `waiting_task_not_skipped` — a task in custody is not in `priority_tasks`, a
  record for it was submitted by its last enqueue, and any dispatched record
  with its pid inserts it exactly once.
-/
import ScxGoland.Runs
import ScxGoland.System

open Runs

namespace ScxGoland

variable {m : Machine}

/-! ### Custody -/

/-- The events since the last `goland_enqueue` of the task returned. -/
def sinceEnqueue (pid : Int32) (log : List Event) : List Event :=
  log.takeWhile (· ≠ .enqueueReturned pid)

/-- The events of the last `goland_enqueue` of the task. -/
def lastEnqueue (pid : Int32) (log : List Event) : List Event :=
  (log.dropWhile (· ≠ .enqueueReturned pid)).takeWhile (· ≠ .enqueueCalled pid)

/-- The last `goland_enqueue` of the task returned without an insertion, and it
has been neither inserted nor dequeued since. -/
structure InCustody (pid : Int32) (w : World m) : Prop where
  returned : .enqueueReturned pid ∈ w.log
  notInserted : ∀ e ∈ lastEnqueue pid w.log, e.inserts pid = false
  untouched : ∀ e ∈ sinceEnqueue pid w.log, e.inserts pid = false ∧ e ≠ .dequeued pid

/-- Unless the task `q` is inserted or dequeued from `w` to `w'`, it stays alive
and does not enter `priority_tasks`; no enqueue of `q` returns. -/
def Keeps (q : Int32) (w w' : World m) : Prop :=
  ∃ es, w'.log = es ++ w.log ∧ .enqueueReturned q ∉ es ∧
    ((∀ e ∈ es, e.inserts q = false ∧ e ≠ .dequeued q) →
      ((w.tasks.find q).isSome → (w'.tasks.find q).isSome) ∧
      (w.priorityTasks.lookup q.toUInt32 = none → w'.priorityTasks.lookup q.toUInt32 = none))

namespace Keeps

variable {q : Int32} {w w' : World m}

theorem trans {w₁ w₂ w₃ : World m} (h : Keeps q w₁ w₂) (h' : Keeps q w₂ w₃) :
    Keeps q w₁ w₃ := by
  obtain ⟨es, hes, hret, hkeep⟩ := h
  obtain ⟨es', hes', hret', hkeep'⟩ := h'
  refine ⟨es' ++ es, by rw [hes', hes, List.append_assoc], ?_, fun hall => ?_⟩
  · rw [List.mem_append, not_or]
    exact ⟨hret', hret⟩
  · obtain ⟨hlive, hprio⟩ := hkeep fun e he => hall e (List.mem_append_right _ he)
    obtain ⟨hlive', hprio'⟩ := hkeep' fun e he => hall e (List.mem_append_left _ he)
    exact ⟨fun h => hlive' (hlive h), fun h => hprio' (hprio h)⟩

/-- A step that logs nothing. -/
theorem of_log_eq (hlog : w'.log = w.log)
    (hlive : (w.tasks.find q).isSome → (w'.tasks.find q).isSome)
    (hprio : w'.priorityTasks = w.priorityTasks) : Keeps q w w' :=
  ⟨[], hlog, by simp, fun _ => ⟨hlive, fun h => by rw [hprio]; exact h⟩⟩

theorem of_calm (h : Calm w w') : Keeps q w w' := by
  obtain ⟨es, hes, hq⟩ := h.log
  refine ⟨es, hes, fun hmem => ?_, fun _ => ⟨fun hl => by rw [h.live]; exact hl,
    fun hl => by rw [h.priorityTasks]; exact hl⟩⟩
  exact absurd (hq _ hmem) (by simp [Event.quiet])

theorem of_effect {pid : Int32} {ins sub : ℕ} (h : Effect pid ins sub w w')
    (hprio : w'.priorityTasks = w.priorityTasks) : Keeps q w w' := by
  obtain ⟨es, hes, hall, -, -⟩ := h.log
  refine ⟨es, hes, fun hmem => ?_, fun _ => ⟨fun hl => by rw [h.live]; exact hl,
    fun hl => by rw [hprio]; exact hl⟩⟩
  have := hall _ hmem
  simp [Event.quiet, Event.inserts, Event.submits] at this

/-- An event about the task of a callback, as seen by another task. -/
theorem emit (w : World m) {e : Event} (he : e ≠ .enqueueReturned q) : Keeps q w (w.emit e) :=
  ⟨[e], rfl, by simpa using he.symm, fun _ => ⟨id, id⟩⟩

/-- The task `q` is dequeued: its state may change in any way. -/
theorem dequeued (hlog : w'.log = .dequeued q :: w.log) : Keeps q w w' :=
  ⟨[.dequeued q], hlog, by simp, fun h => absurd rfl (h _ (List.mem_singleton_self _)).2⟩

end Keeps

/-! ### The dispatch callback -/

theorem toUInt32_injective : Function.Injective Int32.toUInt32 :=
  fun _ _ h => congrArg Int32.ofUInt32 h

section Dispatch

variable (ro : Rodata) (env : Env m) {q : Int32} {w : World m}

/-- The insertion that is skipped is the insertion of a priority task, and every
other record inserts its task. -/
theorem keeps_dispatchTask (task : DispatchedTaskCtx) (hroom : w.buf.length < maxDispatchSlot) :
    Keeps q w (dispatchTask env none task w) := by
  rcases hp : w.tasks.find task.pid with _ | p
  · rw [dispatchTask_dead env task none hp]
    exact Keeps.of_log_eq rfl id rfl
  · by_cases hskip : SkipsInsertion task w p
    · obtain ⟨es, hes, hall, -, -⟩ := (dispatchTask_skips env task hp hskip).log
      have hlive := (dispatchTask_skips env task hp hskip).live
      refine ⟨es, hes, fun hmem => ?_, fun _ => ⟨fun h => by rw [hlive]; exact h, fun hnone => ?_⟩⟩
      · have := hall _ hmem
        simp [Event.quiet, Event.inserts, Event.submits] at this
      · -- the record is for a priority task, `q` is not one
        have hne : q.toUInt32 ≠ task.pid.toUInt32 := by
          intro heq
          have hsome := hskip.2.2.2
          rw [← heq, hnone] at hsome
          exact absurd hsome (by simp)
        rw [dispatchTask_lookup_ne env task none hne]
        exact hnone
    · have heff := dispatchTask_inserts env task hroom hp hskip
      obtain ⟨es, hes, hall, hins, -⟩ := heff.log
      refine ⟨es, hes, fun hmem => ?_, fun hnot => ⟨fun h => by rw [heff.live]; exact h,
        fun hnone => ?_⟩⟩
      · have := hall _ hmem
        simp [Event.quiet, Event.inserts, Event.submits] at this
      · -- the record inserted its task, so it is not the one of `q`
        have hne : q.toUInt32 ≠ task.pid.toUInt32 := by
          intro heq
          obtain rfl : q = task.pid := toUInt32_injective heq
          obtain ⟨e, he, hi⟩ := List.countP_pos_iff.mp (by rw [hins]; exact Nat.one_pos)
          rw [(hnot e he).1] at hi
          exact absurd hi (by simp)
        rw [dispatchTask_lookup_ne env task none hne]
        exact hnone

theorem keeps_dispatchUserScheduler (hbuf : w.buf = []) :
    Keeps q w (dispatchUserScheduler ro w) ∧ (dispatchUserScheduler ro w).buf.length ≤ 1 := by
  rw [dispatchUserScheduler]
  split
  · refine ⟨Keeps.of_calm (Calm.of_quiet (Quiet.emit w rfl)), ?_⟩
    show w.buf.length ≤ 1
    rw [hbuf]
    exact Nat.zero_le 1
  · rename_i p _
    have hroom : w.buf.length < maxDispatchSlot := by
      rw [hbuf]
      decide
    have heff : Effect p.pid 1 0 w
        (w.scxBpfDsqInsert .dispatch p.pid (.user schedDsq) ro.defaultSlice scxEnqHead) :=
      Effect.insert_dispatch w _ rfl hroom
    refine ⟨Keeps.of_effect heff (insert_priorityTasks _ _ _), ?_⟩
    rw [World.scxBpfDsqInsert, insert_dispatch_buf w _ hroom, hbuf]
    exact Nat.le_refl 1

/-- At most one record of the ring is handled, with a slot for its insertion. -/
theorem keeps_drainDispatched (hbuf : w.buf.length ≤ 1) :
    Keeps q w (drainDispatched env (fun _ => none) w) := by
  have hroom : w.buf.length + 1 < maxDispatchSlot :=
    lt_of_le_of_lt (Nat.add_le_add_right hbuf 1) (by decide)
  set records : List (Sample m) := w.dispatched.mapIdx fun _ data => ⟨data, none⟩ with hrecords
  have hdrain : Keeps q w (bpfUserRingbufDrain (handleDispatchedTask env) records w).world := by
    rcases drain_at_most_one env records w hroom with h | ⟨s, hs, task, -, h⟩
    · rw [h]
      exact Keeps.of_log_eq rfl id rfl
    · have hrace : s.race = none := by
        rw [hrecords] at hs
        obtain ⟨i, hi, rfl⟩ := List.mem_mapIdx.mp hs
        rfl
      rw [h, hrace]
      exact keeps_dispatchTask env task (by omega)
  exact hdrain.trans (Keeps.of_log_eq rfl id rfl)

theorem keeps_moveToLocal (cpu : Int32) (dsq : UInt64) :
    Keeps q w (w.scxBpfDsqMoveToLocal env cpu dsq).2 := by
  have hflush : Keeps q w { w with buf := [] } := Keeps.of_log_eq rfl id rfl
  exact hflush.trans (Keeps.emit _ (by simp))

theorem keeps_keepRunning (cpu : Cpu m) (prev : Option Int32) :
    Keeps q w (keepRunning ro cpu prev w) ∧ (keepRunning ro cpu prev w).buf = w.buf := by
  rw [keepRunning]
  split_ifs
  · have hneeded : Keeps q w { w with userschedNeeded := true } := Keeps.of_log_eq rfl id rfl
    exact ⟨hneeded.trans (Keeps.of_calm (Calm.of_quiet (Quiet.kick _ _ _))), rfl⟩
  · split
    · exact ⟨Keeps.of_log_eq rfl id rfl, rfl⟩
    · split_ifs
      · refine ⟨Keeps.of_log_eq rfl (fun h => ?_) rfl, rfl⟩
        rw [TaskTable.isSome_find_setSlice]
        exact h
      · exact ⟨Keeps.of_log_eq rfl id rfl, rfl⟩

/-- The first attempt to move a task flushes the dispatch buffer. -/
theorem golandDispatch_buf (races : ℕ → Option (CpuMask m)) (cpu : Cpu m) (prev : Option Int32)
    (w : World m) : (golandDispatch ro env races cpu prev w).buf = [] := by
  rw [golandDispatch]
  generalize (if w.userschedNeeded then dispatchUserScheduler ro { w with userschedNeeded := false }
    else w) = w₁
  dsimp only
  split_ifs
  · rfl
  · rfl
  · rfl
  · exact (keeps_keepRunning (q := 0) ro cpu prev).2

theorem keeps_golandDispatch (cpu : Cpu m) (prev : Option Int32) (hbuf : w.buf = []) :
    Keeps q w (golandDispatch ro env (fun _ => none) cpu prev w) := by
  rw [golandDispatch]
  -- the user-space scheduler takes at most one slot
  set w₁ := (if w.userschedNeeded then dispatchUserScheduler ro { w with userschedNeeded := false }
    else w) with hw₁
  have h₁ : Keeps q w w₁ ∧ w₁.buf.length ≤ 1 := by
    rw [hw₁]
    split_ifs
    · have hclear : Keeps q w { w with userschedNeeded := false } := Keeps.of_log_eq rfl id rfl
      obtain ⟨hk, hb⟩ := keeps_dispatchUserScheduler (q := q) ro
        (w := { w with userschedNeeded := false }) hbuf
      exact ⟨hclear.trans hk, hb⟩
    · refine ⟨Keeps.of_log_eq rfl id rfl, ?_⟩
      rw [hbuf]
      exact Nat.zero_le 1
  have h₂ := h₁.1.trans (keeps_drainDispatched env h₁.2)
  set w₂ := drainDispatched env (fun _ => none) w₁
  have h₃ := h₂.trans (Keeps.of_calm (Calm.of_quiet (Quiet.cpuToDsq w₂ cpu.toS32)))
  have hown := keeps_moveToLocal env (q := q) (w := (w₂.cpuToDsq cpu.toS32).2) cpu.toS32
    (w₂.cpuToDsq cpu.toS32).1
  set own := (w₂.cpuToDsq cpu.toS32).2.scxBpfDsqMoveToLocal env cpu.toS32 (w₂.cpuToDsq cpu.toS32).1
  have hshared := keeps_moveToLocal env (q := q) (w := own.2) cpu.toS32 sharedDsq
  set shared := own.2.scxBpfDsqMoveToLocal env cpu.toS32 sharedDsq
  have hsched := keeps_moveToLocal env (q := q) (w := shared.2) cpu.toS32 schedDsq
  set sched := shared.2.scxBpfDsqMoveToLocal env cpu.toS32 schedDsq
  have hlast := keeps_keepRunning ro (q := q) (w := sched.2) cpu prev
  dsimp only
  split_ifs
  · exact h₃.trans hown
  · exact (h₃.trans hown).trans hshared
  · exact ((h₃.trans hown).trans hshared).trans hsched
  · exact (((h₃.trans hown).trans hshared).trans hsched).trans hlast.1

end Dispatch

/-! ### Every step -/

section Step

variable {ro : Rodata} {q : Int32} {w w' : World m}

/-- A step that dequeues the task `pid` and changes only this task. -/
theorem keeps_of_dequeued {pid : Int32} (hlog : w'.log = .dequeued pid :: w.log)
    (hlive : pid ≠ q → (w.tasks.find q).isSome → (w'.tasks.find q).isSome)
    (hprio : pid ≠ q → w'.priorityTasks.lookup q.toUInt32 = w.priorityTasks.lookup q.toUInt32) :
    Keeps q w w' := by
  by_cases hq : pid = q
  · subst hq
    exact Keeps.dequeued hlog
  · exact ⟨[.dequeued pid], hlog, by simp, fun _ => ⟨hlive hq, fun h => (hprio hq).trans h⟩⟩

theorem keeps_selectCpu (ro : Rodata) (env : Env m) (p : TaskStruct m) (prevCpu : Int32)
    (wakeFlags : UInt64) :
    Keeps q w (golandSelectCpu ro env p prevCpu wakeFlags w).2 ∧
      (golandSelectCpu ro env p prevCpu wakeFlags w).2.buf = w.buf := by
  have hspared := (enqueueing_golandSelectCpu ro env p prevCpu wakeFlags w).spared
  obtain ⟨⟨ins, heff⟩, -⟩ := golandSelectCpu_spec ro env p prevCpu wakeFlags w
  exact ⟨Keeps.of_effect heff hspared.priorityTasks, hspared.buf⟩

theorem keeps_exitTask {p : TaskStruct m} (hp : w.tasks.find q = some p) (q' : Int32) :
    Keeps q' w (({ golandExitTask p w with
      tasks := w.tasks.remove q
      taskCtx := Function.update w.taskCtx q none } : World m).emit (.dequeued q)) := by
  have hpid : p.pid = q := w.tasks.find_pid hp
  refine keeps_of_dequeued rfl (fun hne h => ?_) (fun hne => ?_)
  · show ((w.tasks.remove q).find q').isSome = true
    rw [w.tasks.find_remove_ne hne.symm]
    exact h
  · show (w.priorityTasks.delete p.pid.toUInt32).lookup q'.toUInt32 = _
    rw [BoundedMap.lookup_delete, if_neg]
    intro heq
    exact hne (hpid.symm.trans (toUInt32_injective heq).symm)

/-- Every step but an enqueue of `q` keeps `q`, and every step leaves the
dispatch buffer empty. -/
theorem step_keeps {l : Label m} (hbuf : w.buf = []) (h : step ro w l = some w') :
    w'.buf = [] ∧ (Keeps q w w' ∨ ∃ env enqFlags, l = .enqueue env q enqFlags) := by
  by_cases hl : l.isCalm = true
  · have hcalm := calm_of_step hl h
    exact ⟨hcalm.buf.trans hbuf, Or.inl (Keeps.of_calm hcalm)⟩
  cases l with
  | fork p =>
    simp only [step] at h
    split_ifs at h
    obtain rfl := Option.some_inj.mp h
    exact ⟨hbuf, Or.inl (Keeps.of_log_eq rfl (w.tasks.isSome_find_set _) rfl)⟩
  | change p =>
    obtain ⟨old, -, rfl⟩ := Option.map_eq_some_iff.mp h
    exact ⟨hbuf, Or.inl (Keeps.of_log_eq rfl (w.tasks.isSome_find_set _) rfl)⟩
  | setAffinity pid mask =>
    obtain ⟨p, -, rfl⟩ := Option.map_eq_some_iff.mp h
    exact ⟨hbuf, Or.inl (keeps_of_dequeued rfl (fun _ => w.tasks.isSome_find_set _) (fun _ => rfl))⟩
  | dequeue pid =>
    obtain ⟨p, -, rfl⟩ := Option.map_eq_some_iff.mp h
    exact ⟨hbuf, Or.inl (keeps_of_dequeued rfl (fun _ => id) (fun _ => rfl))⟩
  | selectCpu env pid prevCpu wakeFlags =>
    obtain ⟨p, -, rfl⟩ := Option.map_eq_some_iff.mp h
    obtain ⟨hk, hb⟩ := keeps_selectCpu (q := q) (w := w) ro env p prevCpu wakeFlags
    exact ⟨hb.trans hbuf, Or.inl hk⟩
  | enqueue env pid enqFlags =>
    obtain ⟨p, -, rfl⟩ := Option.map_eq_some_iff.mp h
    have hspared :=
      (enqueueing_golandEnqueue ro env p enqFlags (w.emit (.enqueueCalled pid))).spared
    refine ⟨hspared.buf.trans hbuf, ?_⟩
    by_cases hq : pid = q
    · exact Or.inr ⟨env, enqFlags, by rw [hq]⟩
    · obtain ⟨ins, sub, -, heff⟩ :=
        golandEnqueue_effect ro env p enqFlags (w.emit (.enqueueCalled pid))
      have hcalled : Keeps q w (w.emit (.enqueueCalled pid)) := Keeps.emit w (by simp)
      exact Or.inl ((hcalled.trans (Keeps.of_effect heff hspared.priorityTasks)).trans
        (Keeps.emit _ (by simpa using hq)))
  | exitTask pid =>
    obtain ⟨p, hp, rfl⟩ := Option.map_eq_some_iff.mp h
    exact ⟨hbuf, Or.inl (keeps_exitTask hp q)⟩
  | dispatch env cpu prev =>
    obtain rfl := Option.some_inj.mp h
    exact ⟨golandDispatch_buf ro env _ cpu prev w,
      Or.inl (keeps_golandDispatch ro env (q := q) cpu prev hbuf)⟩
  | _ => exact absurd rfl hl

/-! ### The invariant -/

/-- What is known of a task in custody. -/
structure Waiting (q : Int32) (w : World m) : Prop where
  live : (w.tasks.find q).isSome
  notPriority : w.priorityTasks.lookup q.toUInt32 = none
  submitted : ∃ e ∈ lastEnqueue q w.log, e.submits q = true

/-- Between callbacks the dispatch buffer is empty, and the tasks in custody are
`Waiting`. -/
structure CustodyInv (ro : Rodata) (w : World m) : Prop where
  buf : w.buf = []
  waiting : ∀ q, q.toUInt32 ≠ ro.userschedPid → InCustody q w → Waiting q w

/-- Custody after a step that keeps the task was custody before it. -/
theorem waiting_of_keeps (hk : Keeps q w w') (hw : InCustody q w → Waiting q w)
    (hc : InCustody q w') : Waiting q w' := by
  obtain ⟨es, hes, hret, hkeep⟩ := hk
  have hne : ∀ e ∈ es, decide (e ≠ .enqueueReturned q) = true := by
    intro e he
    rw [decide_eq_true_iff]
    rintro rfl
    exact hret he
  have hsince : sinceEnqueue q w'.log = es ++ sinceEnqueue q w.log := by
    rw [sinceEnqueue, hes, List.takeWhile_append_of_pos hne]
    rfl
  have hlast : lastEnqueue q w'.log = lastEnqueue q w.log := by
    rw [lastEnqueue, hes, List.dropWhile_append_of_pos hne]
    rfl
  have hbefore : InCustody q w := by
    refine ⟨?_, ?_, ?_⟩
    · have := hc.returned
      rw [hes, List.mem_append] at this
      exact this.resolve_left hret
    · rw [← hlast]
      exact hc.notInserted
    · intro e he
      exact hc.untouched e (by rw [hsince]; exact List.mem_append_right _ he)
  obtain ⟨hlive, hprio, hsub⟩ := hw hbefore
  obtain ⟨hlive', hprio'⟩ := hkeep fun e he =>
    hc.untouched e (by rw [hsince]; exact List.mem_append_left _ he)
  exact ⟨hlive' hlive, hprio' hprio, by rw [hlast]; exact hsub⟩

/-- The last enqueue in the log of an enqueue that has just returned. -/
theorem lastEnqueue_call {pid : Int32} {es log : List Event} (hes : .enqueueCalled pid ∉ es) :
    lastEnqueue pid (.enqueueReturned pid :: (es ++ .enqueueCalled pid :: log)) =
      .enqueueReturned pid :: es := by
  have hne : ∀ e ∈ es, decide (e ≠ .enqueueCalled pid) = true := by
    intro e he
    rw [decide_eq_true_iff]
    rintro rfl
    exact hes he
  rw [lastEnqueue, List.dropWhile_cons_of_neg (by simp), List.takeWhile_cons_of_pos (by simp),
    List.takeWhile_append_of_pos hne, List.takeWhile_cons_of_neg (by simp), List.append_nil]

/-- An enqueue that leaves the task in custody has not inserted it; the records
that it submitted are in the log. -/
theorem custody_effect {pid : Int32} {ins sub : ℕ} {v : World m}
    (heff : Effect pid ins sub (w.emit (.enqueueCalled pid)) v)
    (hc : InCustody pid (v.emit (.enqueueReturned pid))) :
    ins = 0 ∧ (0 < sub →
      ∃ e ∈ lastEnqueue pid (v.emit (.enqueueReturned pid)).log, e.submits pid = true) := by
  obtain ⟨es, hes, hall, hins, hsub⟩ := heff.log
  have hnot : .enqueueCalled pid ∉ es := by
    intro he
    have := hall _ he
    simp [Event.quiet, Event.inserts, Event.submits] at this
  have hlast : lastEnqueue pid (v.emit (.enqueueReturned pid)).log =
      .enqueueReturned pid :: es := by
    show lastEnqueue pid (.enqueueReturned pid :: v.log) = _
    rw [hes]
    exact lastEnqueue_call hnot
  constructor
  · rw [← hins, List.countP_eq_zero]
    intro e he hi
    have := hc.notInserted e (by rw [hlast]; exact List.mem_cons_of_mem _ he)
    rw [this] at hi
    exact absurd hi (by simp)
  · intro hpos
    rw [← hsub] at hpos
    obtain ⟨e, he, hs⟩ := List.countP_pos_iff.mp hpos
    exact ⟨e, by rw [hlast]; exact List.mem_cons_of_mem _ he, hs⟩

/-- A task that its enqueue leaves in custody passed the priority path without
being inserted, and found room in the ring. -/
theorem waiting_of_enqueue (env : Env m) (enqFlags : UInt64)
    (hq : q.toUInt32 ≠ ro.userschedPid) (h : step ro w (.enqueue env q enqFlags) = some w')
    (hc : InCustody q w') : Waiting q w' := by
  obtain ⟨p, hp, rfl⟩ := Option.map_eq_some_iff.mp h
  obtain rfl : p.pid = q := w.tasks.find_pid hp
  have hus : isUserschedTask ro p = false := by simpa [isUserschedTask] using hq
  set w₁ := w.emit (.enqueueCalled p.pid) with hw₁
  have hframe := (enqueueing_golandEnqueue ro env p enqFlags w₁).spared.priorityTasks
  have hearly : ¬ LeavesEarly ro env p enqFlags w₁ := fun he =>
    absurd (custody_effect (golandEnqueue_early ro env p enqFlags w₁ hus he) hc).1 (by simp)
  obtain ⟨hzero, hsubmit⟩ := custody_effect (golandEnqueue_late ro env p enqFlags w₁ hus hearly) hc
  have hroom : w₁.queued.length < w₁.queuedCap := by
    by_contra hfull
    rw [if_neg hfull] at hzero
    omega
  refine ⟨?_, ?_, hsubmit (by rw [if_pos hroom]; exact Nat.one_pos)⟩
  · obtain ⟨ins, sub, -, heff⟩ := golandEnqueue_effect ro env p enqFlags w₁
    show ((golandEnqueue ro env p enqFlags w₁).tasks.find p.pid).isSome = true
    rw [heff.live p.pid]
    show (w.tasks.find p.pid).isSome = true
    rw [hp]
    rfl
  · show (golandEnqueue ro env p enqFlags w₁).priorityTasks.lookup p.pid.toUInt32 = none
    rw [hframe]
    by_contra hsome
    rw [if_pos (Option.isSome_iff_ne_none.mpr hsome)] at hzero
    omega

theorem custodyInv_step (w : World m) (l : Label m) (w' : World m) (h : CustodyInv ro w)
    (hstep : step ro w l = some w') : CustodyInv ro w' := by
  refine ⟨(step_keeps (q := 0) h.buf hstep).1, fun q hq hc => ?_⟩
  rcases (step_keeps (q := q) h.buf hstep).2 with hk | ⟨env, enqFlags, rfl⟩
  · exact waiting_of_keeps hk (h.waiting q hq) hc
  · exact waiting_of_enqueue env enqFlags hq hstep hc

end Step

/-- **No task that waits for user space is skipped.**  In every state that the
system reaches, a task in custody is not in `priority_tasks`, its last enqueue
submitted a record for it, and handling any dispatched record with its pid
inserts it exactly once, whatever the dispatch buffer holds as long as a slot is
left; in particular the insertion is not skipped. -/
theorem waiting_task_not_skipped (ro : Rodata) (w₀ : World m) (hlog : w₀.log = [])
    (hbuf : w₀.buf = []) (ls : List (Label m)) (w : World m)
    (hrun : run (step ro) w₀ ls = some w) (pid : Int32) (hpid : pid.toUInt32 ≠ ro.userschedPid)
    (hc : InCustody pid w) :
    w.priorityTasks.lookup pid.toUInt32 = none ∧
    (∃ r, .submitted r ∈ lastEnqueue pid w.log ∧ r.pid = pid) ∧
    ∀ (env : Env m) (task : DispatchedTaskCtx) (buf : List Insertion), task.pid = pid →
      buf.length < maxDispatchSlot →
      Effect pid 1 0 { w with buf := buf } (dispatchTask env none task { w with buf := buf }) ∧
      ∀ p, ¬ SkipsInsertion task w p := by
  have hinit : CustodyInv ro w₀ := by
    refine ⟨hbuf, fun q _ hq => ?_⟩
    have := hq.returned
    rw [hlog] at this
    exact absurd this (by simp)
  have hinv : CustodyInv ro w := invariant hinit custodyInv_step ls w (visits_of_run hrun)
  obtain ⟨hlive, hprio, e, he, hsub⟩ := hinv.waiting pid hpid hc
  refine ⟨hprio, ?_, ?_⟩
  · cases e with
    | submitted r => exact ⟨r, he, by simpa [Event.submits] using hsub⟩
    | _ => exact absurd hsub (by simp [Event.submits])
  · rintro env task buf rfl hroom
    have hskip : ∀ p, ¬ SkipsInsertion task w p := by
      intro p h
      have hsome := h.2.2.2
      rw [hprio] at hsome
      exact absurd hsome (by simp)
    obtain ⟨p, hp⟩ := Option.isSome_iff_exists.mp hlive
    exact ⟨dispatchTask_inserts env task (w := { w with buf := buf }) hroom hp (hskip p), hskip⟩

/-- Task 7 is created and enqueued, and waits for user space. -/
def enqueuedRun : List (Label twoCpus) :=
  [.fork (plainTask 7), .enqueue (Env.lowest cpu0) 7 0, .push [1, 2, 3]]

theorem waiting_task_not_skipped_enqueued :
    ∃ w, run (step plainRodata) (World.loaded twoCpus 6553) enqueuedRun = some w ∧
      InCustody 7 w ∧ w.priorityTasks.lookup 7 = none := by
  have hsome : (run (step plainRodata) (World.loaded twoCpus 6553) enqueuedRun).isSome := by decide
  obtain ⟨w, hw⟩ := Option.isSome_iff_exists.mp hsome
  have hlog : (run (step plainRodata) (World.loaded twoCpus 6553) enqueuedRun).map World.log =
      some [.enqueueReturned 7, .kicked 0 .idle,
        .submitted (getTaskInfo (plainTask 7) 0 (World.loaded twoCpus 6553)),
        .enqueueCalled 7] := by decide +kernel
  rw [hw, Option.map_some, Option.some_inj] at hlog
  have hc : InCustody 7 w := by
    refine ⟨?_, ?_, ?_⟩
    · rw [hlog]
      decide
    · rw [hlog]
      decide
    · rw [hlog]
      decide
  exact ⟨w, hw, hc, (waiting_task_not_skipped plainRodata _ rfl rfl enqueuedRun w hw 7 (by decide)
    hc).1⟩

end ScxGoland
