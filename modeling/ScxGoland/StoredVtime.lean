/-
Who changes `p->scx.dsq_vtime`.

Every insertion may set the vtime of its task.  `goland_enqueue` and
`goland_select_cpu` insert a task with the vtime it has; the insertions of
`dispatch_task` set the vtime of the record.

* `dispatchTask_vtime` — a record sets the vtime of its task, unless the
  insertion is skipped;
* `step_vtime` — apart from that, only the creation of a task and
  `goland_enable` set a vtime.
-/
import ScxGoland.Frames

namespace ScxGoland

variable {m : Machine}

/-- `p->scx.dsq_vtime` of a live task. -/
def World.vtime (w : World m) (pid : Int32) : Option UInt64 :=
  (w.tasks.find pid).map TaskStruct.dsqVtime

/-- No task's vtime changes, and none is created or ends. -/
def SameVtimes (w w' : World m) : Prop := ∀ pid, w'.vtime pid = w.vtime pid

namespace SameVtimes

theorem refl (w : World m) : SameVtimes w w := fun _ => rfl

theorem trans {w₁ w₂ w₃ : World m} (h : SameVtimes w₁ w₂) (h' : SameVtimes w₂ w₃) :
    SameVtimes w₁ w₃ := fun pid => (h' pid).trans (h pid)

theorem of_tasks {w w' : World m} (h : w'.tasks = w.tasks) : SameVtimes w w' := by
  intro pid
  rw [World.vtime, World.vtime, h]

theorem of_quiet {w w' : World m} (h : Quiet w w') : SameVtimes w w' := of_tasks h.tasks

end SameVtimes

/-- The vtimes after `setSlice`. -/
theorem vtime_setSlice (w : World m) (pid : Int32) (slice vtime : TaskStruct m → UInt64)
    (q : Int32) :
    World.vtime { w with tasks := w.tasks.setSlice pid slice vtime } q =
      if q = pid then (w.tasks.find q).map vtime else w.vtime q := by
  rw [World.vtime, World.vtime, TaskTable.setSlice]
  dsimp only
  split_ifs
  · rw [Option.map_map]
    rfl
  · rfl

/-- The vtimes after an insertion. -/
theorem vtime_insert (w : World m) (ctx : OpsCtx) (i : Insertion) (q : Int32) :
    (w.insert ctx i).vtime q =
      if q = i.pid then (w.vtime q).map (i.vtime.getD ·) else w.vtime q := by
  set slice : TaskStruct m → UInt64 := fun t =>
    if i.slice ≠ 0 then i.slice else if t.slice ≠ 0 then t.slice else 1 with hslice
  set vtime : TaskStruct m → UInt64 := fun t => i.vtime.getD t.dsqVtime with hvtime
  have htasks : (w.insert ctx i).vtime q =
      World.vtime { w with tasks := w.tasks.setSlice i.pid slice vtime } q := by
    cases ctx with
    | direct => rfl
    | dispatch =>
      by_cases hroom : w.buf.length < maxDispatchSlot
      · rw [World.insert, if_pos hroom]
        rfl
      · rw [World.insert, if_neg hroom]
        rfl
  rw [htasks, vtime_setSlice]
  split_ifs
  · rw [World.vtime, Option.map_map]
    rfl
  · rfl

/-- A task is inserted with the vtime it has. -/
theorem sameVtimes_insert {w : World m} {p : TaskStruct m} (ctx : OpsCtx) (i : Insertion)
    (hp : w.vtime p.pid = some p.dsqVtime) (hpid : i.pid = p.pid)
    (hv : i.vtime.getD p.dsqVtime = p.dsqVtime) : SameVtimes w (w.insert ctx i) := by
  intro q
  rw [vtime_insert]
  split_ifs with hq
  · rw [hq, hpid, hp, Option.map_some, hv]
  · rfl

/-- An enqueue inserts the task with the vtime it has, or without one. -/
theorem Enqueueing.sameVtimes {own : Bool} {p : TaskStruct m} {enqFlags : UInt64} {w w' : World m}
    (h : Enqueueing own p enqFlags w w') (hp : w.vtime p.pid = some p.dsqVtime) :
    SameVtimes w w' := by
  induction h with
  | refl => exact .refl w
  | tail hpre hlast ih =>
    have hp' := (ih p.pid).trans hp
    refine ih.trans ?_
    cases hlast with
    | search hsearch => exact .of_quiet (Searching.one hsearch).quiet
    | thread hown => exact sameVtimes_insert .direct _ hp' rfl rfl
    | kernel id slice => exact (sameVtimes_insert .direct _ hp' rfl rfl).trans (.of_tasks rfl)
    | priority c hslice => exact (sameVtimes_insert .direct _ hp' rfl rfl).trans (.of_tasks rfl)
    | submit => exact .of_tasks rfl
    | congested => exact .of_tasks rfl

/-! ### The callbacks -/

/-- The scheduler's own task is inserted without a vtime. -/
theorem sameVtimes_dispatchUserScheduler (ro : Rodata) (w : World m) :
    SameVtimes w (dispatchUserScheduler ro w) := by
  rw [dispatchUserScheduler]
  split
  · exact .of_tasks rfl
  · rename_i p hp
    have hpid := w.tasks.find_pid hp
    have hvtime : w.vtime p.pid = some p.dsqVtime := by
      rw [World.vtime, hpid, hp]
      rfl
    exact sameVtimes_insert .dispatch _ hvtime rfl rfl

theorem sameVtimes_keepRunning (ro : Rodata) (cpu : Cpu m) (prev : Option Int32) (w : World m) :
    SameVtimes w (keepRunning ro cpu prev w) := by
  rw [keepRunning]
  split_ifs
  · exact .of_tasks rfl
  · split
    · exact .refl w
    · split_ifs
      · intro q
        rw [vtime_setSlice]
        split_ifs
        · rfl
        · rfl
      · exact .refl w

/-- With no record to handle, `goland_dispatch` changes no vtime. -/
theorem sameVtimes_golandDispatch (ro : Rodata) (env : Env m) (races : ℕ → Option (CpuMask m))
    (cpu : Cpu m) (prev : Option Int32) {w : World m} (hw : w.dispatched = []) :
    SameVtimes w (golandDispatch ro env races cpu prev w) := by
  refine (golandDispatch_keeps (P := fun w' => SameVtimes w w' ∧ w'.dispatched = [])
    (fun w' h => ?_) (fun w' h => ?_) (fun w' h => ?_) (fun w' dsq h => ?_) (fun w' h => ?_)
    ⟨.refl w, hw⟩).1
  · have hneeded : SameVtimes w' { w' with userschedNeeded := false } := .of_tasks rfl
    refine ⟨(h.1.trans hneeded).trans (sameVtimes_dispatchUserScheduler ro _), ?_⟩
    rw [dispatchUserScheduler]
    split
    · exact h.2
    · rw [World.scxBpfDsqInsert, World.insert]
      dsimp only
      split_ifs <;> exact h.2
  · rw [drainDispatched, h.2]
    exact ⟨h.1.trans (.of_tasks rfl), rfl⟩
  · have hdsq := Quiet.cpuToDsq w' cpu.toS32
    exact ⟨h.1.trans (.of_quiet hdsq), hdsq.dispatched.trans h.2⟩
  · exact ⟨h.1.trans (.of_tasks rfl), h.2⟩
  · refine ⟨h.1.trans (sameVtimes_keepRunning ro cpu prev w'), ?_⟩
    rw [keepRunning]
    split_ifs
    · exact h.2
    · split
      · exact h.2
      · split_ifs <;> exact h.2

/-! ### A record -/

instance (task : DispatchedTaskCtx) (w : World m) (p : TaskStruct m) :
    Decidable (SkipsInsertion task w p) := inferInstanceAs (Decidable (_ ∧ _))

/-- The record is inserted, and sets the vtime of its task. -/
def storesVtime (task : DispatchedTaskCtx) (w : World m) : Bool :=
  (w.tasks.find task.pid).any fun p => decide (¬ SkipsInsertion task w p)

/-- **What a record does to the vtimes**, also when it is bounced or cancelled. -/
theorem dispatchTask_vtime (env : Env m) (race : Option (CpuMask m)) (task : DispatchedTaskCtx)
    (w : World m) (q : Int32) :
    (dispatchTask env race task w).vtime q =
      if q = task.pid ∧ storesVtime task w then some task.vtime else w.vtime q := by
  rcases hp : w.tasks.find task.pid with _ | p
  · rw [dispatchTask_dead env task race hp, if_neg]
    rw [storesVtime, hp]
    simp
  have hpid : p.pid = task.pid := w.tasks.find_pid hp
  have hlive : w.vtime task.pid = some p.dsqVtime := by
    rw [World.vtime, hp]
    rfl
  have hstores : storesVtime task w = decide (¬ SkipsInsertion task w p) := by
    rw [storesVtime, hp, Option.any_some]
  -- an insertion with the vtime of the record
  have hins : ∀ (w' : World m), SameVtimes w w' → ∀ dsq, (w'.insert .dispatch
      ⟨p.pid, dsq, task.sliceNs, some task.vtime, task.flags⟩).vtime q =
        if q = task.pid then some task.vtime else w.vtime q := by
    intro w' hw' dsq
    rw [vtime_insert, hpid]
    split_ifs with hq
    · rw [hw' q, hq, hlive]
      rfl
    · exact hw' q
  have hshared : (w.scxBpfDsqInsertVtime .dispatch p.pid (.user sharedDsq) task.sliceNs task.vtime
      task.flags).vtime q = if q = task.pid then some task.vtime else w.vtime q :=
    hins w (.refl w) (.user sharedDsq)
  have hon : (insertOnCpu p task w).vtime q =
      if q = task.pid then some task.vtime else w.vtime q :=
    hins _ (.of_quiet (Quiet.cpuToDsq w task.cpu)) _
  rw [dispatchTask, hp]
  dsimp only
  by_cases hany : task.cpu = rlCpuAny
  · have hnot : ¬ SkipsInsertion task w p := fun h => h.1 hany
    rw [if_pos hany, SameVtimes.of_quiet (quiet_kickTaskCpu _ _ _ _) q, hstores,
      decide_eq_true hnot]
    simpa using hshared
  rw [if_neg hany]
  by_cases hcpu : bpfCpumaskTestCpu task.cpu p.cpusPtr = false
  · have hnot : ¬ SkipsInsertion task w p := fun h => by
      exact absurd (hcpu.symm.trans h.2.1) (by simp)
    rw [if_pos hcpu, SameVtimes.of_quiet (quiet_kickTaskCpu _ _ _ _) q, hstores,
      decide_eq_true hnot]
    change (w.scxBpfDsqInsertVtime .dispatch p.pid (.user sharedDsq) task.sliceNs task.vtime
      task.flags).vtime q = _
    simpa using hshared
  rw [if_neg hcpu]
  have hby : (insertByVtime p task w).vtime q =
      if q = task.pid ∧ storesVtime task w then some task.vtime else w.vtime q := by
    rw [insertByVtime_eq, hstores]
    by_cases hknown : task.vtime = 0 ∧ (w.priorityTasks.lookup task.pid.toUInt32).isSome
    · have hskip : SkipsInsertion task w p := ⟨hany, by simpa using hcpu, hknown⟩
      rw [if_pos hknown]
      simp [hskip]
    · have hnot : ¬ SkipsInsertion task w p := fun h => hknown h.2.2
      rw [if_neg hknown]
      simpa [hnot] using hon
  have hmap : (World.updatePriorityTaskMap task.pid.toUInt32 task.vtime task.sliceNs
      (insertByVtime p task w)).vtime q = (insertByVtime p task w).vtime q := by
    refine SameVtimes.of_tasks ?_ q
    rw [World.updatePriorityTaskMap]
    split_ifs <;> rfl
  rw [← hby, ← hmap]
  split_ifs
  · refine SameVtimes.of_tasks ?_ q
    show (World.scxBpfDispatchCancel _).tasks = _
    rw [World.scxBpfDispatchCancel]
    split <;> rfl
  · rfl

/-! ### The steps of the system -/

/-- The vtime that a step gives to a new task, or to one that enters the
scheduler. -/
def Label.setsVtime : Label m → Option (Int32 × UInt64)
  | .fork p => some (p.pid, p.dsqVtime)
  | .enable pid => some (pid, 0)
  | _ => none

/-- The step hands no record to `dispatch_task`, and leaves the vtimes to the
scheduler. -/
def Label.leavesVtimes (w : World m) : Label m → Bool
  | .dispatch _ _ _ => decide (w.dispatched = [])
  | .change p => (w.tasks.find p.pid).all fun old => decide (p.dsqVtime = old.dsqVtime)
  | .push _ => false
  | _ => true

/-- **Who sets vtimes**: the creation of a task and `goland_enable`. -/
theorem step_vtime {ro : Rodata} {w w' : World m} {l : Label m}
    (hl : l.leavesVtimes w = true) (h : step ro w l = some w') {q : Int32}
    {p' : TaskStruct m} (hq : w'.tasks.find q = some p') :
    (∃ v, l.setsVtime = some (q, v) ∧ p'.dsqVtime = v) ∨
      ((∀ v, l.setsVtime ≠ some (q, v)) ∧ w.vtime q = some p'.dsqVtime) := by
  have hq' : w'.vtime q = some p'.dsqVtime := by
    rw [World.vtime, hq]
    rfl
  -- most steps set no vtime at all
  have hkeeps : SameVtimes w w' → l.setsVtime = none →
      (∃ v, l.setsVtime = some (q, v) ∧ p'.dsqVtime = v) ∨
      ((∀ v, l.setsVtime ≠ some (q, v)) ∧ w.vtime q = some p'.dsqVtime) :=
    fun hsame hnone => Or.inr ⟨by simp [hnone], (hsame q).symm.trans hq'⟩
  by_cases hapart : l.isApart = true
  · refine hkeeps (.of_tasks (apart_of_step hapart h).tasks) ?_
    cases l with
    | fork p => exact absurd hapart (by simp [Label.isApart])
    | enable pid => exact absurd hapart (by simp [Label.isApart])
    | _ => rfl
  have hlive : ∀ {pid p}, w.tasks.find pid = some p → w.vtime p.pid = some p.dsqVtime := by
    intro pid p hp
    rw [World.vtime, w.tasks.find_pid hp, hp]
    rfl
  cases l with
  | fork p =>
    rw [step] at h
    split_ifs at h
    obtain rfl := Option.some_inj.mp h
    change Function.update w.tasks.find p.pid (some p) q = some p' at hq
    by_cases hpq : q = p.pid
    · rw [hpq, Function.update_self, Option.some_inj] at hq
      exact Or.inl ⟨p.dsqVtime, by rw [hpq]; rfl, by rw [hq]⟩
    · rw [Function.update_of_ne hpq] at hq
      refine Or.inr ⟨fun v hv => hpq ?_, by rw [World.vtime, hq]; rfl⟩
      exact (congrArg Prod.fst (Option.some_inj.mp hv)).symm
  | enable pid =>
    obtain ⟨p, hp, rfl⟩ := Option.map_eq_some_iff.mp h
    have hset := vtime_setSlice w p.pid (fun _ => scxSliceDfl) (fun _ => 0) q
    have hpid : p.pid = pid := w.tasks.find_pid hp
    by_cases hpq : q = pid
    · refine Or.inl ⟨0, by rw [hpq]; rfl, ?_⟩
      rw [if_pos (hpq.trans hpid.symm), hpq, hp] at hset
      rw [hpq] at hq'
      exact (Option.some_inj.mp (hset.symm.trans hq')).symm
    · refine Or.inr ⟨fun v hv => hpq (congrArg Prod.fst (Option.some_inj.mp hv)).symm, ?_⟩
      rw [if_neg fun hq => hpq (hq.trans hpid)] at hset
      exact hset.symm.trans hq'
  | change p =>
    obtain ⟨old, hold, rfl⟩ := Option.map_eq_some_iff.mp h
    refine hkeeps (fun pid => ?_) rfl
    rw [Label.leavesVtimes, hold, Option.all_some, decide_eq_true_eq] at hl
    rw [World.vtime, World.vtime]
    show (Function.update w.tasks.find p.pid _ pid).map _ = _
    by_cases hpid : pid = p.pid
    · rw [hpid, Function.update_self, hold]
      exact congrArg some hl
    · rw [Function.update_of_ne hpid]
  | setAffinity pid mask =>
    obtain ⟨p, hp, rfl⟩ := Option.map_eq_some_iff.mp h
    refine hkeeps (fun q => ?_) rfl
    have hpid : p.pid = pid := w.tasks.find_pid hp
    rw [World.vtime, World.vtime]
    show (Function.update w.tasks.find p.pid _ q).map _ = _
    by_cases hpq : q = p.pid
    · rw [hpq, Function.update_self, hpid, hp]
      rfl
    · rw [Function.update_of_ne hpq]
  | selectCpu env pid prevCpu wakeFlags =>
    obtain ⟨p, hp, rfl⟩ := Option.map_eq_some_iff.mp h
    exact hkeeps ((enqueueing_golandSelectCpu ro env p prevCpu wakeFlags w).sameVtimes
      (hlive hp)) rfl
  | enqueue env pid enqFlags =>
    obtain ⟨p, hp, rfl⟩ := Option.map_eq_some_iff.mp h
    have hcall : SameVtimes w (w.emit (.enqueueCalled pid)) := .of_tasks rfl
    have hsame := (enqueueing_golandEnqueue ro env p enqFlags _).sameVtimes
      ((hcall p.pid).trans (hlive hp))
    exact hkeeps ((hcall.trans hsame).trans (.of_tasks rfl)) rfl
  | exitTask pid =>
    obtain ⟨p, hp, rfl⟩ := Option.map_eq_some_iff.mp h
    change Function.update w.tasks.find pid none q = some p' at hq
    by_cases hpq : q = pid
    · rw [hpq, Function.update_self] at hq
      exact absurd hq (by simp)
    · rw [Function.update_of_ne hpq] at hq
      exact Or.inr ⟨by simp [Label.setsVtime], by rw [World.vtime, hq]; rfl⟩
  | dispatch env cpu prev =>
    obtain rfl := Option.some_inj.mp h
    exact hkeeps (sameVtimes_golandDispatch ro env _ cpu prev (of_decide_eq_true hl)) rfl
  | push data => exact absurd hl (by simp [Label.leavesVtimes])
  | _ => exact absurd rfl hapart

end ScxGoland
