/-
The slice of a record, up to the insertions that it leads to.

A record is inserted by `dispatch_task`, or its slice is stored in
`priority_tasks` and used by a later `goland_enqueue`.  `Sourced` remembers which
record the stored slice of a pid came from, and which insertions resulted from
which record.

* `enqueue_localSlices` — an enqueue replays the stored slice, and nothing else;
* `slices_default_iff` — in every run, `slice_ns` reaches the kernel as it is, and
  a default slice stands for `0`, exactly as long as no record with slice `0` is
  inserted and no stored slice `0` is replayed: none of the insertions replaces
  the `0`.
-/
import ScxGoland.Insertions
import ScxGoland.PriorityMap

open Runs

namespace ScxGoland

variable {m : Machine}

/-! ### The stored slice -/

/-- The insertion goes straight to a CPU, as those of the priority path do. -/
def Insertion.isLocal (i : Insertion) : Bool :=
  match i.dsq with
  | .localOn _ => true
  | .user _ => false

/-- The slices of the local insertions from `w` to `w'`, newest first. -/
def LocalSlices (slices : List UInt64) (w w' : World m) : Prop :=
  ∃ is, Performs is w w' ∧ (is.filter Insertion.isLocal).map Insertion.slice = slices

namespace LocalSlices

variable {slices slices' : List UInt64} {w₁ w₂ w₃ : World m}

theorem of_performs_nil (h : Performs [] w₁ w₂) : LocalSlices [] w₁ w₂ := ⟨[], h, rfl⟩

theorem trans (h : LocalSlices slices w₁ w₂) (h' : LocalSlices slices' w₂ w₃) :
    LocalSlices (slices' ++ slices) w₁ w₃ := by
  obtain ⟨is, hperf, his⟩ := h
  obtain ⟨is', hperf', his'⟩ := h'
  exact ⟨is' ++ is, hperf.trans hperf', by rw [List.filter_append, List.map_append, his, his']⟩

theorem after_nil (h : LocalSlices [] w₁ w₂) (h' : LocalSlices slices w₂ w₃) :
    LocalSlices slices w₁ w₃ := by
  have hboth := h.trans h'
  rwa [List.append_nil] at hboth

theorem newInsertions_eq (h : LocalSlices slices w₁ w₂) :
    ((newInsertions w₁ w₂).filter Insertion.isLocal).map Insertion.slice = slices := by
  obtain ⟨is, hperf, his⟩ := h
  rw [hperf.newInsertions_eq, his]

end LocalSlices

/-- The task gets to the priority path of `goland_enqueue`. -/
def ReachesPriority (ro : Rodata) (env : Env m) (p : TaskStruct m) (enqFlags : UInt64)
    (w : World m) : Prop :=
  isUserschedTask ro p = false ∧ ¬ LeavesEarly ro env p enqFlags w

theorem reachesPriority_iff {ro : Rodata} {env : Env m} {p : TaskStruct m} {enqFlags : UInt64}
    {w : World m} : ReachesPriority ro env p enqFlags w ↔
      isUserschedTask ro p = false ∧ isBelongUserschedTask ro p = false ∧
        isKernelTask ro p = false ∧ (enqueueDirect ro env p enqFlags w).dispatched = false := by
  rw [ReachesPriority, LeavesEarly, ← enqueueDirect_dispatched_iff, isKernelTask]
  simp only [not_or, Bool.not_eq_true, Bool.or_eq_false_iff, Bool.and_eq_false_iff,
    decide_eq_false_iff_not]
  grind

/-- Only the insertion of the priority path is local. -/
theorem local_priorityInsertions (env : Env m) (p : TaskStruct m) (w : World m) :
    ((priorityInsertions env p w).filter Insertion.isLocal).map Insertion.slice =
      (w.priorityTasks.lookup p.pid.toUInt32).toList := by
  rw [priorityInsertions]
  rcases w.priorityTasks.lookup p.pid.toUInt32 with _ | slice
  · rfl
  · rfl

theorem local_directInsertions (ro : Rodata) (env : Env m) (p : TaskStruct m) (enqFlags : UInt64)
    (w : World m) (prevCpu : Int32) :
    (directInsertions ro env p enqFlags w prevCpu).filter Insertion.isLocal = [] := by
  rw [directInsertions]
  split_ifs <;> rfl

theorem local_ringInsertions (p : TaskStruct m) (enqFlags : UInt64) (w : World m) :
    (ringInsertions p enqFlags w).filter Insertion.isLocal = [] := by
  rw [ringInsertions]
  split_ifs <;> rfl

/-- **An enqueue replays the stored slice**, on the priority path, and makes no
other local insertion. -/
theorem golandEnqueue_localSlices (ro : Rodata) (env : Env m) (p : TaskStruct m)
    (enqFlags : UInt64) (w : World m) :
    (ReachesPriority ro env p enqFlags w →
      LocalSlices (w.priorityTasks.lookup p.pid.toUInt32).toList w
        (golandEnqueue ro env p enqFlags w)) ∧
    (¬ ReachesPriority ro env p enqFlags w →
      LocalSlices [] w (golandEnqueue ro env p enqFlags w)) := by
  have hperf := golandEnqueue_performs ro env p enqFlags w
  have hspec := enqueueDirect_spec ro env p enqFlags w
  rw [reachesPriority_iff]
  constructor
  · rintro ⟨hus, hown, hkernel, hdisp⟩
    refine ⟨_, hperf, ?_⟩
    rw [enqueueInsertions, hus, hown, hkernel]
    dsimp only
    rw [hdisp]
    simp only [Bool.false_eq_true, if_false]
    rw [List.filter_append, local_ringInsertions, List.nil_append, local_priorityInsertions,
      hspec.priorityTasks]
  · intro hnot
    refine ⟨_, hperf, ?_⟩
    rw [enqueueInsertions]
    dsimp only
    split_ifs with hus hown hkernel hdisp
    · rfl
    · rfl
    · rfl
    · rw [local_directInsertions]
      rfl
    · exact absurd ⟨by simpa using hus, by simpa using hown, by simpa using hkernel,
        by simpa using hdisp⟩ hnot

/-- The same for an enqueue as a step of the system. -/
theorem enqueue_localSlices {ro : Rodata} {w w' : World m} {env : Env m} {pid : Int32}
    {enqFlags : UInt64} (h : step ro w (.enqueue env pid enqFlags) = some w') :
    ∃ p, w.tasks.find pid = some p ∧
      (ReachesPriority ro env p enqFlags (w.emit (.enqueueCalled pid)) →
        LocalSlices (w.priorityTasks.lookup pid.toUInt32).toList w w') ∧
      (¬ ReachesPriority ro env p enqFlags (w.emit (.enqueueCalled pid)) →
        LocalSlices [] w w') := by
  obtain ⟨p, hp, rfl⟩ := Option.map_eq_some_iff.mp h
  obtain rfl : p.pid = pid := w.tasks.find_pid hp
  obtain ⟨hreach, hnot⟩ :=
    golandEnqueue_localSlices ro env p enqFlags (w.emit (.enqueueCalled p.pid))
  have hcall : LocalSlices [] w (w.emit (.enqueueCalled p.pid)) :=
    .of_performs_nil (Performs.emit w rfl)
  have hreturn : ∀ w' : World m, LocalSlices [] w' (w'.emit (.enqueueReturned p.pid)) :=
    fun w' => .of_performs_nil (Performs.emit w' rfl)
  refine ⟨p, hp, fun hr => ?_, fun hr => ?_⟩
  · exact (hcall.after_nil (hreach hr)).trans (hreturn _)
  · exact (hcall.trans (hnot hr)).trans (hreturn _)

/-! ### From records to insertions -/

structure Sourced (m : Machine) where
  world : World m
  -- the last record of a pid that reached `update_priority_task_map`
  source : UInt32 → Option DispatchedTaskCtx
  -- the insertions that resulted from records so far
  results : List (DispatchedTaskCtx × Insertion)

def Sourced.init (w : World m) : Sourced m := ⟨w, fun _ => none, []⟩

/-- The record gets to `update_priority_task_map`. -/
def reachesMap (task : DispatchedTaskCtx) (w : World m) : Bool :=
  (w.tasks.find task.pid).any fun p =>
    task.cpu ≠ rlCpuAny && bpfCpumaskTestCpu task.cpu p.cpusPtr

/-- What `dispatch_task` inserts results from its record, and what the priority path
of `goland_enqueue` inserts from the record whose slice was stored. -/
def sourcedStep (ro : Rodata) (s : Sourced m) (l : FineLabel m) : Option (Sourced m) :=
  (fineStep ro s.world l).map fun w =>
    match l with
    | .handle _ _ task =>
      ⟨w, if reachesMap task s.world then
          Function.update s.source task.pid.toUInt32 (some task) else s.source,
        s.results ++ (newInsertions s.world w).map fun i => (task, i)⟩
    | .sys (.enqueue _ pid _) =>
      ⟨w, s.source, s.results ++ (s.source pid.toUInt32).toList.flatMap fun task =>
        ((newInsertions s.world w).filter Insertion.isLocal).map fun i => (task, i)⟩
    | _ => ⟨w, s.source, s.results⟩

/-- The insertion is made with the slice of its record, or with a default slice that
is not zero where the record says `0`. -/
structure TakesSlice (ro : Rodata) (task : DispatchedTaskCtx) (i : Insertion) : Prop where
  default : task.sliceNs = 0 → i.slice ≠ 0 ∧ (i.slice = ro.defaultSlice ∨ i.slice = scxSliceDfl)
  unchanged : task.sliceNs ≠ 0 → i.slice = task.sliceNs

/-- What a step does with a slice of `0`: the record is for a task that is gone, or
the priority branch does not insert it; and a stored `0` is not replayed. -/
def NoZeroSlice (ro : Rodata) (s : Sourced m) : FineLabel m → Prop
  | .handle _ _ task => ∀ p, s.world.tasks.find task.pid = some p →
      ¬ SkipsInsertion task s.world p → task.sliceNs ≠ 0
  | .sys (.enqueue env pid enqFlags) => ∀ p, s.world.tasks.find pid = some p →
      ReachesPriority ro env p enqFlags (s.world.emit (.enqueueCalled pid)) →
        s.world.priorityTasks.lookup pid.toUInt32 ≠ some 0
  | _ => True

/-- Every stored slice is that of its source, and every insertion so far has the
slice that it should have. -/
structure Sourced.Inv (ro : Rodata) (s : Sourced m) : Prop where
  stored : ∀ key slice, s.world.priorityTasks.lookup key = some slice →
    ∃ task, s.source key = some task ∧ task.sliceNs = slice
  results : ∀ x ∈ s.results, TakesSlice ro x.1 x.2

/-- A slice that is not zero is passed on. -/
theorem TakesSlice.of_eq {ro : Rodata} {task : DispatchedTaskCtx} {i : Insertion}
    (h : i.slice = task.sliceNs) (hne : task.sliceNs ≠ 0) : TakesSlice ro task i :=
  ⟨fun hzero => absurd hzero hne, fun _ => h⟩

theorem not_takesSlice {ro : Rodata} {task : DispatchedTaskCtx} {i : Insertion}
    (h : i.slice = task.sliceNs) (hzero : task.sliceNs = 0) : ¬ TakesSlice ro task i :=
  fun htakes => (htakes.default hzero).1 (h.trans hzero)

/-! ### One record -/

theorem recordInsertions_eq_nil {task : DispatchedTaskCtx} {w : World m} :
    recordInsertions task w = [] ↔
      ∀ p, w.tasks.find task.pid = some p → SkipsInsertion task w p := by
  rw [recordInsertions]
  rcases w.tasks.find task.pid with _ | p
  · simp
  · simp only [Option.some.injEq, forall_eq', SkipsInsertion]
    split_ifs with hshared hskip
    · refine ⟨fun h => absurd h (by simp), fun h => ?_⟩
      rcases hshared with hany | hcpu
      · exact absurd hany h.1
      · exact absurd (hcpu.symm.trans h.2.1) (by simp)
    · rw [not_or] at hshared
      exact ⟨fun _ => ⟨hshared.1, by simpa using hshared.2, hskip⟩, fun _ => rfl⟩
    · exact ⟨fun h => absurd h (by simp), fun h => absurd ⟨h.2.2.1, h.2.2.2⟩ hskip⟩

theorem reachesMap_iff {task : DispatchedTaskCtx} {w : World m} :
    reachesMap task w = true ↔ ∃ p, w.tasks.find task.pid = some p ∧ task.cpu ≠ rlCpuAny ∧
      bpfCpumaskTestCpu task.cpu p.cpusPtr = true := by
  rw [reachesMap]
  rcases w.tasks.find task.pid with _ | p <;> simp

/-- A stored slice is that of the last record which reached the map. -/
theorem stored_handle {s : Sourced m} {ro : Rodata} (hs : s.Inv ro) (env : Env m)
    (race : Option (CpuMask m)) (task : DispatchedTaskCtx) (key : UInt32) (slice : UInt64)
    (h : (dispatchTask env race task s.world).priorityTasks.lookup key = some slice) :
    ∃ task', (if reachesMap task s.world then
      Function.update s.source task.pid.toUInt32 (some task) else s.source) key = some task' ∧
        task'.sliceNs = slice := by
  by_cases hreach : reachesMap task s.world = true
  · rw [if_pos hreach]
    by_cases hkey : key = task.pid.toUInt32
    · subst hkey
      refine ⟨task, Function.update_self _ _ _, ?_⟩
      obtain ⟨p, hp, hcpu⟩ := reachesMap_iff.mp hreach
      rw [dispatchTask_priorityTasks env hp, if_pos hcpu] at h
      split_ifs at h
      · exact BoundedMap.eq_of_lookup_update h
      · rw [BoundedMap.lookup_delete, if_pos rfl] at h
        exact absurd h (by simp)
    · rw [dispatchTask_lookup_ne env task race hkey] at h
      rw [Function.update_of_ne hkey]
      exact hs.stored key slice h
  · rw [if_neg hreach]
    refine hs.stored key slice ?_
    rcases hp : s.world.tasks.find task.pid with _ | p
    · rwa [dispatchTask_dead env task race hp] at h
    · rwa [dispatchTask_priorityTasks env hp, if_neg fun hcpu =>
        hreach (reachesMap_iff.mpr ⟨p, hp, hcpu⟩)] at h

theorem sourced_handle {ro : Rodata} {s s' : Sourced m} {env : Env m}
    {race : Option (CpuMask m)} {task : DispatchedTaskCtx} (hs : s.Inv ro)
    (h : sourcedStep ro s (.handle env race task) = some s') :
    (NoZeroSlice ro s (.handle env race task) → s'.Inv ro) ∧
      (¬ NoZeroSlice ro s (.handle env race task) → ¬ ∀ x ∈ s'.results, TakesSlice ro x.1 x.2) := by
  obtain ⟨w, hw, rfl⟩ := Option.map_eq_some_iff.mp h
  obtain ⟨hroom, rfl⟩ := fineStep_handle hw
  have hins := (dispatchTask_performs env race task hroom).newInsertions_eq
  dsimp only
  rw [hins]
  constructor
  · intro hno
    refine ⟨stored_handle hs env race task, fun x hx => ?_⟩
    rcases List.mem_append.mp hx with hold | hnew
    · exact hs.results x hold
    · obtain ⟨i, hi, rfl⟩ := List.mem_map.mp hnew
      refine .of_eq (slice_of_mem_recordInsertions hi) fun hzero => ?_
      have hnil : recordInsertions task s.world = [] :=
        recordInsertions_eq_nil.mpr fun p hp => not_not.mp fun hskip => hno p hp hskip hzero
      rw [hnil] at hi
      exact absurd hi List.not_mem_nil
  · intro hno hall
    rw [NoZeroSlice] at hno
    push Not at hno
    obtain ⟨p, hp, hskip, hzero⟩ := hno
    have hne : recordInsertions task s.world ≠ [] :=
      fun hnil => hskip (recordInsertions_eq_nil.mp hnil p hp)
    obtain ⟨i, hi⟩ := List.exists_mem_of_ne_nil _ hne
    exact not_takesSlice (slice_of_mem_recordInsertions hi) hzero
      (hall (task, i) (List.mem_append_right _ (List.mem_map_of_mem hi)))

/-! ### One enqueue -/

theorem sourced_enqueue {ro : Rodata} {s s' : Sourced m} {env : Env m} {pid : Int32}
    {enqFlags : UInt64} (hs : s.Inv ro)
    (h : sourcedStep ro s (.sys (.enqueue env pid enqFlags)) = some s') :
    (NoZeroSlice ro s (.sys (.enqueue env pid enqFlags)) → s'.Inv ro) ∧
      (¬ NoZeroSlice ro s (.sys (.enqueue env pid enqFlags)) →
        ¬ ∀ x ∈ s'.results, TakesSlice ro x.1 x.2) := by
  obtain ⟨w, hw, rfl⟩ := Option.map_eq_some_iff.mp h
  obtain ⟨-, hw⟩ := fineStep_sys hw
  have hprio : w.priorityTasks = s.world.priorityTasks := step_priorityTasks rfl hw
  obtain ⟨p, hp, hreach, hnot⟩ := enqueue_localSlices hw
  constructor
  · intro hno
    refine ⟨fun key slice hkey => hs.stored key slice (hprio ▸ hkey), fun x hx => ?_⟩
    rcases List.mem_append.mp hx with hold | hnew
    · exact hs.results x hold
    · obtain ⟨task, htask, hx⟩ := List.mem_flatMap.mp hnew
      obtain ⟨i, hi, rfl⟩ := List.mem_map.mp hx
      have hslice := List.mem_map_of_mem (f := Insertion.slice) hi
      by_cases hr : ReachesPriority ro env p enqFlags (s.world.emit (.enqueueCalled pid))
      · rw [(hreach hr).newInsertions_eq, Option.mem_toList] at hslice
        obtain ⟨task', htask', hsame⟩ := hs.stored _ _ hslice
        obtain rfl : task' = task :=
          Option.some_inj.mp (htask'.symm.trans (Option.mem_toList.mp htask))
        refine .of_eq hsame.symm fun hzero => hno p hp hr ?_
        rw [Option.mem_def.mp hslice, ← hsame, hzero]
      · rw [(hnot hr).newInsertions_eq] at hslice
        exact absurd hslice List.not_mem_nil
  · intro hno hall
    rw [NoZeroSlice] at hno
    push Not at hno
    obtain ⟨p', hp', hr, hlookup⟩ := hno
    obtain rfl : p = p' := Option.some_inj.mp (hp.symm.trans hp')
    obtain ⟨task, htask, hzero⟩ := hs.stored _ _ hlookup
    have hslices := (hreach hr).newInsertions_eq
    rw [hlookup] at hslices
    obtain ⟨i, hi, hslice⟩ : ∃ i ∈ (newInsertions s.world w).filter Insertion.isLocal,
        i.slice = 0 := List.mem_map.mp (by rw [hslices]; exact List.mem_singleton_self 0)
    refine not_takesSlice (hslice.trans hzero.symm) hzero (hall (task, i) ?_)
    refine List.mem_append_right _ (List.mem_flatMap.mpr ⟨task, ?_, List.mem_map_of_mem hi⟩)
    exact Option.mem_toList.mpr htask

/-! ### Runs -/

/-- Every other step changes at most the map, which a task leaves when it exits. -/
theorem sourced_other {ro : Rodata} {s s' : Sourced m} {l : FineLabel m} (hs : s.Inv ro)
    (hhandle : ∀ env race task, l ≠ .handle env race task)
    (henqueue : ∀ env pid enqFlags, l ≠ .sys (.enqueue env pid enqFlags))
    (h : sourcedStep ro s l = some s') : s'.Inv ro := by
  obtain ⟨w, hw, hs'⟩ := Option.map_eq_some_iff.mp h
  have hsame : s'.source = s.source ∧ s'.results = s.results ∧ s'.world = w := by
    rw [← hs']
    split
    · exact absurd rfl (hhandle _ _ _)
    · exact absurd rfl (henqueue _ _ _)
    · exact ⟨rfl, rfl, rfl⟩
  have hsub : ∀ key slice, w.priorityTasks.lookup key = some slice →
      s.world.priorityTasks.lookup key = some slice := by
    intro key slice hkey
    cases l with
    | handle env race task => exact absurd rfl (hhandle _ _ _)
    | flush =>
      obtain rfl := Option.some_inj.mp hw
      exact hkey
    | sys l =>
      obtain ⟨hdispatch, hw⟩ := fineStep_sys hw
      by_cases hl : l.keepsPriority = true
      · rwa [step_priorityTasks hl hw] at hkey
      · cases l with
        | dispatch env cpu prev => exact absurd rfl (hdispatch _ _ _)
        | exitTask pid =>
          obtain ⟨p, -, rfl⟩ := Option.map_eq_some_iff.mp hw
          change (s.world.priorityTasks.delete p.pid.toUInt32).lookup key = some slice at hkey
          rw [BoundedMap.lookup_delete] at hkey
          split_ifs at hkey
          exact hkey
        | _ => exact absurd rfl hl
  refine ⟨fun key slice hkey => ?_, by rw [hsame.2.1]; exact hs.results⟩
  rw [hsame.2.2] at hkey
  rw [hsame.1]
  exact hs.stored key slice (hsub key slice hkey)

theorem sourced_step {ro : Rodata} {s s' : Sourced m} {l : FineLabel m} (hs : s.Inv ro)
    (h : sourcedStep ro s l = some s') :
    (NoZeroSlice ro s l → s'.Inv ro) ∧
      (¬ NoZeroSlice ro s l → ¬ ∀ x ∈ s'.results, TakesSlice ro x.1 x.2) := by
  cases l with
  | handle env race task => exact sourced_handle hs h
  | flush => exact ⟨fun _ => sourced_other hs (by simp) (by simp) h, fun hno => absurd trivial hno⟩
  | sys l =>
    cases l with
    | enqueue env pid enqFlags => exact sourced_enqueue hs h
    | _ => exact ⟨fun _ => sourced_other hs (by simp) (by simp) h, fun hno => absurd trivial hno⟩

/-- **Slice `0` means the default slice exactly as long as no insertion is made for
it.**  For every run of records, enqueues and all other steps, any CPU, vtime and
affinity, also when that changes inside of `dispatch_task`. -/
theorem slices_default_iff (ro : Rodata) (w₀ : World m) (hstart : Started w₀)
    (ls : List (FineLabel m)) :
    (∀ s, Visits (sourcedStep ro) (.init w₀) ls s → ∀ x ∈ s.results, TakesSlice ro x.1 x.2) ↔
      ∀ s l, Takes (sourcedStep ro) (.init w₀) ls s l → NoZeroSlice ro s l := by
  have hinit : (Sourced.init w₀).Inv ro := by
    refine ⟨fun key slice hkey => ?_, fun x hx => absurd hx List.not_mem_nil⟩
    rw [show (Sourced.init w₀).world = w₀ from rfl, hstart.atLoad.priorityTasks] at hkey
    exact absurd hkey (by simp [BoundedMap.lookup, BoundedMap.empty])
  exact visits_iff_takes hinit (fun s hs => hs.results)
    (fun s l s' hs hno h => (sourced_step hs h).1 hno)
    (fun s l s' hs hno h => (sourced_step hs h).2 hno)

/-- Task 7 gets a record with slice `0` for CPU 0; and the other way, a second
priority record with slice `0`, and is enqueued then. -/
def zeroSliceRuns : List (List (FineLabel twoCpus)) :=
  [[.handle (Env.lowest cpu0) none ⟨7, 0, 0, 0, 42⟩],
   [.handle (Env.lowest cpu0) none ⟨7, 1, 0, 1000, 0⟩,
    .handle (Env.lowest cpu0) none ⟨7, 1, 0, 0, 0⟩, .sys (.enqueue (Env.lowest cpu0) 7 0)]]

/-- Both times the kernel is handed the slice `0`. -/
theorem zero_slice_inserted :
    Started onlyTask7 ∧ ∀ ls ∈ zeroSliceRuns,
      (∃ s, run (sourcedStep plainRodata) (.init onlyTask7) ls = some s ∧
        s.results.any (fun x => x.1.sliceNs = 0 ∧ x.2.slice = 0) = true) ∧
      ¬ ∀ s, Visits (sourcedStep plainRodata) (.init onlyTask7) ls s →
        ∀ x ∈ s.results, TakesSlice plainRodata x.1 x.2 := by
  refine ⟨started_startedWorld _, fun ls hls => ?_⟩
  have heval : ∀ ls ∈ zeroSliceRuns, (run (sourcedStep plainRodata) (.init onlyTask7) ls).map
      (fun s => s.results.any fun x => x.1.sliceNs = 0 ∧ x.2.slice = 0) = some true := by
    decide +kernel
  obtain ⟨s, hs, hany⟩ := Option.map_eq_some_iff.mp (heval ls hls)
  refine ⟨⟨s, hs, hany⟩, fun h => ?_⟩
  obtain ⟨x, hx, hzero⟩ := List.any_eq_true.mp hany
  obtain ⟨htask, hslice⟩ := of_decide_eq_true hzero
  exact not_takesSlice (hslice.trans htask.symm) htask (h s (visits_of_run hs) x hx)

/-- A priority record with a slice of its own, stored and replayed. -/
theorem slices_default_iff_replayed :
    let ls : List (FineLabel twoCpus) :=
      [.handle (Env.lowest cpu0) none ⟨7, 1, 0, 1000, 0⟩, .sys (.enqueue (Env.lowest cpu0) 7 0)]
    (∃ s, run (sourcedStep plainRodata) (.init onlyTask7) ls = some s ∧
      s.results.map (fun x => x.2.slice) = [1000, 1000]) ∧
      ∀ s, Visits (sourcedStep plainRodata) (.init onlyTask7) ls s →
        ∀ x ∈ s.results, TakesSlice plainRodata x.1 x.2 := by
  intro ls
  have heval : (run (sourcedStep plainRodata) (.init onlyTask7) ls).map
      (fun s => s.results.map fun x => x.2.slice) = some [1000, 1000] := by decide +kernel
  refine ⟨Option.map_eq_some_iff.mp heval, (slices_default_iff plainRodata onlyTask7
    (started_startedWorld _) ls).mpr fun s l htake => ?_⟩
  rcases takes_cons htake with ⟨rfl, rfl⟩ | ⟨s₁, hs₁, htake⟩
  · exact fun p _ _ => by decide
  · obtain rfl := Option.some_inj.mp hs₁
    rcases takes_cons htake with ⟨rfl, rfl⟩ | ⟨s₂, -, pre, hpre, -⟩
    · exact fun p _ _ => by decide +kernel
    · exact absurd (List.prefix_nil.mp hpre) (by simp)

end ScxGoland
