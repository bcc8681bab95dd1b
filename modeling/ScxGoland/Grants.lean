/-
Priority, and who grants it.

`dispatch_task` puts the pid of a record with `vtime == 0` into `priority_tasks`, and
`goland_enqueue` runs the tasks it finds there at once, on the local queue of a CPU.
User space may write any bytes into the user ring, and tasks come and go.

* `grants_step`, `grants_of_run` — every entry of the map is of a live task, and
  comes from a record of the run;
* `priority_only_by_grant` — nothing else gets priority: neither in the map, nor on a
  local queue.
-/
import ScxGoland.KernelOrder
import ScxGoland.Transport

open Runs

namespace ScxGoland

variable {m : Machine}

/-- User space has written a record that gives the task priority, with this slice. -/
def GrantedIn (ls : List (Label m)) (pid : Int32) (slice : UInt64) : Prop :=
  ∃ data task, .push data ∈ ls ∧ dynptrData data = some task ∧ task.pid = pid ∧ task.vtime = 0 ∧
    task.sliceNs = slice

theorem GrantedIn.mono {ls : List (Label m)} {pid : Int32} {slice : UInt64}
    (h : GrantedIn ls pid slice) (l : Label m) : GrantedIn (ls ++ [l]) pid slice := by
  obtain ⟨data, task, hpush, hdata⟩ := h
  exact ⟨data, task, List.mem_append_left _ hpush, hdata⟩

/-- The entries of `priority_tasks` are of live tasks, and have been granted. -/
def MapGranted (ls : List (Label m)) (w : World m) : Prop :=
  ∀ pid slice, w.priorityTasks.lookup (Int32.toUInt32 pid) = some slice →
    (w.tasks.find pid).isSome = true ∧ GrantedIn ls pid slice

/-- So are those that the samples in the ring may lead to. -/
structure Grants (ls : List (Label m)) (w : World m) : Prop where
  ring : ∀ data ∈ w.dispatched, .push data ∈ ls
  map : MapGranted ls w

theorem MapGranted.of_eq {ls : List (Label m)} {w w' : World m} (h : MapGranted ls w)
    (hmap : w'.priorityTasks = w.priorityTasks)
    (hlive : ∀ pid, (w'.tasks.find pid).isSome = (w.tasks.find pid).isSome) : MapGranted ls w' := by
  intro pid slice hpid
  rw [hmap] at hpid
  rw [hlive]
  exact h pid slice hpid

theorem Grants.of_eq {ls : List (Label m)} {w w' : World m} (h : Grants ls w)
    (hring : w'.dispatched = w.dispatched) (hmap : w'.priorityTasks = w.priorityTasks)
    (hlive : ∀ pid, (w'.tasks.find pid).isSome = (w.tasks.find pid).isSome) : Grants ls w' :=
  ⟨by rw [hring]; exact h.ring, h.map.of_eq hmap hlive⟩

theorem Grants.of_quiet {ls : List (Label m)} {w w' : World m} (h : Grants ls w)
    (hq : Quiet w w') : Grants ls w' :=
  h.of_eq hq.dispatched hq.priorityTasks fun pid => by rw [hq.tasks]

theorem Grants.mono {ls : List (Label m)} {w : World m} (h : Grants ls w) (l : Label m) :
    Grants (ls ++ [l]) w :=
  ⟨fun data hdata => List.mem_append_left _ (h.ring data hdata),
    fun pid slice hpid => ⟨(h.map pid slice hpid).1, (h.map pid slice hpid).2.mono l⟩⟩

/-! ### One dispatch -/

/-- A record of the run puts at most its own task into the map. -/
theorem mapGranted_dispatchTask {ls : List (Label m)} {data : Bytes} {task : DispatchedTaskCtx}
    (hpush : .push data ∈ ls) (hdata : dynptrData data = some task) (env : Env m) {w : World m}
    (h : MapGranted ls w) : MapGranted ls (dispatchTask env none task w) := by
  intro pid slice hpid
  rw [(dispatching_dispatchTask env none task w).untouched.live pid]
  by_cases hother : pid = task.pid
  · subst hother
    rcases hp : w.tasks.find task.pid with _ | p
    · rw [dispatchTask_dead env task none hp] at hpid
      have hold := h task.pid slice hpid
      rw [hp] at hold
      exact hold
    · refine ⟨rfl, ?_⟩
      rw [dispatchTask_priorityTasks env hp] at hpid
      split_ifs at hpid with hcpu hv
      · exact ⟨data, task, hpush, hdata, rfl, hv, BoundedMap.eq_of_lookup_update hpid⟩
      · rw [BoundedMap.lookup_delete, if_pos rfl] at hpid
        exact absurd hpid (by simp)
      · exact (h task.pid slice hpid).2
  · rw [lookup_dispatchTask_ne env task w hother] at hpid
    exact h pid slice hpid

theorem Grants.drainDispatched {ls : List (Label m)} {w : World m} (h : Grants ls w) (env : Env m) :
    Grants ls (drainDispatched env (fun _ => none) w) := by
  have hsamples : ∀ s ∈ w.dispatched.mapIdx fun _ data => (⟨data, none⟩ : Sample m),
      s.race = none ∧ .push s.data ∈ ls := by
    intro s hs
    obtain ⟨i, hi, rfl⟩ := List.mem_mapIdx.mp hs
    exact ⟨rfl, h.ring _ (List.getElem_mem hi)⟩
  constructor
  · exact fun data hdata => h.ring data (mem_of_mem_drainDispatched hdata)
  · refine drain_rule (P := MapGranted ls) (fun s hs w hw => ?_) h.map
    obtain ⟨hrace, hpush⟩ := hsamples s hs
    rw [handleDispatchedTask]
    split
    · exact hw
    · rename_i task htask
      rw [hrace]
      exact mapGranted_dispatchTask hpush htask env hw

theorem grants_golandDispatch (ro : Rodata) (env : Env m) (cpu : Cpu m) (prev : Option Int32)
    {ls : List (Label m)} {w : World m} (h : Grants ls w) :
    Grants ls (golandDispatch ro env (fun _ => none) cpu prev w) := by
  refine golandDispatch_keeps (fun w h => ?_) (fun w h => h.drainDispatched env)
    (fun w h => h.of_quiet (Quiet.cpuToDsq w _)) (fun w dsq h => h.of_eq rfl rfl fun _ => rfl)
    (fun w h => ?_) h
  · have hlive := (dispatching_dispatchUserScheduler ro
      { w with userschedNeeded := false }).untouched.live
    obtain ⟨hring, hmap⟩ := dispatchUserScheduler_frame ro { w with userschedNeeded := false }
    exact h.of_eq hring hmap hlive
  · obtain ⟨hring, hmap⟩ := keepRunning_frame ro cpu prev w
    refine h.of_eq hring hmap ?_
    rcases keepRunning_cases ro cpu prev w with ⟨-, heq⟩ | ⟨-, hsame⟩
    · rw [heq]
      exact fun _ => rfl
    · exact hsame.live

/-! ### Runs -/

theorem grants_step {ro : Rodata} {ls : List (Label m)} {w w' : World m} {l : Label m}
    (h : Grants ls w) (hstep : step ro w l = some w') : Grants (ls ++ [l]) w' := by
  have hold := h.mono l
  cases l with
  | dispatch env cpu prev =>
    obtain rfl := Option.some_inj.mp hstep
    exact grants_golandDispatch ro env cpu prev hold
  | push data =>
    obtain rfl := Option.some_inj.mp hstep
    refine ⟨fun d hd => ?_, hold.map⟩
    rcases List.mem_append.mp hd with hd | hd
    · exact hold.ring d hd
    · rw [List.mem_singleton.mp hd]
      exact List.mem_append_right _ (List.mem_singleton_self _)
  | exitTask pid =>
    -- the task takes its entry along
    obtain ⟨p, hp, rfl⟩ := Option.map_eq_some_iff.mp hstep
    have hpid : p.pid = pid := w.tasks.find_pid hp
    refine ⟨hold.ring, fun q slice hq => ?_⟩
    change (w.priorityTasks.delete p.pid.toUInt32).lookup q.toUInt32 = some slice at hq
    rw [BoundedMap.lookup_delete, hpid] at hq
    split_ifs at hq with hsame
    have hne : q ≠ pid := fun heq => hsame (by rw [heq])
    refine ⟨?_, (hold.map q slice hq).2⟩
    show ((w.tasks.remove pid).find q).isSome = true
    rw [TaskTable.find_remove_ne _ hne]
    exact (hold.map q slice hq).1
  | fork p =>
    rw [step] at hstep
    split_ifs at hstep
    obtain rfl := Option.some_inj.mp hstep
    exact ⟨hold.ring, fun q slice hq =>
      ⟨w.tasks.isSome_find_set p (hold.map q slice hq).1, (hold.map q slice hq).2⟩⟩
  | _ =>
    exact hold.of_eq (step_dispatched (by simp) (by simp) hstep) (step_priorityTasks rfl hstep)
      (step_live (by simp) (by simp) hstep)

theorem grants_of_run {ro : Rodata} {w₀ w : World m} {ls : List (Label m)} (hstart : Started w₀)
    (hrun : run (step ro) w₀ ls = some w) : Grants ls w := by
  induction ls using List.reverseRecOn generalizing w with
  | nil =>
    rw [run_nil, Option.some_inj] at hrun
    subst hrun
    refine ⟨fun data hdata => ?_, fun pid slice hpid => ?_⟩
    · rw [hstart.atLoad.dispatched] at hdata
      exact absurd hdata (by simp)
    · rw [hstart.atLoad.priorityTasks] at hpid
      exact absurd hpid (by simp [BoundedMap.lookup, BoundedMap.empty])
  | append_singleton ls l ih =>
    obtain ⟨u, hu, hl⟩ := run_concat_eq_some.mp hrun
    exact grants_step (ih hu) hl

/-- What an enqueue puts on local queues is in `priority_tasks`. -/
theorem enqueue_local_slice {ro : Rodata} {env : Env m} {p : TaskStruct m} {enqFlags : UInt64}
    {w : World m} {e : Event} {es : List Event}
    (hes : (golandEnqueue ro env p enqFlags w).log = es ++ w.log) (he : e ∈ es) :
    ∀ i c, e = .inserted i → i.dsq = .localOn (Cpu.toS32 (m := m) c) →
      i.pid = p.pid ∧ w.priorityTasks.lookup p.pid.toUInt32 = some i.slice := by
  obtain ⟨es', hes', hQ⟩ := (enqueueing_golandEnqueue ro env p enqFlags w).emits
    (Q := fun e => ∀ i c, e = .inserted i → i.dsq = .localOn (Cpu.toS32 (m := m) c) →
      i.pid = p.pid ∧ w.priorityTasks.lookup p.pid.toUInt32 = some i.slice)
    (by rintro e hq i c rfl; exact absurd hq (by simp [Event.quiet]))
    (by rintro i id hid i' c hi hc; obtain rfl := Event.inserted.inj hi; simp [hid] at hc)
    (fun w' _ slice c hslice i c' hi _ => by
      obtain rfl := Event.inserted.inj hi
      exact ⟨rfl, hslice⟩)
    (fun w' _ i c hi => absurd hi (by simp))
  obtain rfl : es = es' := List.append_cancel_right (hes.symm.trans hes')
  exact hQ e he

/-- **Only user space grants priority.**  After every run, with tasks that come and go
and any bytes in the user ring: every entry of `priority_tasks` is of a live task, and
its slice is that of a record with `vtime == 0` that user space has written for this
pid; and whatever `goland_enqueue` then inserts into the local queue of a CPU is its
own task, with such a slice. -/
theorem priority_only_by_grant (ro : Rodata) (w₀ : World m) (hstart : Started w₀)
    (ls : List (Label m)) (w : World m) (hrun : run (step ro) w₀ ls = some w) :
    (∀ pid slice, w.priorityTasks.lookup (Int32.toUInt32 pid) = some slice →
      (w.tasks.find pid).isSome = true ∧ GrantedIn ls pid slice) ∧
    ∀ env pid enqFlags w', step ro w (.enqueue env pid enqFlags) = some w' →
      ∀ i, .inserted i ∈ newEvents w w' → ∀ c : Cpu m, i.dsq = .localOn c.toS32 →
        i.pid = pid ∧ GrantedIn ls pid i.slice := by
  have hgrants := grants_of_run hstart hrun
  refine ⟨hgrants.map, fun env pid enqFlags w' hstep i hi c hlocal => ?_⟩
  obtain ⟨p, hp, rfl⟩ := Option.map_eq_some_iff.mp hstep
  obtain rfl : p.pid = pid := w.tasks.find_pid hp
  obtain ⟨es, hes, hmem⟩ := newEvents_enqueue ro env p enqFlags w
  have hmem := (hmem (.inserted i) (by simp) (by simp)).mp hi
  obtain ⟨hpid, hslice⟩ := enqueue_local_slice hes hmem i c rfl hlocal
  exact ⟨hpid, (hgrants.map p.pid i.slice hslice).2⟩

/-- Task 7 has been given priority with a slice of 1000, and is enqueued. -/
theorem priority_only_by_grant_task7 :
    ∃ w w', run (step plainRodata) (startedWorld threeTasks) boost7And8 = some w ∧
      step plainRodata w enqueue7 = some w' ∧
      .inserted ⟨7, .localOn cpu0.toS32, 1000, none, scxEnqPreempt⟩ ∈ newEvents w w' ∧
      w.priorityTasks.lookup 7 = some 1000 ∧ GrantedIn boost7And8 7 1000 := by
  have hrun : ((run (step plainRodata) (startedWorld threeTasks) boost7And8).bind fun w =>
      (step plainRodata w enqueue7).map fun w' =>
        (decide (.inserted ⟨7, .localOn cpu0.toS32, 1000, none, scxEnqPreempt⟩ ∈ newEvents w w'),
          w.priorityTasks.lookup 7)) = some (true, some 1000) := by decide +kernel
  obtain ⟨w, hw, h⟩ := Option.bind_eq_some_iff.mp hrun
  obtain ⟨w', hw', h⟩ := Option.map_eq_some_iff.mp h
  obtain ⟨hins, hmap⟩ := Prod.mk.inj h
  have hins := of_decide_eq_true hins
  have hgrant := priority_only_by_grant plainRodata _ (started_startedWorld _) boost7And8 w hw
  exact ⟨w, w', hw, hw', hins, hmap, (hgrant.2 _ 7 0 w' hw' _ hins cpu0 rfl).2⟩

end ScxGoland
