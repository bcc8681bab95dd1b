/-
The order in which the kernel calls the callbacks.

`Ordered` adds to the state of the system what the kernel knows: which task runs
on each CPU and since when, the time last read on each CPU, the tasks that
`goland_init_task` has admitted, and the stretches of execution that each of
them has completed.  `inOrder` is what the kernel guarantees: on one CPU
`ops.running()` and `ops.stopping()` alternate, a task that runs stays on its
CPU, is not enqueued and does not exit, and the clock of a CPU does not go
backwards.

* `priority_flags_iff` — a priority task that `goland_enqueue` puts on the local
  queue of a CPU preempts the task that is running there exactly as it should,
  unless that task is the scheduler's main thread, for which `running_task` still
  holds the task that ran before it.
-/
import Mathlib.Data.Fintype.Card
import ScxGoland.DsqInit
import ScxGoland.Frames
import ScxGoland.Runs
import ScxGoland.Custody

namespace ScxGoland

variable {m : Machine}

/-- A stretch of execution that is over; the ids count them through. -/
structure Interval where
  id : ℕ
  start : UInt64
  stop : UInt64
deriving DecidableEq

def Interval.length (i : Interval) : ℕ := i.stop.toNat - i.start.toNat

/-- A task that runs on a CPU, and the time at which it was started. -/
structure Running where
  pid : Int32
  since : UInt64
deriving DecidableEq

structure Ordered (m : Machine) where
  world : World m
  current : Cpu m → Option Running
  -- the time last read on a CPU
  clock : Cpu m → UInt64
  -- `goland_init_task` has returned `0` for the task
  ready : Int32 → Bool
  -- the intervals completed by a task, newest first, and those of them completed
  -- since the last `goland_runnable`
  history : Int32 → List Interval
  recent : Int32 → List Interval
  nextId : ℕ

namespace Ordered

def isRunning (s : Ordered m) (pid : Int32) : Bool :=
  (List.finRange m.nrCpuIds).any fun c => (s.current c).any fun r => r.pid = pid

/-- The step may happen now. -/
def inOrder (s : Ordered m) : Label m → Bool
  | .change p =>
    !s.isRunning p.pid || (s.world.tasks.find p.pid).all fun old => decide (old.cpu = p.cpu)
  | .initTask _ pid => !s.ready pid
  | .runnable pid => s.ready pid && !s.isRunning pid
  | .enqueue _ pid _ => s.ready pid && !s.isRunning pid
  | .running env pid => s.ready pid && !s.isRunning pid &&
    (s.world.tasks.find pid).all fun p =>
      (s.current p.cpu).isNone && decide (s.clock p.cpu ≤ env.now)
  | .stopping env pid => (s.world.tasks.find pid).all fun p =>
    ((s.current p.cpu).any fun r => r.pid = pid) && decide (s.clock p.cpu ≤ env.now)
  | .exitTask pid => !s.isRunning pid
  | _ => true

/-- The task starts on its CPU. -/
def start (s : Ordered m) (c : Cpu m) (pid : Int32) (now : UInt64) : Ordered m :=
  { s with
    current := Function.update s.current c (some ⟨pid, now⟩)
    clock := Function.update s.clock c now }

/-- The task that runs on the CPU stops, and has completed an interval. -/
def stop (s : Ordered m) (c : Cpu m) (r : Running) (now : UInt64) : Ordered m :=
  let i : Interval := ⟨s.nextId, r.since, now⟩
  { s with
    current := Function.update s.current c none
    clock := Function.update s.clock c now
    history := Function.update s.history r.pid (i :: s.history r.pid)
    recent := Function.update s.recent r.pid (i :: s.recent r.pid)
    nextId := s.nextId + 1 }

/-- What the kernel remembers of a step. -/
def observe (s : Ordered m) : Label m → Ordered m
  | .initTask allocs pid =>
    if (s.world.tasks.find pid).any fun p => (golandInitTask allocs p s.world).1 = 0 then
      { s with ready := Function.update s.ready pid true }
    else s
  | .exitTask pid => { s with
      ready := Function.update s.ready pid false
      history := Function.update s.history pid []
      recent := Function.update s.recent pid [] }
  | .runnable pid => { s with recent := Function.update s.recent pid [] }
  | .running env pid =>
    match s.world.tasks.find pid with
    | none => s
    | some p => s.start p.cpu pid env.now
  | .stopping env pid =>
    match s.world.tasks.find pid with
    | none => s
    | some p =>
      match s.current p.cpu with
      | none => s
      | some r => s.stop p.cpu r env.now
  | _ => s

/-- The scheduler has just been started. -/
def init (w : World m) : Ordered m where
  world := w
  current _ := none
  clock _ := 0
  ready _ := false
  history _ := []
  recent _ := []
  nextId := 1

end Ordered

/-- The system, with the callbacks in the order that the kernel guarantees. -/
def orderedStep (ro : Rodata) (s : Ordered m) (l : Label m) : Option (Ordered m) :=
  if s.inOrder l then (step ro s.world l).map fun w => { s.observe l with world := w } else none

theorem orderedStep_eq_some {ro : Rodata} {s s' : Ordered m} {l : Label m} :
    orderedStep ro s l = some s' ↔
      s.inOrder l = true ∧ ∃ w, step ro s.world l = some w ∧ { s.observe l with world := w } = s' := by
  rw [orderedStep]
  split_ifs with h
  · rw [Option.map_eq_some_iff]
    exact ⟨fun hw => ⟨h, hw⟩, fun hw => hw.2⟩
  · simp [h]

theorem isRunning_iff {s : Ordered m} {pid : Int32} :
    s.isRunning pid = true ↔ ∃ c r, s.current c = some r ∧ r.pid = pid := by
  rw [Ordered.isRunning, List.any_eq_true]
  constructor
  · rintro ⟨c, -, hc⟩
    obtain ⟨r, hr, hpid⟩ := Option.any_eq_true _ _ |>.mp hc
    exact ⟨c, r, hr, of_decide_eq_true hpid⟩
  · rintro ⟨c, r, hr, hpid⟩
    exact ⟨c, List.mem_finRange c, by rw [hr]; simpa using hpid⟩

/-! ### Who `running_task` says is running -/

/-- A map whose keys are CPUs has room for one more CPU. -/
theorem room_for_cpu {b : BoundedMap Int32 UInt32 maxCpus} (hm : m.nrCpuIds ≤ maxCpus)
    (hkeys : ∀ k, (b.lookup k).isSome → ∃ c : Cpu m, k = c.toS32) (c : Cpu m) :
    (b.lookup c.toS32).isSome ∨ ¬ b.Full := by
  by_contra hcon
  rw [not_or, not_not] at hcon
  obtain ⟨hnone, hfull⟩ := hcon
  have hsub : b.entries.keys ⊆ (Finset.univ.erase c).image Cpu.toS32 := by
    intro k hk
    have hsome := (b.mem_iff_lookup_isSome k).mp (Finmap.mem_keys.mp hk)
    obtain ⟨c', rfl⟩ := hkeys k hsome
    refine Finset.mem_image_of_mem _ (Finset.mem_erase.mpr ⟨?_, Finset.mem_univ _⟩)
    rintro rfl
    exact hnone hsome
  have hcard := (Finset.card_le_card hsub).trans Finset.card_image_le
  have herase : (Finset.univ.erase c : Finset (Cpu m)).card = m.nrCpuIds - 1 := by
    rw [Finset.card_erase_of_mem (Finset.mem_univ c), Finset.card_univ, Fintype.card_fin]
  have hpos : 0 < m.nrCpuIds := Nat.lt_of_le_of_lt (Nat.zero_le _) c.isLt
  have hfull' : b.entries.keys.card = maxCpus := hfull
  omega

/-- The entry of a CPU names the task that runs there, unless that is the
scheduler's main thread. -/
structure OwnersKnown (ro : Rodata) (s : Ordered m) : Prop where
  keys : ∀ k, (s.world.runningTask.lookup k).isSome → ∃ c : Cpu m, k = c.toS32
  owner : ∀ c r, s.current c = some r → r.pid.toUInt32 ≠ ro.userschedPid →
    s.world.runningTask.lookup c.toS32 = some r.pid.toUInt32

theorem observe_current {s : Ordered m} {l : Label m} (hrun : ∀ env pid, l ≠ .running env pid)
    (hstop : ∀ env pid, l ≠ .stopping env pid) : (s.observe l).current = s.current := by
  cases l with
  | running env pid => exact absurd rfl (hrun env pid)
  | stopping env pid => exact absurd rfl (hstop env pid)
  | initTask allocs pid =>
    rw [Ordered.observe]
    split_ifs <;> rfl
  | _ => rfl

/-- Only `goland_running` changes `running_task`. -/
theorem step_runningTask {ro : Rodata} {w w' : World m} {l : Label m}
    (hrun : ∀ env pid, l ≠ .running env pid) (h : step ro w l = some w') :
    w'.runningTask = w.runningTask := by
  by_cases hl : l.keepsTimes = true
  · exact (step_steady hl h).runningTask
  · cases l with
    | fork p =>
      rw [step] at h
      split_ifs at h
      obtain rfl := Option.some_inj.mp h
      rfl
    | exitTask q =>
      obtain ⟨p, -, rfl⟩ := Option.map_eq_some_iff.mp h
      rfl
    | initTask allocs q =>
      obtain ⟨p, -, rfl⟩ := Option.map_eq_some_iff.mp h
      rw [golandInitTask]
      split
      · rfl
      · dsimp only
        split_ifs <;> rfl
    | runnable q =>
      obtain ⟨p, -, rfl⟩ := Option.map_eq_some_iff.mp h
      rw [golandRunnable]
      split_ifs <;> rfl
    | running env q => exact absurd rfl (hrun env q)
    | stopping env q =>
      obtain ⟨p, -, rfl⟩ := Option.map_eq_some_iff.mp h
      rw [golandStopping]
      split_ifs <;> rfl
    | _ => exact absurd rfl hl

theorem golandRunning_runningTask (ro : Rodata) (env : Env m) (p : TaskStruct m) (w : World m) :
    (golandRunning ro env p w).runningTask =
      if p.pid.toUInt32 = ro.userschedPid then w.runningTask
      else w.runningTask.update p.cpu.toS32 p.pid.toUInt32 := by
  rw [golandRunning, isUserschedTask]
  by_cases h : p.pid.toUInt32 = ro.userschedPid
  · rw [if_pos (decide_eq_true h), if_pos h]
    rfl
  · rw [if_neg (by simpa using h), if_neg h]
    rfl

theorem ownersKnown_step (hm : m.nrCpuIds ≤ maxCpus) {ro : Rodata} {s s' : Ordered m}
    {l : Label m} (hs : OwnersKnown ro s) (h : orderedStep ro s l = some s') :
    OwnersKnown ro s' := by
  obtain ⟨-, w, hw, rfl⟩ := orderedStep_eq_some.mp h
  by_cases hrun : ∃ env pid, l = .running env pid
  · -- a task starts on its CPU, and is written into the map
    obtain ⟨env, pid, rfl⟩ := hrun
    obtain ⟨p, hp, rfl⟩ := Option.map_eq_some_iff.mp hw
    have hpid : p.pid = pid := s.world.tasks.find_pid hp
    have hmap := golandRunning_runningTask ro env p s.world
    constructor
    · intro k hk
      change ((golandRunning ro env p s.world).runningTask.lookup k).isSome = true at hk
      rw [hmap] at hk
      split_ifs at hk with hus
      · exact hs.keys k hk
      · by_cases hkc : k = p.cpu.toS32
        · exact ⟨p.cpu, hkc⟩
        · rw [BoundedMap.lookup_update_ne _ _ hkc] at hk
          exact hs.keys k hk
    · intro c r hr hne
      change (golandRunning ro env p s.world).runningTask.lookup c.toS32 = _
      change (s.observe (.running env pid)).current c = some r at hr
      rw [Ordered.observe, hp] at hr
      change Function.update s.current p.cpu (some ⟨pid, env.now⟩) c = some r at hr
      rw [hmap]
      by_cases hc : c = p.cpu
      · subst hc
        rw [Function.update_self, Option.some_inj] at hr
        subst hr
        rw [if_neg (by rw [hpid]; exact hne), hpid]
        exact BoundedMap.lookup_update_self _ _ _ (room_for_cpu hm hs.keys p.cpu)
      · rw [Function.update_of_ne hc] at hr
        have howner := hs.owner c r hr hne
        split_ifs
        · exact howner
        · rw [BoundedMap.lookup_update_ne _ _ fun h => hc (toS32_injective h)]
          exact howner
  · have hsame := step_runningTask (fun env pid h => hrun ⟨env, pid, h⟩) hw
    refine ⟨fun k hk => hs.keys k (by rwa [← hsame]), fun c r hr hne => ?_⟩
    change w.runningTask.lookup c.toS32 = _
    rw [hsame]
    refine hs.owner c r ?_ hne
    by_cases hstop : ∃ env pid, l = .stopping env pid
    · -- a CPU that is given up has no owner
      obtain ⟨env, pid, rfl⟩ := hstop
      change (s.observe (.stopping env pid)).current c = some r at hr
      rw [Ordered.observe] at hr
      split at hr
      · exact hr
      · rename_i p _
        split at hr
        · exact hr
        · change Function.update s.current p.cpu none c = some r at hr
          by_cases hc : c = p.cpu
          · subst hc
            rw [Function.update_self] at hr
            exact absurd hr (by simp)
          · rwa [Function.update_of_ne hc] at hr
    · rw [← observe_current (fun env pid h => hrun ⟨env, pid, h⟩)
        (fun env pid h => hstop ⟨env, pid, h⟩)]
      exact hr

/-! ### The decision to preempt -/

/-- The flags for a local queue of a CPU on which a task with this pid runs: a
priority task is not preempted. -/
def flagsAgainst (w : World m) (pid : UInt32) : UInt64 :=
  if (w.priorityTasks.lookup pid).isSome then scxEnqHead else scxEnqPreempt

/-- The entry of the CPU is of a priority task. -/
def ownerBoosted (w : World m) (c : Cpu m) : Bool :=
  ((w.runningTask.lookup c.toS32).bind w.priorityTasks.lookup).isSome

theorem prioEnqFlags_eq (w : World m) (c : Cpu m) :
    prioEnqFlags c.toS32 w = if ownerBoosted w c then scxEnqHead else scxEnqPreempt := by
  rw [prioEnqFlags, ownerBoosted]
  rcases w.runningTask.lookup c.toS32 with _ | pid
  · rfl
  · rfl

/-- What an enqueue puts on local queues. -/
theorem enqueue_local_flags {ro : Rodata} {env : Env m} {p : TaskStruct m} {enqFlags : UInt64}
    {w : World m} {e : Event} {es : List Event}
    (hes : (golandEnqueue ro env p enqFlags w).log = es ++ w.log) (he : e ∈ es) :
    ∀ i c, e = .inserted i → i.dsq = .localOn (Cpu.toS32 (m := m) c) →
      i.flags = if ownerBoosted w c then scxEnqHead else scxEnqPreempt := by
  obtain ⟨es', hes', hQ⟩ := (enqueueing_golandEnqueue ro env p enqFlags w).emits
    (Q := fun e => ∀ i c, e = .inserted i → i.dsq = .localOn (Cpu.toS32 (m := m) c) →
      i.flags = if ownerBoosted w c then scxEnqHead else scxEnqPreempt)
    (by rintro e hq i c rfl; exact absurd hq (by simp [Event.quiet]))
    (by rintro i id hid i' c hi hc; obtain rfl := Event.inserted.inj hi; simp [hid] at hc)
    (fun w' hw' slice c _ i c' hi hc' => by
      obtain rfl := Event.inserted.inj hi
      obtain rfl := toS32_injective (DsqId.localOn.inj hc')
      rw [prioEnqFlags_eq, ownerBoosted, ownerBoosted, hw'.priorityTasks, hw'.runningTask])
    (fun w' _ i c hi => absurd hi (by simp))
  obtain rfl : es = es' := List.append_cancel_right (hes.symm.trans hes')
  exact hQ e he

/-- The events of an enqueue step are those of `goland_enqueue` between the call and
the return. -/
theorem newEvents_enqueue_eq {ro : Rodata} {env : Env m} {p : TaskStruct m} {enqFlags : UInt64}
    {w : World m} {es : List Event}
    (hes : (golandEnqueue ro env p enqFlags (w.emit (.enqueueCalled p.pid))).log =
      es ++ (w.emit (.enqueueCalled p.pid)).log) :
    newEvents w ((golandEnqueue ro env p enqFlags (w.emit (.enqueueCalled p.pid))).emit
      (.enqueueReturned p.pid)) = .enqueueReturned p.pid :: es ++ [.enqueueCalled p.pid] := by
  refine newEvents_eq ?_
  show Event.enqueueReturned p.pid :: (golandEnqueue ro env p enqFlags _).log = _
  rw [hes]
  simp [World.emit]

theorem newEvents_enqueue (ro : Rodata) (env : Env m) (p : TaskStruct m) (enqFlags : UInt64)
    (w : World m) :
    ∃ es, (golandEnqueue ro env p enqFlags (w.emit (.enqueueCalled p.pid))).log =
        es ++ (w.emit (.enqueueCalled p.pid)).log ∧
      ∀ e, e ≠ .enqueueCalled p.pid → e ≠ .enqueueReturned p.pid →
        (e ∈ newEvents w ((golandEnqueue ro env p enqFlags (w.emit (.enqueueCalled p.pid))).emit
          (.enqueueReturned p.pid)) ↔ e ∈ es) := by
  obtain ⟨es, hes, -⟩ := (enqueueing_golandEnqueue ro env p enqFlags
    (w.emit (.enqueueCalled p.pid))).appends
  refine ⟨es, hes, fun e hcalled hreturned => ?_⟩
  rw [newEvents_enqueue_eq hes]
  simp [hcalled, hreturned]

/-- **The flags are right exactly when the running task is not the scheduler's main
thread, or the stale entry of its CPU is by chance as good.**  For every run and
every task on whose CPU `goland_enqueue` inserts a priority task. -/
theorem priority_flags_iff (ro : Rodata) (w₀ : World m) (hstart : Started w₀)
    (ls : List (Label m)) (s s' : Ordered m) (env : Env m) (pid : Int32) (enqFlags : UInt64)
    (htake : Runs.Takes (orderedStep ro) (.init w₀) ls s (.enqueue env pid enqFlags))
    (hstep : orderedStep ro s (.enqueue env pid enqFlags) = some s')
    (i : Insertion) (hi : .inserted i ∈ newEvents s.world s'.world)
    (c : Cpu m) (hlocal : i.dsq = .localOn c.toS32)
    (r : Running) (hr : s.current c = some r) :
    i.flags = flagsAgainst s.world r.pid.toUInt32 ↔
      (r.pid.toUInt32 ≠ ro.userschedPid ∨
        ownerBoosted s.world c = (s.world.priorityTasks.lookup ro.userschedPid).isSome) := by
  have hm := hstart.nrCpuIds_le
  have hinit : OwnersKnown ro (Ordered.init w₀) := by
    refine ⟨fun k hk => ?_, fun c r hr => absurd hr (by simp [Ordered.init])⟩
    rw [show (Ordered.init w₀).world = w₀ from rfl, hstart.atLoad.runningTask] at hk
    exact absurd hk (by simp [BoundedMap.lookup, BoundedMap.empty])
  obtain ⟨pre, hpre, hrun, -⟩ := htake
  have hs : OwnersKnown ro s := Runs.invariant hinit
    (fun _ _ _ ht hstep => ownersKnown_step hm ht hstep) pre s (Runs.visits_of_run hrun)
  -- the flags of the insertion, read off `running_task`
  have hflags : i.flags = if ownerBoosted s.world c then scxEnqHead else scxEnqPreempt := by
    obtain ⟨-, w, hw, rfl⟩ := orderedStep_eq_some.mp hstep
    obtain ⟨p, hp, rfl⟩ := Option.map_eq_some_iff.mp hw
    obtain rfl : p.pid = pid := s.world.tasks.find_pid hp
    obtain ⟨es, hes, hmem⟩ := newEvents_enqueue ro env p enqFlags s.world
    have hmem := (hmem (.inserted i) (by simp) (by simp)).mp hi
    exact enqueue_local_flags hes hmem i c rfl hlocal
  rw [hflags, flagsAgainst]
  by_cases hus : r.pid.toUInt32 = ro.userschedPid
  · rw [hus]
    have hne : scxEnqHead ≠ scxEnqPreempt := by decide
    cases ownerBoosted s.world c <;>
      cases (s.world.priorityTasks.lookup ro.userschedPid).isSome <;> simp [hne, hne.symm]
  · -- any other task is the one that `running_task` names
    have howner := hs.owner c r hr hus
    simp [hus, ownerBoosted, howner]

/-- Tasks 1 (the scheduler), 7 and 8, all on CPU 0. -/
def threeTasks : TaskTable twoCpus :=
  (((TaskTable.empty twoCpus).set (plainTask 1)).set (plainTask 7)).set (plainTask 8)

/-- The three tasks are admitted, and user space gives tasks 7 and 8 priority. -/
def boost7And8 : List (Label twoCpus) :=
  [.initTask ⟨true, true, true⟩ 1, .initTask ⟨true, true, true⟩ 7, .initTask ⟨true, true, true⟩ 8,
    .push (fastEncode ⟨7, 0, 0, 1000, 0, 0⟩), .dispatch (Env.lowest cpu0) cpu0 none,
    .push (fastEncode ⟨8, 0, 0, 1000, 0, 0⟩), .dispatch (Env.lowest cpu0) cpu0 none]

def runs8 : List (Label twoCpus) := [.running (Env.lowest cpu0) 8]

/-- The scheduler's main thread follows task 8 on CPU 0. -/
def runs8Then1 : List (Label twoCpus) :=
  runs8 ++ [.stopping (Env.lowest cpu0) 8, .running (Env.lowest cpu0) 1]

def enqueue7 : Label twoCpus := .enqueue (Env.lowest cpu0) 7 0

/-- What the enqueue of task 7 does after a run: whether it makes the insertion `i`,
and who runs on CPU 0 at the time. -/
def enqueues7 (ls : List (Label twoCpus)) (i : Insertion) :
    Option (Bool × Option Running × Option UInt64) :=
  (Runs.run (orderedStep plainRodata) (Ordered.init (startedWorld threeTasks)) ls).bind fun s =>
    (orderedStep plainRodata s enqueue7).map fun s' =>
      (decide (.inserted i ∈ newEvents s.world s'.world), s.current cpu0,
        (s.current cpu0).bind fun r => s.world.priorityTasks.lookup r.pid.toUInt32)

theorem enqueues7_eq_some {ls : List (Label twoCpus)} {i : Insertion} {r : Running}
    {slice : Option UInt64} (h : enqueues7 ls i = some (true, some r, slice)) :
    ∃ s s', Runs.Takes (orderedStep plainRodata) (Ordered.init (startedWorld threeTasks))
        (ls ++ [enqueue7]) s enqueue7 ∧ orderedStep plainRodata s enqueue7 = some s' ∧
      .inserted i ∈ newEvents s.world s'.world ∧ s.current cpu0 = some r ∧
      s.world.priorityTasks.lookup r.pid.toUInt32 = slice := by
  obtain ⟨s, hs, h⟩ := Option.bind_eq_some_iff.mp h
  obtain ⟨s', hs', h⟩ := Option.map_eq_some_iff.mp h
  rw [Prod.mk.injEq, Prod.mk.injEq, decide_eq_true_eq] at h
  obtain ⟨hi, hr, hslice⟩ := h
  rw [hr] at hslice
  exact ⟨s, s', ⟨ls, List.prefix_refl _, hs, by rw [hs']; rfl⟩, hs', hi, hr, hslice⟩

/-- The priority task 8 has left CPU 0 to the scheduler's main thread, which is no
priority task; task 7 is enqueued as if task 8 were still running. -/
theorem stale_owner_not_preempted :
    let s₀ := Ordered.init (startedWorld threeTasks)
    let ls := boost7And8 ++ runs8Then1 ++ [enqueue7]
    let i : Insertion := ⟨7, .localOn cpu0.toS32, 1000, none, scxEnqHead⟩
    Started s₀.world ∧ ∃ s s', Runs.Takes (orderedStep plainRodata) s₀ ls s enqueue7 ∧
      orderedStep plainRodata s enqueue7 = some s' ∧
      .inserted i ∈ newEvents s.world s'.world ∧ s.current cpu0 = some ⟨1, 0⟩ ∧
      i.flags ≠ flagsAgainst s.world 1 := by
  intro s₀ ls i
  have hrun : enqueues7 (boost7And8 ++ runs8Then1) i = some (true, some ⟨1, 0⟩, none) := by
    decide +kernel
  obtain ⟨s, s', htake, hstep, hi, hr, hnone⟩ := enqueues7_eq_some hrun
  refine ⟨started_startedWorld _, s, s', htake, hstep, hi, hr, ?_⟩
  change s.world.priorityTasks.lookup 1 = none at hnone
  rw [flagsAgainst, hnone]
  decide

/-- While task 8 is running on CPU 0, it is not preempted. -/
theorem priority_flags_iff_running_8 :
    let s₀ := Ordered.init (startedWorld threeTasks)
    let ls := boost7And8 ++ runs8 ++ [enqueue7]
    let i : Insertion := ⟨7, .localOn cpu0.toS32, 1000, none, scxEnqHead⟩
    ∃ s s', Runs.Takes (orderedStep plainRodata) s₀ ls s enqueue7 ∧
      orderedStep plainRodata s enqueue7 = some s' ∧
      .inserted i ∈ newEvents s.world s'.world ∧ s.current cpu0 = some ⟨8, 0⟩ ∧
      i.flags = flagsAgainst s.world 8 := by
  intro s₀ ls i
  have hrun : enqueues7 (boost7And8 ++ runs8) i = some (true, some ⟨8, 0⟩, some 1000) := by
    decide +kernel
  obtain ⟨s, s', htake, hstep, hi, hr, -⟩ := enqueues7_eq_some hrun
  exact ⟨s, s', htake, hstep, hi, hr, (priority_flags_iff plainRodata _ (started_startedWorld _) ls
    s s' _ 7 0 htake hstep i hi cpu0 rfl ⟨8, 0⟩ hr).mpr (Or.inl (by decide))⟩

end ScxGoland
