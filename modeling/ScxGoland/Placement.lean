/-
Where the callbacks put tasks.

The tables `directInsertions`, `enqueueInsertions` and `recordInsertions` say which
insertions a callback performs.  Here the tables are read: whether a task may run where
it is put, and what was known of the CPU.

* `affinity_respected_iff` — in every run, a task goes into a queue of a CPU only
  if it may run there, unless it is enqueued on the CPU it last ran on without
  looking: kernel threads, and priority tasks without an idle CPU;
* `direct_dispatch_never_overtakes` — a direct dispatch goes to a CPU that was idle
  and with nothing waiting in front of the task.
-/
import ScxGoland.Ejection

open Runs

namespace ScxGoland

variable {m : Machine}

/-- The insertion goes into a queue of the CPU. -/
def Insertion.Targets (i : Insertion) (c : Cpu m) : Prop :=
  i.dsq = .localOn c.toS32 ∨ i.dsq = .user (UInt64.ofNat c.val)

/-! ### Affinity -/

/-- A CPU in whose queue the task is inserted is one that it may use. -/
def Allowed (w : World m) (i : Insertion) : Prop :=
  ∀ c : Cpu m, i.Targets c → ∃ p, w.tasks.find i.pid = some p ∧ c ∈ p.cpusPtr

/-- All insertions between the two worlds are allowed. -/
def RespectsAffinity (w w' : World m) : Prop := ∀ i ∈ newInsertions w w', Allowed w i

/-- `goland_enqueue` puts the task on the CPU it last ran on, without a look at its
affinity. -/
def OnTaskCpu (ro : Rodata) (env : Env m) (p : TaskStruct m) (enqFlags : UInt64) (w : World m) :
    Prop :=
  isUserschedTask ro p = false ∧ isBelongUserschedTask ro p = false ∧
    (isKernelTask ro p = true ∨
      ((enqueueDirect ro env p enqFlags w).dispatched = false ∧
        (w.priorityTasks.lookup p.pid.toUInt32).isSome = true ∧
        p.cpusPtr ∩ (enqueueDirect ro env p enqFlags w).world.idle = ∅))

/-- A task that is enqueued so may use that CPU. -/
def TaskCpuAllowed (ro : Rodata) (w : World m) : Label m → Prop
  | .enqueue env pid enqFlags => ∀ p, w.tasks.find pid = some p →
    OnTaskCpu ro env p enqFlags (w.emit (.enqueueCalled pid)) → p.cpu ∈ p.cpusPtr
  | _ => True

theorem Allowed.of_untouched {w w' : World m} {i : Insertion}
    (htasks : (w'.tasks.find i.pid).map TaskStruct.unsliced =
      (w.tasks.find i.pid).map TaskStruct.unsliced) (h : Allowed w' i) : Allowed w i := by
  intro c hc
  obtain ⟨p', hp', hmem⟩ := h c hc
  rw [hp', Option.map_some] at htasks
  obtain ⟨p, hp, hsame⟩ := Option.map_eq_some_iff.mp htasks.symm
  have hmask := congrArg TaskStruct.cpusPtr hsame
  change p.cpusPtr = p'.cpusPtr at hmask
  exact ⟨p, hp, hmask ▸ hmem⟩

section Targets

variable (hm : m.nrCpuIds ≤ maxCpus) {i : Insertion} {c : Cpu m}

include hm in
/-- `SHARED_DSQ` and `SCHED_DSQ` are no queues of a CPU. -/
theorem not_targets_of_le {id : UInt64} (hdsq : i.dsq = .user id) (hid : maxCpus ≤ id.toNat) :
    ¬ i.Targets c := by
  have hlt : c.val < maxCpus := lt_of_lt_of_le c.isLt hm
  rw [Insertion.Targets, hdsq]
  rintro (h | h)
  · exact absurd h (by simp)
  · rw [DsqId.user.inj h, UInt64.toNat_ofNat_of_lt' (lt_trans hlt (by decide))] at hid
    omega

include hm in
theorem targets_cpu {c' : Cpu m} (hdsq : i.dsq = .user (UInt64.ofNat c'.val)) :
    i.Targets c ↔ c = c' := by
  have hlt : ∀ c : Cpu m, c.val < UInt64.size := fun c =>
    lt_trans (lt_of_lt_of_le c.isLt hm) (by decide)
  rw [Insertion.Targets, hdsq]
  constructor
  · rintro (h | h)
    · exact absurd h (by simp)
    · have hnat := congrArg UInt64.toNat (DsqId.user.inj h)
      rw [UInt64.toNat_ofNat_of_lt' (hlt c'), UInt64.toNat_ofNat_of_lt' (hlt c)] at hnat
      exact Fin.ext hnat.symm
  · rintro rfl
    exact Or.inr rfl

theorem targets_local {c' : Cpu m} (hdsq : i.dsq = .localOn c'.toS32) : i.Targets c ↔ c = c' := by
  rw [Insertion.Targets, hdsq]
  constructor
  · rintro (h | h)
    · exact toS32_injective (DsqId.localOn.inj h).symm
    · exact absurd h (by simp)
  · rintro rfl
    exact Or.inl rfl

end Targets

section Affinity

variable (hm : m.nrCpuIds ≤ maxCpus) (ro : Rodata) (env : Env m) (p : TaskStruct m)
  (enqFlags : UInt64) (w : World m)

include hm in
/-- A direct dispatch is to a CPU that has passed the test. -/
theorem directInsertions_eq_nil_or (prevCpu : Int32) :
    directInsertions ro env p enqFlags w prevCpu = [] ∨
      ∃ c ∈ p.cpusPtr, DirectTo ro env p w prevCpu c.toS32 ∧
        directInsertions ro env p enqFlags w prevCpu =
          [⟨p.pid, .user (UInt64.ofNat c.val), scxSliceDfl, some p.dsqVtime, enqFlags⟩] := by
  rw [directInsertions]
  split_ifs with hto
  · obtain ⟨c, hmem, hc⟩ := exists_cpu_of_test hto.2.2.1
    rw [hc] at hto ⊢
    rw [cpuToDsq_cpu hm]
    exact Or.inr ⟨c, hmem, hto, rfl⟩
  · exact Or.inl rfl

include hm in
theorem direct_allowed (prevCpu : Int32) {i : Insertion} {c : Cpu m}
    (hi : i ∈ directInsertions ro env p enqFlags w prevCpu) (hc : i.Targets c) :
    c ∈ p.cpusPtr := by
  rcases directInsertions_eq_nil_or hm ro env p enqFlags w prevCpu with
    hnil | ⟨c', hmem, -, heq⟩
  · rw [hnil] at hi
    exact absurd hi List.not_mem_nil
  · rw [heq, List.mem_singleton] at hi
    subst hi
    rwa [(targets_cpu hm rfl).mp hc]

/-- The CPU of the priority path is allowed, unless it is a fallback that is not. -/
theorem priorityCpu_mem_iff :
    priorityCpu env p w ∈ p.cpusPtr ↔ (p.cpusPtr ∩ w.idle = ∅ → p.cpu ∈ p.cpusPtr) := by
  rw [priorityCpu]
  rcases hpick : env.pick (p.cpusPtr ∩ w.idle) with _ | c
  · have hempty : p.cpusPtr ∩ w.idle = ∅ := by
      by_contra hne
      have hsome := env.pick_isSome (Finset.nonempty_iff_ne_empty.mpr hne)
      rw [hpick] at hsome
      exact absurd hsome (by simp)
    simp [hempty]
  · have hmem := env.pick_mem hpick
    have hne : p.cpusPtr ∩ w.idle ≠ ∅ := Finset.ne_empty_of_mem hmem
    simp [hne, (Finset.mem_inter.mp hmem).1]

theorem priority_allowed_iff :
    (∀ i ∈ priorityInsertions env p w, ∀ c : Cpu m, i.Targets c → c ∈ p.cpusPtr) ↔
      ((w.priorityTasks.lookup p.pid.toUInt32).isSome = true → p.cpusPtr ∩ w.idle = ∅ →
        p.cpu ∈ p.cpusPtr) := by
  rw [← priorityCpu_mem_iff env, priorityInsertions]
  rcases w.priorityTasks.lookup p.pid.toUInt32 with _ | slice
  · simp
  · constructor
    · exact fun h _ => h _ List.mem_cons_self _ ((targets_local rfl).mpr rfl)
    · intro h i hi c hc
      rw [List.mem_singleton.mp hi] at hc
      rw [(targets_local rfl).mp hc]
      exact h rfl

include hm in
/-- **What `goland_enqueue` inserts into queues of CPUs is allowed** iff the CPU that it
uses without a look is. -/
theorem enqueue_allowed_iff :
    (∀ i ∈ enqueueInsertions ro env p enqFlags w, ∀ c : Cpu m, i.Targets c → c ∈ p.cpusPtr) ↔
      (OnTaskCpu ro env p enqFlags w → p.cpu ∈ p.cpusPtr) := by
  have hspec := enqueueDirect_spec ro env p enqFlags w
  rw [enqueueInsertions, OnTaskCpu]
  by_cases hus : isUserschedTask ro p = true
  · simp [hus]
  rw [if_neg hus]
  by_cases hown : isBelongUserschedTask ro p = true
  · rw [if_pos hown]
    refine ⟨fun _ h => absurd (hown.symm.trans h.2.1) (by simp), fun _ i hi c hc => ?_⟩
    rw [List.mem_singleton.mp hi] at hc
    exact absurd hc (not_targets_of_le hm rfl (by decide))
  rw [if_neg hown]
  have hclear : isUserschedTask ro p = false ∧ isBelongUserschedTask ro p = false := by
    simpa using And.intro hus hown
  by_cases hkernel : isKernelTask ro p = true
  · rw [if_pos hkernel, cpuToDsq_cpu hm]
    constructor
    · exact fun h _ => h _ List.mem_cons_self p.cpu ((targets_cpu hm rfl).mpr rfl)
    · intro h i hi c hc
      rw [List.mem_singleton.mp hi] at hc
      rw [(targets_cpu hm rfl).mp hc]
      exact h ⟨hclear.1, hclear.2, Or.inl hkernel⟩
  rw [if_neg hkernel]
  dsimp only
  by_cases hdisp : (enqueueDirect ro env p enqFlags w).dispatched = true
  · rw [if_pos hdisp]
    refine ⟨fun _ h => ?_, fun _ i hi c hc => direct_allowed hm ro env p enqFlags w _ hi hc⟩
    rcases h.2.2 with hk | ⟨hno, -⟩
    · exact absurd hk hkernel
    · exact absurd (hdisp.symm.trans hno) (by simp)
  rw [if_neg hdisp, List.forall_mem_append]
  -- the ring path uses no queue of a CPU
  have hring : ∀ i ∈ ringInsertions p enqFlags w, ∀ c : Cpu m, i.Targets c → c ∈ p.cpusPtr := by
    intro i hi c hc
    rw [ringInsertions] at hi
    split_ifs at hi
    · exact absurd hi List.not_mem_nil
    · rw [List.mem_singleton.mp hi] at hc
      exact absurd hc (not_targets_of_le hm rfl (by decide))
  rw [and_iff_right hring, priority_allowed_iff, hspec.priorityTasks]
  simp [hclear, hkernel, hdisp]

include hm in
/-- A record that names a CPU outside of the task's affinity goes to `SHARED_DSQ`. -/
theorem record_allowed (task : DispatchedTaskCtx) {i : Insertion}
    (hi : i ∈ recordInsertions task w) : Allowed w i := by
  rw [recordInsertions] at hi
  rcases hp : w.tasks.find task.pid with _ | p
  · rw [hp] at hi
    exact absurd hi List.not_mem_nil
  · have hpid := w.tasks.find_pid hp
    rw [hp] at hi
    dsimp only at hi
    intro c hc
    split_ifs at hi with hshared hskip
    · rw [List.mem_singleton.mp hi] at hc
      exact absurd hc (not_targets_of_le hm rfl (by decide))
    · exact absurd hi List.not_mem_nil
    · obtain ⟨c', hmem, hc'⟩ := exists_cpu_of_test
        (Bool.not_eq_false _ ▸ (not_or.mp hshared).2 : bpfCpumaskTestCpu task.cpu p.cpusPtr = true)
      rw [hc', cpuToDsq_cpu hm, List.mem_singleton] at hi
      subst hi
      rw [(targets_cpu hm rfl).mp hc]
      exact ⟨p, hpid ▸ hp, hmem⟩

include hm in
theorem dispatch_allowed (races : ℕ → Option (CpuMask m)) (cpu : Cpu m) (prev : Option Int32)
    (hbuf : w.buf = []) :
    ∃ is, Performs is w (golandDispatch ro env races cpu prev w) ∧ ∀ i ∈ is, Allowed w i := by
  -- the scheduler's own task goes to `SCHED_DSQ`
  obtain ⟨is, his, hsched⟩ : ∃ is, Performs is w (takeWakeup ro w) ∧ ∀ i ∈ is, Allowed w i := by
    rw [takeWakeup]
    split_ifs
    · rw [dispatchUserScheduler]
      split
      · exact ⟨[], ⟨[_], rfl, rfl⟩, by simp⟩
      · refine ⟨[_], ⟨[.inserted _], insert_dispatch_log _ _ (by rw [hbuf]; decide), rfl⟩, ?_⟩
        intro i hi c hc
        rw [List.mem_singleton.mp hi] at hc
        exact absurd hc (not_targets_of_le hm rfl (by decide))
    · exact ⟨[], Performs.of_log rfl, by simp⟩
  have htasks := (dispatching_takeWakeup ro w).untouched.tasks
  -- and records to where they may
  obtain ⟨is', his', hrec⟩ : ∃ is', Performs is' (takeWakeup ro w)
      (drainDispatched env races (takeWakeup ro w)) ∧ ∀ i ∈ is', Allowed (takeWakeup ro w) i :=
    drainDispatched_rule (R := fun w w' => ∃ is, Performs is w w' ∧ ∀ i ∈ is, Allowed w i)
      (takeWakeup_buf ro hbuf) ⟨[], Performs.of_log rfl, by simp⟩
      (fun i task hroom => ⟨_, dispatchTask_performs env (races i) task hroom,
        fun _ => record_allowed hm _ task⟩)
      (by
        rintro w' dispatched ⟨is, h, hall⟩
        exact ⟨is, h.then_nil (Performs.of_log rfl), hall⟩)
  refine ⟨is' ++ is, ?_, List.forall_mem_append.mpr ⟨fun i hi => ?_, hsched⟩⟩
  · rw [golandDispatch_eq, beforeConsuming]
    exact (his.trans his').then_nil (idles_consume ro env cpu prev _).performs
  · exact (hrec i hi).of_untouched (htasks i.pid)

end Affinity

/-! ### Runs -/

theorem Performs.of_calm {w w' : World m} (h : Calm w w') : Performs [] w w' := by
  obtain ⟨es, hes, hquiet⟩ := h.log
  refine ⟨es, hes, List.filterMap_eq_nil_iff.mpr fun e he => ?_⟩
  exact Event.insertion_of_quiet (hquiet e he)

/-- The steps that may insert a task. -/
def Label.mayInsert : Label m → Bool
  | .selectCpu _ _ _ _ | .enqueue _ _ _ | .dispatch _ _ _ => true
  | _ => false

theorem step_performs_nil {ro : Rodata} {w w' : World m} {l : Label m}
    (hl : l.mayInsert = false) (h : step ro w l = some w') : Performs [] w w' := by
  by_cases hcalm : l.isCalm = true
  · exact Performs.of_calm (calm_of_step hcalm h)
  cases l with
  | fork p =>
    rw [step] at h
    split_ifs at h
    obtain rfl := Option.some_inj.mp h
    exact Performs.of_log rfl
  | change p =>
    obtain ⟨old, -, rfl⟩ := Option.map_eq_some_iff.mp h
    exact Performs.of_log rfl
  | setAffinity pid mask =>
    obtain ⟨p, -, rfl⟩ := Option.map_eq_some_iff.mp h
    exact ⟨[.dequeued pid], rfl, rfl⟩
  | dequeue pid =>
    obtain ⟨p, -, rfl⟩ := Option.map_eq_some_iff.mp h
    exact ⟨[.dequeued pid], rfl, rfl⟩
  | exitTask pid =>
    obtain ⟨p, -, rfl⟩ := Option.map_eq_some_iff.mp h
    refine ⟨[.dequeued pid], ?_, rfl⟩
    exact congrArg _ (updatePriorityTaskMap_log w p.pid.toUInt32 1 0)
  | _ => simp [Label.mayInsert, Label.isCalm] at hl hcalm

/-- The insertions of an enqueue step. -/
theorem enqueueStep_performs (ro : Rodata) (env : Env m) (p : TaskStruct m) (enqFlags : UInt64)
    (w : World m) :
    Performs (enqueueInsertions ro env p enqFlags (w.emit (.enqueueCalled p.pid))) w
      ((golandEnqueue ro env p enqFlags (w.emit (.enqueueCalled p.pid))).emit
        (.enqueueReturned p.pid)) :=
  (Performs.emit w (e := .enqueueCalled p.pid) rfl).after_nil
    ((golandEnqueue_performs ro env p enqFlags _).then_nil
      (Performs.emit _ (e := .enqueueReturned p.pid) rfl))

/-- One step keeps to the affinities iff it uses no CPU of a task that the task may
not use. -/
theorem step_respectsAffinity_iff (hm : m.nrCpuIds ≤ maxCpus) {ro : Rodata} {w w' : World m}
    {l : Label m × (ℕ → Option (CpuMask m))} (hbuf : w.buf = [])
    (h : stepRacing ro w l = some w') : RespectsAffinity w w' ↔ TaskCpuAllowed ro w l.1 := by
  obtain ⟨l, races⟩ := l
  rcases stepRacing_cases h with ⟨env, cpu, prev, hl, rfl⟩ | ⟨hl, h⟩
  · obtain rfl : l = .dispatch env cpu prev := hl
    obtain ⟨is, his, hall⟩ := dispatch_allowed hm ro env w races cpu prev hbuf
    refine ⟨fun _ => trivial, fun _ => ?_⟩
    rw [RespectsAffinity, his.newInsertions_eq]
    exact hall
  dsimp only at hl h ⊢
  by_cases hins : l.mayInsert = false
  · rw [RespectsAffinity, (step_performs_nil hins h).newInsertions_eq]
    cases l <;> simp [Label.mayInsert, TaskCpuAllowed] at hins ⊢
  cases l with
  | selectCpu env pid prevCpu wakeFlags =>
    obtain ⟨p, hp, rfl⟩ := Option.map_eq_some_iff.mp h
    obtain rfl : p.pid = pid := w.tasks.find_pid hp
    refine ⟨fun _ => trivial, fun _ i hi c hc => ?_⟩
    rw [(golandSelectCpu_performs ro env p w prevCpu wakeFlags).newInsertions_eq] at hi
    split_ifs at hi
    · exact absurd hi List.not_mem_nil
    · exact ⟨p, pid_of_mem_directInsertions hi ▸ hp, direct_allowed hm ro env p 0 w prevCpu hi hc⟩
  | enqueue env pid enqFlags =>
    obtain ⟨p, hp, rfl⟩ := Option.map_eq_some_iff.mp h
    obtain rfl : p.pid = pid := w.tasks.find_pid hp
    have hiff := enqueue_allowed_iff hm ro env p enqFlags (w.emit (.enqueueCalled p.pid))
    rw [RespectsAffinity, (enqueueStep_performs ro env p enqFlags w).newInsertions_eq]
    constructor
    · intro hall q hq
      obtain rfl : p = q := Option.some_inj.mp (hp.symm.trans hq)
      refine hiff.mp fun i hi c hc => ?_
      obtain ⟨q, hq, hmem⟩ := hall i hi c hc
      rw [pid_of_mem_enqueueInsertions hi, hp, Option.some_inj] at hq
      exact hq ▸ hmem
    · intro htask i hi c hc
      exact ⟨p, pid_of_mem_enqueueInsertions hi ▸ hp, hiff.mpr (htask p hp) i hi c hc⟩
  | dispatch env cpu prev => exact absurd rfl (hl env cpu prev)
  | _ => exact absurd rfl hins

/-- Between callbacks the dispatch buffer is empty, also when affinities change inside
them. -/
theorem buf_of_racing_run {ro : Rodata} {w₀ w : World m}
    {ls : List (Label m × (ℕ → Option (CpuMask m)))} (h₀ : w₀.buf = [])
    (hrun : run (stepRacing ro) w₀ ls = some w) : w.buf = [] := by
  refine invariant (I := fun w : World m => w.buf = []) h₀ (fun w l w' hbuf hstep => ?_) ls w
    (visits_of_run hrun)
  rcases stepRacing_cases hstep with ⟨env, cpu, prev, -, rfl⟩ | ⟨-, hstep⟩
  · exact golandDispatch_buf ro env l.2 cpu prev w
  · exact (step_keeps (q := 0) hbuf hstep).1

/-- **Affinities are respected**, in any run: whatever user space sends and however
affinities change, between the callbacks and between the two tests of `dispatch_task`,
every task that is put into the local or dispatch queue of a CPU may run on that CPU by
the affinity with which the callback began, exactly if each task that `goland_enqueue`
puts on the CPU it last ran on without a look — a kernel thread, or a priority task none
of whose CPUs is idle — may still use that CPU. -/
theorem affinity_respected_iff (ro : Rodata) (w₀ : World m) (hstart : Started w₀)
    (ls : List (Label m × (ℕ → Option (CpuMask m)))) :
    (∀ w l w', Takes (stepRacing ro) w₀ ls w l → stepRacing ro w l = some w' →
        RespectsAffinity w w') ↔
      ∀ w l, Takes (stepRacing ro) w₀ ls w l → TaskCpuAllowed ro w l.1 := by
  have hbuf : ∀ {w l}, Takes (stepRacing ro) w₀ ls w l → w.buf = [] := by
    rintro w l ⟨pre, -, hrun, -⟩
    exact buf_of_racing_run hstart.atLoad.buf hrun
  constructor
  · intro h w l htake
    obtain ⟨pre, hpre, hrun, hen⟩ := id htake
    obtain ⟨w', hw'⟩ := Option.isSome_iff_exists.mp hen
    exact (step_respectsAffinity_iff hstart.nrCpuIds_le (hbuf htake) hw').mp (h w l w' htake hw')
  · intro h w l w' htake hw'
    exact (step_respectsAffinity_iff hstart.nrCpuIds_le (hbuf htake) hw').mpr (h w l htake)

/-- The task that is enqueued, if any, may use the CPU it last ran on. -/
def mayUseTaskCpu (w : World m) : Label m → Bool
  | .enqueue _ pid _ => (w.tasks.find pid).all fun p => decide (p.cpu ∈ p.cpusPtr)
  | _ => true

theorem taskCpuAllowed_of_mayUse {ro : Rodata} {w : World m} {l : Label m}
    (h : mayUseTaskCpu w l = true) : TaskCpuAllowed ro w l := by
  cases l with
  | enqueue env pid enqFlags =>
    intro p hp _
    rw [mayUseTaskCpu, hp] at h
    exact of_decide_eq_true h
  | _ => exact trivial

/-- Task 7 is given priority, and enqueued when no CPU is idle; then it gets a record for
CPU 0, and may only use CPU 1 before the second test. -/
def boostThenEnqueue : List (Label twoCpus × (ℕ → Option (CpuMask twoCpus))) :=
  [(.initTask ⟨true, true, true⟩ 7, fun _ => none),
    (.push (fastEncode ⟨7, 0, 0, 1000, 0, 0⟩), fun _ => none),
    (.dispatch (Env.lowest cpu0) cpu0 none, fun _ => none),
    (.enqueue (Env.lowest cpu0) 7 0, fun _ => none),
    (.push (fastEncode ⟨7, 0, 0, 1000, 42, 0⟩), fun _ => none),
    (.dispatch (Env.lowest cpu0) cpu0 none, fun _ => some {cpu1})]

theorem affinity_respected_iff_priority :
    (run (stepRacing plainRodata) onlyTask7 boostThenEnqueue).isSome = true ∧
    ∀ w l w', Takes (stepRacing plainRodata) onlyTask7 boostThenEnqueue w l →
      stepRacing plainRodata w l = some w' → RespectsAffinity w w' := by
  refine ⟨by decide +kernel, (affinity_respected_iff plainRodata onlyTask7
    (started_startedWorld _) boostThenEnqueue).mpr fun w l htake => ?_⟩
  have hcheck : check (stepRacing plainRodata) (fun w l => mayUseTaskCpu w l.1) onlyTask7
      boostThenEnqueue = true := by decide +kernel
  exact taskCpuAllowed_of_mayUse (guard_of_check hcheck w l htake)

/-! ### Direct dispatch -/

/-- The search returns a CPU that was idle, and is not any more. -/
def FoundIdle (w : World m) (r : Int32 × World m) : Prop :=
  ∀ c : Cpu m, r.1 = c.toS32 → (c ∈ w.idle ∨ c ∈ w.idleSmt) ∧ r.2.idle = w.idle.erase c

theorem FoundIdle.of_neg {w : World m} {r : Int32 × World m} (h : r.1 < 0) : FoundIdle w r := by
  intro c hc
  rw [hc] at h
  exact absurd h c.toS32_nonneg

/-- Scratch masks play no role for what is idle. -/
theorem ClaimsOne.foundIdle {w w' : World m} {r : Int32 × World m} (h : ClaimsOne w' r)
    (hidle : w'.idle = w.idle) (hsmt : w'.idleSmt = w.idleSmt) : FoundIdle w r := by
  rcases h with rfl | ⟨c, hc, rfl⟩
  · exact FoundIdle.of_neg neg_eBUSY_lt
  · intro c' heq
    obtain rfl := toS32_injective heq
    rw [hidle, hsmt] at hc
    exact ⟨hc, congrArg (Finset.erase · c) hidle⟩

theorem foundIdle_pickIdleCpu (ro : Rodata) (env : Env m) (p : TaskStruct m) (prevCpu : Int32)
    (w : World m) : FoundIdle w (pickIdleCpu ro env p prevCpu w) := by
  obtain ⟨w₁, ⟨ctx, rfl, -⟩, hclaim | h | ⟨msg, -, -, h⟩⟩ := pickIdleCpu_cases ro env p prevCpu w
  · exact hclaim.foundIdle rfl rfl
  · rw [h]
    exact FoundIdle.of_neg (show -eNOENT < 0 by decide)
  · rw [h]
    exact FoundIdle.of_neg (show -eNOENT < 0 by decide)

theorem tryDirectDispatch_idle {ro : Rodata} {env : Env m} {p : TaskStruct m} {prevCpu : Int32}
    {enqFlags : UInt64} {w : World m}
    (h : (tryDirectDispatch ro env p prevCpu enqFlags w).dispatched = true) :
    (tryDirectDispatch ro env p prevCpu enqFlags w).world.idle =
      (pickIdleCpu ro env p prevCpu w).2.idle := by
  have hdsq : ∀ (w : World m) (cpu : Int32), (w.cpuToDsq cpu).2.idle = w.idle := by
    intro w cpu
    rw [World.cpuToDsq]
    split_ifs <;> rfl
  rw [tryDirectDispatch] at h ⊢
  dsimp only at h ⊢
  split_ifs at h ⊢
  exact (hdsq _ _).trans (hdsq _ _)

theorem dsqs_of_nrQueued {w : World m} {dsq : UInt64} (h : w.scxBpfDsqNrQueued dsq = 0) :
    w.dsqs dsq = some 0 := by
  rw [World.scxBpfDsqNrQueued] at h
  split at h
  · rename_i n hn
    rw [hn, Option.some_inj]
    exact_mod_cast h
  · exact absurd h (by decide)

/-- The task has been dispatched directly to the CPU: one that it may use, that was idle
and is not any more, with nobody waiting in its queue or in `SHARED_DSQ`. -/
structure DispatchedDirectly (p : TaskStruct m) (c : Cpu m) (w w' : World m) : Prop where
  allowed : c ∈ p.cpusPtr
  idle : c ∈ w.idle ∨ c ∈ w.idleSmt
  claimed : c ∉ w'.idle
  shared_empty : w.dsqs sharedDsq = some 0
  own_empty : w.dsqs (UInt64.ofNat c.val) = some 0

theorem dispatchedDirectly_of_mem (hm : m.nrCpuIds ≤ maxCpus) {ro : Rodata} {env : Env m}
    {p : TaskStruct m} {prevCpu : Int32} {enqFlags : UInt64} {w : World m} {i : Insertion}
    {c : Cpu m} (hi : i ∈ directInsertions ro env p enqFlags w prevCpu) (hc : i.Targets c) :
    DispatchedDirectly p c w (tryDirectDispatch ro env p prevCpu enqFlags w).world := by
  have hdisp : (tryDirectDispatch ro env p prevCpu enqFlags w).dispatched = true :=
    (tryDirectDispatch_performs ro env p enqFlags w prevCpu).2.mpr (List.ne_nil_of_mem hi)
  rcases directInsertions_eq_nil_or hm ro env p enqFlags w prevCpu with
    hnil | ⟨c', hmem, ⟨-, hpick, -, hshared, hown⟩, heq⟩
  · rw [hnil] at hi
    exact absurd hi List.not_mem_nil
  · rw [heq, List.mem_singleton] at hi
    subst hi
    obtain rfl := (targets_cpu hm rfl).mp hc
    obtain ⟨hidle, herase⟩ := foundIdle_pickIdleCpu ro env p prevCpu w c hpick
    rw [cpuToDsq_cpu hm] at hown
    refine ⟨hmem, hidle, ?_, dsqs_of_nrQueued hshared, dsqs_of_nrQueued hown⟩
    rw [tryDirectDispatch_idle hdisp, herase]
    exact Finset.notMem_erase c w.idle

/-- A task that is not a kernel thread comes into the dispatch queue of a CPU by direct
dispatch only. -/
theorem enqueue_dispatchedDirectly (hm : m.nrCpuIds ≤ maxCpus) {ro : Rodata} {env : Env m}
    {p : TaskStruct m} {enqFlags : UInt64} {w : World m} {i : Insertion} {c : Cpu m}
    (hkernel : isKernelTask ro p = false) (hi : i ∈ enqueueInsertions ro env p enqFlags w)
    (hdsq : i.dsq = .user (UInt64.ofNat c.val)) :
    DispatchedDirectly p c w (golandEnqueue ro env p enqFlags w) := by
  have hc : i.Targets c := Or.inr hdsq
  simp only [isKernelTask, Bool.or_eq_false_iff, Bool.and_eq_false_iff, decide_eq_false_iff_not]
    at hkernel
  rw [enqueueInsertions] at hi
  dsimp only at hi
  split_ifs at hi with hus hown hker hdisp
  · exact absurd hi List.not_mem_nil
  · rw [List.mem_singleton.mp hi] at hc
    exact absurd hc (not_targets_of_le hm rfl (by decide))
  · simp only [isKernelTask, Bool.or_eq_true, Bool.and_eq_true, decide_eq_true_eq] at hker
    grind
  · have hworld : golandEnqueue ro env p enqFlags w =
        (enqueueDirect ro env p enqFlags w).world.scxBpfKickCpu
          (enqueueDirect ro env p enqFlags w).cpu .idle := by
      rw [golandEnqueue, if_neg hus, if_neg hown, if_neg (by grind), if_neg (by grind)]
      exact if_pos hdisp
    have hdirect : enqueueDirect ro env p enqFlags w =
        tryDirectDispatch ro env p p.cpu.toS32 enqFlags w := by
      rw [enqueueDirect] at hdisp ⊢
      split_ifs at hdisp ⊢
      rfl
    have h := dispatchedDirectly_of_mem hm hi hc
    rw [hworld, hdirect]
    exact ⟨h.allowed, h.idle, h.claimed, h.shared_empty, h.own_empty⟩
  · rcases List.mem_append.mp hi with hi | hi
    · rw [ringInsertions] at hi
      split_ifs at hi
      · exact absurd hi List.not_mem_nil
      · rw [List.mem_singleton.mp hi] at hc
        exact absurd hc (not_targets_of_le hm rfl (by decide))
    · rw [priorityInsertions] at hi
      split at hi
      · exact absurd hi List.not_mem_nil
      · rw [List.mem_singleton.mp hi] at hdsq
        exact absurd hdsq (by simp)

/-- The calls that put a task into the dispatch queue of a CPU by direct dispatch only. -/
def Label.dispatchesDirectly (ro : Rodata) (w : World m) : Label m → Bool
  | .selectCpu _ _ _ _ => true
  | .enqueue _ pid _ => (w.tasks.find pid).all fun p => !isKernelTask ro p
  | _ => false

/-- **Direct dispatch never overtakes.**  In any run, whenever `goland_select_cpu`, or
`goland_enqueue` for a task that is not a kernel thread, puts a task into the
dispatch queue of a CPU, the task may use the CPU, the CPU was idle and is now
claimed, and no task was waiting in its queue or in `SHARED_DSQ`. -/
theorem direct_dispatch_never_overtakes (ro : Rodata) (w₀ : World m) (hstart : Started w₀)
    (ls : List (Label m)) (w w' : World m) (l : Label m) (htake : Takes (step ro) w₀ ls w l)
    (hstep : step ro w l = some w') (hl : l.dispatchesDirectly ro w = true)
    (i : Insertion) (hi : i ∈ newInsertions w w') (c : Cpu m)
    (hdsq : i.dsq = .user (UInt64.ofNat c.val)) :
    ∃ p, w.tasks.find i.pid = some p ∧ DispatchedDirectly p c w w' := by
  have hm := hstart.nrCpuIds_le
  have hc : i.Targets c := Or.inr hdsq
  cases l with
  | selectCpu env pid prevCpu wakeFlags =>
    obtain ⟨p, hp, rfl⟩ := Option.map_eq_some_iff.mp hstep
    obtain rfl : p.pid = pid := w.tasks.find_pid hp
    rw [(golandSelectCpu_performs ro env p w prevCpu wakeFlags).newInsertions_eq] at hi
    split_ifs at hi with hus
    · exact absurd hi List.not_mem_nil
    · have hworld : (golandSelectCpu ro env p prevCpu wakeFlags w).2 =
          (tryDirectDispatch ro env p prevCpu 0 w).world := by
        rw [golandSelectCpu, if_neg hus]
        dsimp only
        split_ifs <;> rfl
      rw [hworld]
      exact ⟨p, pid_of_mem_directInsertions hi ▸ hp, dispatchedDirectly_of_mem hm hi hc⟩
  | enqueue env pid enqFlags =>
    obtain ⟨p, hp, rfl⟩ := Option.map_eq_some_iff.mp hstep
    obtain rfl : p.pid = pid := w.tasks.find_pid hp
    rw [(enqueueStep_performs ro env p enqFlags w).newInsertions_eq] at hi
    rw [Label.dispatchesDirectly, hp, Option.all_some, Bool.not_eq_true'] at hl
    have h := enqueue_dispatchedDirectly hm hl hi hdsq
    exact ⟨p, pid_of_mem_enqueueInsertions hi ▸ hp,
      h.allowed, h.idle, h.claimed, h.shared_empty, h.own_empty⟩
  | _ => exact absurd hl (by simp [Label.dispatchesDirectly])

def idleRodata : Rodata := { plainRodata with builtinIdle := true }

/-- CPU 1 becomes idle. -/
def cpu1Idle : List (Label twoCpus) := [.initTask ⟨true, true, true⟩ 7, .setIdle {cpu1} ∅]

def select7 : Label twoCpus := .selectCpu (Env.lowest cpu0) 7 0 0

/-- Task 7, which last ran on CPU 0, is dispatched to CPU 1. -/
theorem direct_dispatch_never_overtakes_cpu1 :
    ∃ w w' p, Takes (step idleRodata) onlyTask7 (cpu1Idle ++ [select7]) w select7 ∧
      step idleRodata w select7 = some w' ∧
      ⟨7, .user 1, scxSliceDfl, some 0, 0⟩ ∈ newInsertions w w' ∧
      w.tasks.find 7 = some p ∧ DispatchedDirectly p cpu1 w w' := by
  have hfacts : ((run (step idleRodata) onlyTask7 cpu1Idle).bind fun w =>
      (step idleRodata w select7).map fun w' =>
        decide (⟨7, .user 1, scxSliceDfl, some 0, 0⟩ ∈ newInsertions w w')) = some true := by
    decide +kernel
  obtain ⟨w, hw, h⟩ := Option.bind_eq_some_iff.mp hfacts
  obtain ⟨w', hw', hmem⟩ := Option.map_eq_some_iff.mp h
  have htake : Takes (step idleRodata) onlyTask7 (cpu1Idle ++ [select7]) w select7 :=
    ⟨cpu1Idle, List.prefix_refl _, hw, by rw [hw']; rfl⟩
  obtain ⟨p, hp, hdirect⟩ := direct_dispatch_never_overtakes idleRodata onlyTask7
    (started_startedWorld _) _ w w' select7 htake hw' rfl _ (of_decide_eq_true hmem) cpu1 rfl
  exact ⟨w, w', p, htake, hw', of_decide_eq_true hmem, hp, hdirect⟩

end ScxGoland
