/-
Who hands on the CPUs that the scheduler claims.

A CPU whose idle bit is cleared stays out of the idle search until it has been
woken.  Every callback must therefore kick the CPUs it claims, return them from
`ops.select_cpu()` or put a task on their local queues; a CPU claimed by
`rs_select_cpu` is handed on by `dispatch_task`, when the record that targets it
is handled.  `ClaimState` follows the claims through a run.

* `no_cpu_idle_locked_iff` — in every run, no CPU is left claimed exactly when
  each record is handled while its task is alive and still allowed on the CPU
  (or no longer allowed but on that very CPU), unless somebody else has kicked
  the CPU in the meantime.
-/
import ScxGoland.Runs
import ScxGoland.Traces

namespace ScxGoland

variable {m : Machine}

/-- A CPU that `rs_select_cpu` has returned for a task, and whether it has been
handed on since. -/
structure PendingClaim where
  pid : Int32
  cpu : Int32
  settled : Bool
deriving DecidableEq

def PendingClaim.after (es : List Event) (c : PendingClaim) : PendingClaim :=
  { c with settled := c.settled || es.any (Event.settles c.cpu) }

structure ClaimState (m : Machine) where
  world : World m
  -- claims whose record has not been handled
  pending : List PendingClaim
  -- CPUs left claimed by a callback, or by the handling of their record
  leaked : List Int32

/-- A step of the system, or the call of `dispatch_task` with the record for a
pending claim. -/
inductive ClaimLabel (m : Machine) where
  | sys (l : Label m)
  | handle (i : ℕ) (env : Env m) (race : Option (CpuMask m)) (task : DispatchedTaskCtx)

/-- The claim that a step hands to user space. -/
def handedToUser (ro : Rodata) (w : World m) : Label m → List PendingClaim
  | .rsSelectCpu env pid cpu =>
    if (rsSelectCpu ro env pid cpu w).1 < 0 then []
    else [⟨pid, (rsSelectCpu ro env pid cpu w).1, false⟩]
  | _ => []

def claimStep (ro : Rodata) (s : ClaimState m) : ClaimLabel m → Option (ClaimState m)
  | .sys l => (step ro s.world l).map fun w =>
    { world := w
      pending := s.pending.map (PendingClaim.after (newEvents s.world w)) ++
        handedToUser ro s.world l
      leaked := s.leaked ++
        (unsettled (newEvents s.world w)).filter (· ∉ returned ro s.world l) }
  | .handle i env race task => s.pending[i]?.bind fun c =>
    if task.pid = c.pid ∧ task.cpu = c.cpu then
      let w := dispatchTask env race task s.world
      let c := c.after (newEvents s.world w)
      some
        { world := w
          pending := (s.pending.eraseIdx i).map (PendingClaim.after (newEvents s.world w))
          leaked := s.leaked ++ unsettled (newEvents s.world w) ++
            if c.settled then [] else [c.cpu] }
    else none

/-- The step hands on the CPU it is responsible for: the task of the record is
alive, and the CPU passes both tests of `dispatch_task`, or fails the first one
but is the CPU that the task is on. -/
def handsOn (s : ClaimState m) : ClaimLabel m → Bool
  | .sys _ => true
  | .handle i _ race task =>
    s.pending[i]?.any PendingClaim.settled ||
      (s.world.tasks.find task.pid).any fun p =>
        if bpfCpumaskTestCpu task.cpu p.cpusPtr then
          bpfCpumaskTestCpu task.cpu (race.getD p.cpusPtr)
        else decide (p.cpu.toS32 = task.cpu)

/-! ### Whether `dispatch_task` hands a CPU on -/

/-- Whether one of the events from `w` to `w'` hands the CPU on. -/
def Settles (cpu : Int32) (b : Bool) (w w' : World m) : Prop :=
  ∃ es, w'.log = es ++ w.log ∧ es.any (Event.settles cpu) = b

namespace Settles

variable {cpu : Int32} {w₁ w₂ w₃ : World m}

theorem of_log (h : w₂.log = w₁.log) : Settles cpu false w₁ w₂ := ⟨[], h, rfl⟩

theorem emit (w : World m) (e : Event) : Settles cpu (e.settles cpu) w (w.emit e) :=
  ⟨[e], rfl, by simp⟩

theorem trans {b b' : Bool} (h : Settles cpu b w₁ w₂) (h' : Settles cpu b' w₂ w₃) :
    Settles cpu (b || b') w₁ w₃ := by
  obtain ⟨es, hes, hb⟩ := h
  obtain ⟨es', hes', hb'⟩ := h'
  refine ⟨es' ++ es, by rw [hes', hes, List.append_assoc], ?_⟩
  rw [List.any_append, hb, hb', Bool.or_comm]

theorem then_not {b : Bool} (h : Settles cpu b w₁ w₂) (h' : Settles cpu false w₂ w₃) :
    Settles cpu b w₁ w₃ := by
  simpa using h.trans h'

theorem insert_user (w : World m) (ctx : OpsCtx) {i : Insertion} {id : UInt64}
    (h : i.dsq = .user id) : Settles cpu false w (w.insert ctx i) := by
  have hins : (Event.inserted i).settles cpu = false := by simp [Event.settles, h]
  cases ctx with
  | direct => exact hins ▸ (of_log rfl).trans (emit _ (.inserted i))
  | dispatch =>
    rw [World.insert]
    dsimp only
    by_cases hroom : w.buf.length < maxDispatchSlot
    · rw [if_pos hroom]
      exact hins ▸ (of_log rfl).trans (emit _ (.inserted i))
    · rw [if_neg hroom]
      exact Settles.trans (of_log rfl) (emit _ (.error "dispatch buffer overflow"))

/-- `kick_task_cpu` hands on the CPU given to it, and otherwise only CPUs that
the task may use. -/
theorem kickTaskCpu (env : Env m) (p : TaskStruct m) (k : Int32) (w : World m)
    (hcpu : bpfCpumaskTestCpu cpu p.cpusPtr = false) :
    Settles cpu (decide (k = cpu)) w (kickTaskCpu env p k w) := by
  have hkick : Settles cpu (decide (k = cpu)) w (w.scxBpfKickCpu k .idle) :=
    emit w (.kicked k .idle)
  rcases kickTaskCpu_cases env p k w with ⟨h, -⟩ | ⟨c, hc, h⟩
  · rw [h]
    exact hkick
  · -- the other CPU is in the mask, so it is not the one in question
    have hne : c.toS32 ≠ cpu := by
      rintro rfl
      rw [testCpu_toS32, decide_eq_true hc] at hcpu
      exact absurd hcpu (by simp)
    have hclaim : Settles cpu false (w.scxBpfKickCpu k .idle)
        ((w.scxBpfKickCpu k .idle).claim c) := ⟨[.claimed c.toS32], rfl, rfl⟩
    have hother : Settles cpu false ((w.scxBpfKickCpu k .idle).claim c)
        (((w.scxBpfKickCpu k .idle).claim c).scxBpfKickCpu c.toS32 .idle) :=
      ⟨[.kicked c.toS32 .idle], rfl, by simp [Event.settles, hne]⟩
    rw [h]
    exact (hkick.then_not hclaim).then_not hother

end Settles

theorem settles_insertByVtime (cpu : Int32) (p : TaskStruct m) (task : DispatchedTaskCtx)
    {w : World m} (hcpu : bpfCpumaskTestCpu task.cpu p.cpusPtr = true)
    (hm : m.nrCpuIds ≤ maxCpus) : Settles cpu false w (insertByVtime p task w) := by
  have hon : Settles cpu false w (insertOnCpu p task w) := by
    obtain ⟨c, -, hc⟩ := exists_cpu_of_test hcpu
    rw [insertOnCpu, hc, cpuToDsq_cpu hm]
    exact (Settles.insert_user w .dispatch rfl).then_not (Settles.of_log rfl)
  rw [insertByVtime_eq]
  split_ifs
  · exact Settles.of_log rfl
  · exact hon

theorem settles_scxBpfDispatchCancel (cpu : Int32) (w : World m) :
    Settles cpu false w w.scxBpfDispatchCancel := by
  rw [World.scxBpfDispatchCancel]
  split
  · rename_i i _
    exact (Settles.of_log rfl).trans (Settles.emit _ (.cancelled i))
  · exact Settles.emit w (.error "dispatch buffer underflow")

/-- A valid CPU is not `RL_CPU_ANY`. -/
theorem toS32_ne_rlCpuAny (hm : m.nrCpuIds ≤ maxCpus) (c : Cpu m) : c.toS32 ≠ rlCpuAny := by
  intro h
  have hint := congrArg Int32.toInt h
  rw [Cpu.toInt_toS32, show rlCpuAny.toInt = 1048576 from rfl] at hint
  have hlt : c.val < maxCpus := lt_of_lt_of_le c.isLt hm
  have : maxCpus < 1048576 := by decide
  omega

/-- When `dispatch_task` hands on the CPU that its record targets. -/
theorem settles_dispatchTask (hm : m.nrCpuIds ≤ maxCpus) (env : Env m)
    (race : Option (CpuMask m)) (task : DispatchedTaskCtx) (w : World m)
    (hcpu : ∃ c : Cpu m, task.cpu = c.toS32) :
    Settles task.cpu ((w.tasks.find task.pid).any fun p =>
        if bpfCpumaskTestCpu task.cpu p.cpusPtr then
          bpfCpumaskTestCpu task.cpu (race.getD p.cpusPtr)
        else decide (p.cpu.toS32 = task.cpu)) w (dispatchTask env race task w) := by
  obtain ⟨c, hc⟩ := hcpu
  have hany : task.cpu ≠ rlCpuAny := by
    rw [hc]
    exact toS32_ne_rlCpuAny hm c
  rw [dispatchTask]
  rcases w.tasks.find task.pid with _ | p
  · exact Settles.of_log rfl
  · rw [Option.any_some]
    dsimp only
    rw [if_neg hany]
    by_cases hfirst : bpfCpumaskTestCpu task.cpu p.cpusPtr = true
    · have hins : Settles task.cpu false w ((insertByVtime p task w).updatePriorityTaskMap
          task.pid.toUInt32 task.vtime task.sliceNs) :=
        (settles_insertByVtime task.cpu p task hfirst hm).then_not
          (Settles.of_log (updatePriorityTaskMap_log _ _ _ _))
      have hfirst' : ¬ bpfCpumaskTestCpu task.cpu p.cpusPtr = false := by simp [hfirst]
      rw [if_neg hfirst', if_pos hfirst]
      by_cases hsecond : bpfCpumaskTestCpu task.cpu (race.getD p.cpusPtr) = false
      · rw [if_pos hsecond, hsecond]
        exact (hins.then_not (settles_scxBpfDispatchCancel _ _)).then_not (Settles.of_log rfl)
      · rw [if_neg hsecond, (by simpa using hsecond :
          bpfCpumaskTestCpu task.cpu (race.getD p.cpusPtr) = true)]
        have hkick : ∀ w' : World m, Settles task.cpu true w' (w'.scxBpfKickCpu task.cpu .idle) :=
          fun w' => ⟨[.kicked task.cpu .idle], rfl, by simp [Event.settles]⟩
        exact hins.trans (hkick _)
    · -- bounced: only the CPU that the task is on is kicked
      have hbounce : bpfCpumaskTestCpu task.cpu p.cpusPtr = false := by simpa using hfirst
      have hins : Settles task.cpu false w ((w.scxBpfDsqInsertVtime .dispatch p.pid
          (.user sharedDsq) task.sliceNs task.vtime task.flags).updBss fun b =>
            { b with nrBounceDispatches := b.nrBounceDispatches + 1 }) :=
        (Settles.insert_user w .dispatch rfl).then_not (Settles.of_log rfl)
      rw [if_pos hbounce, if_neg hfirst]
      simpa using hins.trans (Settles.kickTaskCpu env p p.cpu.toS32 _ hbounce)

/-! ### Runs -/

/-- Nothing has been left claimed, and the pending claims are of valid CPUs. -/
structure NoLeak (s : ClaimState m) : Prop where
  leaked : s.leaked = []
  pending : ∀ c ∈ s.pending, ∃ k : Cpu m, c.cpu = k.toS32

theorem rsSelectCpu_cpu {ro : Rodata} {env : Env m} {pid cpu : Int32} {w : World m}
    (h : ¬ (rsSelectCpu ro env pid cpu w).1 < 0) :
    ∃ k : Cpu m, (rsSelectCpu ro env pid cpu w).1 = k.toS32 := by
  rw [rsSelectCpu] at h ⊢
  split at h
  · exact absurd (show -eINVAL < 0 by decide) h
  · rename_i p hp
    rcases picks_pickIdleCpu ro env p cpu w with ⟨hneg, -⟩ | ⟨c, hc, -⟩
    · exact absurd hneg h
    · exact ⟨c, hc⟩

theorem handedToUser_cpu {ro : Rodata} {w : World m} {l : Label m} {c : PendingClaim}
    (h : c ∈ handedToUser ro w l) : ∃ k : Cpu m, c.cpu = k.toS32 := by
  rw [handedToUser.eq_def] at h
  split at h
  · split_ifs at h with hneg
    · exact absurd h (by simp)
    · rw [List.mem_singleton.mp h]
      exact rsSelectCpu_cpu hneg
  · exact absurd h (by simp)

/-- What a step does to the claims. -/
theorem claimStep_spec (hm : m.nrCpuIds ≤ maxCpus) {ro : Rodata} {s s' : ClaimState m}
    {l : ClaimLabel m} (hs : NoLeak s) (h : claimStep ro s l = some s') :
    (∀ c ∈ s'.pending, ∃ k : Cpu m, c.cpu = k.toS32) ∧
      (s'.leaked = [] ↔ handsOn s l = true) := by
  have hafter : ∀ {cs : List PendingClaim} {es : List Event}, cs ⊆ s.pending →
      ∀ c ∈ cs.map (PendingClaim.after es), ∃ k : Cpu m, c.cpu = k.toS32 := by
    intro cs es hsub c hc
    obtain ⟨c₀, hc₀, rfl⟩ := List.mem_map.mp hc
    exact hs.pending c₀ (hsub hc₀)
  cases l with
  | sys l =>
    obtain ⟨w, hw, rfl⟩ := Option.map_eq_some_iff.mp h
    obtain ⟨es, hes, -, hopen⟩ := orderly_step hm hw
    dsimp only
    refine ⟨fun c hc => ?_, ?_⟩
    · rcases List.mem_append.mp hc with hc | hc
      · exact hafter (List.Subset.refl _) c hc
      · exact handedToUser_cpu hc
    · -- what a callback leaves open, it returns
      have hnone : (unsettled es).filter (· ∉ returned ro s.world l) = [] := by
        rw [List.filter_eq_nil_iff]
        intro cpu hcpu
        simpa using hopen cpu hcpu
      rw [newEvents_eq hes, hs.leaked, hnone]
      simp [handsOn]
  | handle i env race task =>
    obtain ⟨c, hc, h⟩ := Option.bind_eq_some_iff.mp h
    split_ifs at h with htask
    obtain rfl := Option.some_inj.mp h
    obtain ⟨es, hes, -, hopen⟩ := orderly_dispatchTask hm env race task s.world
    obtain ⟨k, hk⟩ := hs.pending c (List.mem_of_getElem? hc)
    obtain ⟨es', hes', hsettles⟩ := settles_dispatchTask hm env race task s.world
      ⟨k, htask.2.trans hk⟩
    obtain rfl : es' = es := List.append_cancel_right (hes'.symm.trans hes)
    have hclosed : unsettled es' = [] :=
      List.eq_nil_iff_forall_not_mem.mpr fun cpu hcpu => hopen cpu hcpu
    dsimp only
    refine ⟨hafter (List.eraseIdx_subset), ?_⟩
    rw [newEvents_eq hes, hs.leaked, hclosed, handsOn, hc, Option.any_some, ← hsettles,
      PendingClaim.after, htask.2]
    dsimp only
    split_ifs with hdone
    · simpa using hdone
    · simpa using hdone

/-- **No CPU is left idle-locked exactly when every record is handled as
`handsOn` says.**  For all callbacks, all changes of the tasks, and all records
for CPUs that `rs_select_cpu` has returned. -/
theorem no_cpu_idle_locked_iff (ro : Rodata) (w₀ : World m) (hstart : Started w₀)
    (ls : List (ClaimLabel m)) :
    (∀ s, Runs.Visits (claimStep ro) ⟨w₀, [], []⟩ ls s → s.leaked = []) ↔
      ∀ s l, Runs.Takes (claimStep ro) ⟨w₀, [], []⟩ ls s l → handsOn s l = true := by
  have hm := hstart.nrCpuIds_le
  refine Runs.visits_iff_takes (I := NoLeak) ⟨rfl, by simp⟩ (fun s hs => hs.leaked) ?_ ?_
  · intro s l s' hs hon h
    obtain ⟨hpending, hleaked⟩ := claimStep_spec hm hs h
    exact ⟨hleaked.mpr hon, hpending⟩
  · intro s l s' hs hon h hleaked
    exact hon ((claimStep_spec hm hs h).2.mp hleaked)

/-- Task 7 is waiting, and user space asks for a CPU for it: CPU 1 is idle. -/
def selectCpu1 : List (ClaimLabel twoCpus) :=
  [.sys (.initTask ⟨true, true, true⟩ 7), .sys (.setIdle {cpu1} ∅),
    .sys (.rsSelectCpu (Env.lowest cpu0) 7 1)]

def recordForCpu1 : ClaimLabel twoCpus := .handle 0 (Env.lowest cpu0) none ⟨7, 1, 0, 5000000, 42⟩

/-- The task exits before its record is handled: CPU 1 stays claimed. -/
theorem dead_task_leaves_cpu_idle_locked :
    let s₀ : ClaimState twoCpus := ⟨startedWorld ((TaskTable.empty twoCpus).set (plainTask 7)), [], []⟩
    let ls := selectCpu1 ++ [.sys (.exitTask 7), recordForCpu1]
    Started s₀.world ∧ (∃ s, Runs.run (claimStep plainRodata) s₀ ls = some s ∧ s.leaked = [1]) ∧
      ¬ ∀ s, Runs.Visits (claimStep plainRodata) s₀ ls s → s.leaked = [] := by
  intro s₀ ls
  have hrun : ∃ s, Runs.run (claimStep plainRodata) s₀ ls = some s ∧ s.leaked = [1] :=
    ⟨_, rfl, by decide⟩
  refine ⟨started_startedWorld _, hrun, fun h => ?_⟩
  obtain ⟨s, hs, hleaked⟩ := hrun
  rw [h s (Runs.visits_of_run hs)] at hleaked
  exact absurd hleaked (by decide)

/-- While the task is alive, its record hands the CPU on. -/
theorem no_cpu_idle_locked_iff_alive :
    let s₀ : ClaimState twoCpus := ⟨startedWorld ((TaskTable.empty twoCpus).set (plainTask 7)), [], []⟩
    (∃ s, Runs.run (claimStep plainRodata) s₀ (selectCpu1 ++ [recordForCpu1]) = some s) ∧
      ∀ s, Runs.Visits (claimStep plainRodata) s₀ (selectCpu1 ++ [recordForCpu1]) s →
        s.leaked = [] := by
  intro s₀
  refine ⟨⟨_, rfl⟩, ?_⟩
  rw [no_cpu_idle_locked_iff plainRodata s₀.world (started_startedWorld _)]
  exact Runs.guard_of_check (by decide)

end ScxGoland
