/-
`goland_init`: the dispatch queues and the heartbeat timer.

A queue is created for every possible CPU, then `SHARED_DSQ` and `SCHED_DSQ`.
The kernel refuses an id that is taken; for a CPU number from `MAX_CPUS` on,
`cpu_to_dsq` falls back to the id of `SHARED_DSQ`.

* `golandInit_creates` — if `goland_init` returns `0`, there are at most
  `MAX_CPUS` CPUs, and the queues created are those of `dsqIds`, all different
  and all new.
-/
import ScxGoland.Effects

namespace ScxGoland

variable {m : Machine}

def eSRCH : Int32 := 3
def eEXIST : Int32 := 17

/-- What the kernel decides during `goland_init`. -/
structure InitEnv (m : Machine) where
  online : CpuMask m
  -- whether the memory for a queue can be allocated
  alloc : UInt64 → Bool
  -- the lookup of the timer in its map, and the result of `bpf_timer_start`
  timerFound : Bool
  timerErr : Int32

/-- `scx_bpf_create_dsq`, on any NUMA node. -/
def World.scxBpfCreateDsq (ie : InitEnv m) (dsq : UInt64) (w : World m) : Int32 × World m :=
  if (w.dsqs dsq).isSome then (-eEXIST, w)
  else if ie.alloc dsq then (0, { w with dsqs := Function.update w.dsqs dsq (some 0) })
  else (-eNOMEM, w)

def getNrOnlineCpus (ie : InitEnv m) (w : World m) : ℕ :=
  (List.range w.nrCpuIds).countP fun i => bpfCpumaskTestCpu (Int32.ofNat i) ie.online

/-- The loop of `dsq_init` over the CPUs. -/
def createCpuDsqs (ie : InitEnv m) : List ℕ → World m → Int32 × World m
  | [], w => (0, w)
  | cpu :: cpus, w =>
    let dsq := w.cpuToDsq (Int32.ofNat cpu)
    let r := dsq.2.scxBpfCreateDsq ie dsq.1
    if r.1 ≠ 0 then
      (r.1, r.2.scxBpfError ("failed to create pcpu DSQ " ++ toString cpu ++ ": " ++
        toString r.1.toInt))
    else createCpuDsqs ie cpus r.2

def dsqInit (ie : InitEnv m) (w : World m) : Int32 × World m :=
  let w := w.updBss fun b => { b with nrOnlineCpus := UInt64.ofNat (getNrOnlineCpus ie w) }
  match createCpuDsqs ie (List.range w.nrCpuIds) w with
  | (err, w) =>
    if err ≠ 0 then (err, w)
    else
      match w.scxBpfCreateDsq ie sharedDsq with
      | (err, w) =>
        if err ≠ 0 then
          (err, w.scxBpfError ("failed to create shared DSQ: " ++ toString err.toInt))
        else
          match w.scxBpfCreateDsq ie schedDsq with
          | (err, w) =>
            if err ≠ 0 then
              (err, w.scxBpfError ("failed to create scheduler DSQ: " ++ toString err.toInt))
            else (0, w)

def userschedTimerInit (ie : InitEnv m) (w : World m) : Int32 × World m :=
  if ie.timerFound = false then (-eSRCH, w.scxBpfError "Failed to lookup scheduler timer")
  else if ie.timerErr ≠ 0 then (ie.timerErr, w.scxBpfError "Failed to arm scheduler timer")
  else (0, w)

def golandInit (ie : InitEnv m) (w : World m) : Int32 × World m :=
  let dsqs := dsqInit ie { w with nrCpuIds := m.nrCpuIds }
  if dsqs.1 ≠ 0 then dsqs
  else
    let timer := userschedTimerInit ie dsqs.2
    if timer.1 ≠ 0 then timer else (0, timer.2)

/-! ### What a successful initialisation has done -/

/-- The id that `cpu_to_dsq` returns. -/
def cpuDsqId (cpu : ℕ) : UInt64 := if cpu < maxCpus then UInt64.ofNat cpu else sharedDsq

/-- The queues of the scheduler. -/
def dsqIds (m : Machine) : List UInt64 :=
  (List.range m.nrCpuIds).map cpuDsqId ++ [sharedDsq, schedDsq]

theorem cpuToDsq_of_ge {cpu : ℕ} (h : ¬ cpu < maxCpus) (hlt : cpu < 2 ^ 31) (w : World m) :
    (w.cpuToDsq (Int32.ofNat cpu)).1 = sharedDsq := by
  have hcpu : (Int32.ofNat cpu).toInt = cpu := Int32.toInt_ofNat_of_lt hlt
  have hinvalid : Int32.ofNat cpu < 0 ∨ Int32.ofNat maxCpus ≤ Int32.ofNat cpu := by
    refine Or.inr ?_
    rw [Int32.le_iff_toInt_le, hcpu, show (Int32.ofNat maxCpus).toInt = maxCpus from rfl]
    omega
  rw [World.cpuToDsq, if_pos hinvalid]

theorem cpuToDsq_fst_eq {cpu : ℕ} (hlt : cpu < 2 ^ 31) (w : World m) :
    (w.cpuToDsq (Int32.ofNat cpu)).1 = cpuDsqId cpu := by
  rw [cpuDsqId]
  split_ifs with h
  · rw [cpuToDsq_of_lt h]
  · exact cpuToDsq_of_ge h hlt w

/-- A queue is created only under a new id. -/
theorem scxBpfCreateDsq_ok {ie : InitEnv m} {dsq : UInt64} {w : World m}
    (h : (w.scxBpfCreateDsq ie dsq).1 = 0) :
    w.dsqs dsq = none ∧
      (w.scxBpfCreateDsq ie dsq).2 = { w with dsqs := Function.update w.dsqs dsq (some 0) } := by
  rw [World.scxBpfCreateDsq] at h ⊢
  split_ifs at h ⊢ with hsome halloc
  · exact absurd (show -eEXIST = 0 from h) (by decide)
  · exact ⟨by simpa using hsome, rfl⟩
  · exact absurd (show -eNOMEM = 0 from h) (by decide)

theorem isSome_update_dsq (dsqs : UInt64 → Option ℕ) (dsq id : UInt64) :
    (Function.update dsqs dsq (some 0) id).isSome ↔ (dsqs id).isSome ∨ id = dsq := by
  by_cases h : id = dsq
  · simp [h]
  · simp [h]

/-- One iteration of a loop that succeeds. -/
theorem createCpuDsqs_cons {ie : InitEnv m} {cpu : ℕ} {cpus : List ℕ} {w : World m}
    (h : (createCpuDsqs ie (cpu :: cpus) w).1 = 0) :
    w.dsqs (w.cpuToDsq (Int32.ofNat cpu)).1 = none ∧
      createCpuDsqs ie (cpu :: cpus) w =
        createCpuDsqs ie cpus { (w.cpuToDsq (Int32.ofNat cpu)).2 with
          dsqs := Function.update w.dsqs (w.cpuToDsq (Int32.ofNat cpu)).1 (some 0) } := by
  have hdsqs : (w.cpuToDsq (Int32.ofNat cpu)).2.dsqs = w.dsqs := (Quiet.cpuToDsq w _).dsqs
  rw [createCpuDsqs] at h ⊢
  by_cases herr : (((w.cpuToDsq (Int32.ofNat cpu)).2.scxBpfCreateDsq ie
      (w.cpuToDsq (Int32.ofNat cpu)).1).1 ≠ 0)
  · rw [if_pos herr] at h
    exact absurd h herr
  · obtain ⟨hnew, hworld⟩ := scxBpfCreateDsq_ok (not_not.mp herr)
    rw [hdsqs] at hnew hworld
    rw [if_neg herr, hworld]
    exact ⟨hnew, rfl⟩

/-- The loop succeeds only if the ids are new and all different. -/
theorem createCpuDsqs_ok {ie : InitEnv m} {cpus : List ℕ} {w : World m}
    (hlt : ∀ cpu ∈ cpus, cpu < 2 ^ 31) (h : (createCpuDsqs ie cpus w).1 = 0) :
    (cpus.map cpuDsqId).Nodup ∧ (∀ id ∈ cpus.map cpuDsqId, w.dsqs id = none) ∧
      ∀ id, ((createCpuDsqs ie cpus w).2.dsqs id).isSome ↔
        (w.dsqs id).isSome ∨ id ∈ cpus.map cpuDsqId := by
  induction cpus generalizing w with
  | nil => exact ⟨List.nodup_nil, by simp, fun id => by simp [createCpuDsqs]⟩
  | cons cpu cpus ih =>
    obtain ⟨hnew, hnext⟩ := createCpuDsqs_cons h
    rw [hnext] at h ⊢
    obtain ⟨hnodup, hfresh, hall⟩ := ih (fun c hc => hlt c (List.mem_cons_of_mem _ hc)) h
    rw [cpuToDsq_fst_eq (hlt cpu List.mem_cons_self)] at hnew hfresh hall ⊢
    dsimp only at hfresh hall
    -- the ids that follow are not the one just taken
    have hne : ∀ id ∈ cpus.map cpuDsqId, id ≠ cpuDsqId cpu ∧ w.dsqs id = none := by
      intro id hmem
      have hnone := hfresh id hmem
      by_cases heq : id = cpuDsqId cpu
      · rw [heq, Function.update_self] at hnone
        exact absurd hnone (by simp)
      · rw [Function.update_of_ne heq] at hnone
        exact ⟨heq, hnone⟩
    refine ⟨?_, ?_, fun id => ?_⟩
    · rw [List.map_cons, List.nodup_cons]
      exact ⟨fun hmem => (hne _ hmem).1 rfl, hnodup⟩
    · intro id hmem
      rcases List.mem_cons.mp hmem with rfl | hmem
      · exact hnew
      · exact (hne id hmem).2
    · rw [hall id, isSome_update_dsq, List.map_cons, List.mem_cons, or_assoc]

/-- With CPU numbers in range the loop changes nothing else. -/
theorem createCpuDsqs_frame {ie : InitEnv m} {cpus : List ℕ} {w : World m}
    (hlt : ∀ cpu ∈ cpus, cpu < maxCpus) (h : (createCpuDsqs ie cpus w).1 = 0) :
    ∃ dsqs, (createCpuDsqs ie cpus w).2 = { w with dsqs := dsqs } := by
  induction cpus generalizing w with
  | nil => exact ⟨w.dsqs, rfl⟩
  | cons cpu cpus ih =>
    obtain ⟨-, hnext⟩ := createCpuDsqs_cons h
    rw [hnext] at h ⊢
    obtain ⟨dsqs, hdsqs⟩ := ih (fun c hc => hlt c (List.mem_cons_of_mem _ hc)) h
    refine ⟨dsqs, ?_⟩
    rw [hdsqs, cpuToDsq_of_lt (hlt cpu List.mem_cons_self)]

/-- What `dsq_init` has done if it returns `0`; `w'` is the world after the loop. -/
theorem dsqInit_ok {ie : InitEnv m} {w : World m} (h : (dsqInit ie w).1 = 0) :
    ∃ bss w', createCpuDsqs ie (List.range w.nrCpuIds) { w with bss := bss } = (0, w') ∧
      w'.dsqs sharedDsq = none ∧ w'.dsqs schedDsq = none ∧
      (dsqInit ie w).2 = { w' with
        dsqs := Function.update (Function.update w'.dsqs sharedDsq (some 0)) schedDsq (some 0) } := by
  rw [dsqInit] at h ⊢
  refine ⟨{ w.bss with nrOnlineCpus := UInt64.ofNat (getNrOnlineCpus ie w) }, ?_⟩
  dsimp only [World.updBss] at h ⊢
  rcases hcpus : createCpuDsqs ie (List.range w.nrCpuIds) { w with
    bss := { w.bss with nrOnlineCpus := UInt64.ofNat (getNrOnlineCpus ie w) } } with ⟨err, w₁⟩
  rw [hcpus] at h
  dsimp only at h ⊢
  by_cases herr : err ≠ 0
  · rw [if_pos herr] at h
    exact absurd h herr
  rw [if_neg herr] at h ⊢
  refine ⟨w₁, by rw [not_not.mp herr], ?_⟩
  -- `SHARED_DSQ`, then `SCHED_DSQ`
  rcases hshared : w₁.scxBpfCreateDsq ie sharedDsq with ⟨err₂, w₂⟩
  rw [hshared] at h
  dsimp only at h ⊢
  by_cases herr₂ : err₂ ≠ 0
  · rw [if_pos herr₂] at h
    exact absurd h herr₂
  rw [if_neg herr₂] at h ⊢
  obtain ⟨hnone, hworld⟩ := scxBpfCreateDsq_ok ((congrArg Prod.fst hshared).trans
    (not_not.mp herr₂))
  rw [hshared] at hworld
  rcases hsched : w₂.scxBpfCreateDsq ie schedDsq with ⟨err₃, w₃⟩
  rw [hsched] at h
  dsimp only at h hworld ⊢
  by_cases herr₃ : err₃ ≠ 0
  · rw [if_pos herr₃] at h
    exact absurd h herr₃
  rw [if_neg herr₃]
  obtain ⟨hnone', hworld'⟩ := scxBpfCreateDsq_ok ((congrArg Prod.fst hsched).trans
    (not_not.mp herr₃))
  rw [hsched, hworld] at hworld'
  rw [hworld] at hnone'
  dsimp only at hnone'
  rw [Function.update_of_ne (by decide)] at hnone'
  exact ⟨hnone, hnone', hworld'⟩

theorem userschedTimerInit_ok {ie : InitEnv m} {w : World m}
    (h : (userschedTimerInit ie w).1 = 0) : (userschedTimerInit ie w).2 = w := by
  rw [userschedTimerInit] at h ⊢
  split_ifs at h ⊢ with hfound herr
  · exact absurd (show -eSRCH = 0 from h) (by decide)
  · exact absurd h herr
  · rfl

theorem golandInit_ok {ie : InitEnv m} {w₀ w₁ : World m} (h : golandInit ie w₀ = (0, w₁)) :
    dsqInit ie { w₀ with nrCpuIds := m.nrCpuIds } = (0, w₁) := by
  rw [golandInit] at h
  rcases hdsqs : dsqInit ie { w₀ with nrCpuIds := m.nrCpuIds } with ⟨err, w⟩
  rw [hdsqs] at h
  dsimp only at h
  by_cases herr : err ≠ 0
  · rw [if_pos herr, Prod.mk.injEq] at h
    exact absurd h.1 herr
  rw [if_neg herr] at h
  by_cases htimer : (userschedTimerInit ie w).1 ≠ 0
  · rw [if_pos htimer] at h
    exact absurd (congrArg Prod.fst h) htimer
  rw [if_neg htimer, Prod.mk.injEq, userschedTimerInit_ok (not_not.mp htimer)] at h
  rw [not_not.mp herr, h.2]

/-- **A successful `goland_init` has created every queue.**  There are at most
`MAX_CPUS` CPUs, the ids are all different, and nothing but the queues and the
static variables has changed. -/
theorem golandInit_creates {ie : InitEnv m} {w₀ w₁ : World m}
    (h : golandInit ie w₀ = (0, w₁)) :
    m.nrCpuIds ≤ maxCpus ∧ (dsqIds m).Nodup ∧
      (∀ id, (w₁.dsqs id).isSome ↔ (w₀.dsqs id).isSome ∨ id ∈ dsqIds m) ∧
      ∃ bss dsqs, w₁ = { w₀ with nrCpuIds := m.nrCpuIds, bss := bss, dsqs := dsqs } := by
  have hinit := golandInit_ok h
  obtain ⟨bss, w', hloop, hshared, hsched, hworld⟩ := dsqInit_ok (congrArg Prod.fst hinit)
  rw [hinit] at hworld
  dsimp only at hworld hloop
  have hlt : ∀ cpu ∈ List.range m.nrCpuIds, cpu < 2 ^ 31 := fun cpu hcpu =>
    lt_trans (List.mem_range.mp hcpu) m.nrCpuIds_lt
  obtain ⟨hnodup, hnew, hall⟩ := createCpuDsqs_ok hlt (congrArg Prod.fst hloop)
  rw [hloop] at hall
  dsimp only at hall hnew
  -- a queue that the loop has created is not created again
  have hfresh : ∀ id, w'.dsqs id = none → id ∉ (List.range m.nrCpuIds).map cpuDsqId := by
    intro id hid hmem
    have hsome := (hall id).mpr (Or.inr hmem)
    rw [hid] at hsome
    exact absurd hsome (by simp)
  -- CPU number `MAX_CPUS` would have taken the id of `SHARED_DSQ`
  have hcpus : m.nrCpuIds ≤ maxCpus := by
    by_contra hgt
    refine hfresh sharedDsq hshared (List.mem_map.mpr ⟨maxCpus, ?_, ?_⟩)
    · exact List.mem_range.mpr (not_le.mp hgt)
    · rw [cpuDsqId, if_neg (lt_irrefl _)]
  refine ⟨hcpus, ?_, ?_, ?_⟩
  · refine List.nodup_append.mpr ⟨hnodup, by decide, ?_⟩
    rintro a ha b hb rfl
    rw [List.mem_cons, List.mem_singleton] at hb
    rcases hb with rfl | rfl
    · exact hfresh _ hshared ha
    · exact hfresh _ hsched ha
  · intro id
    rw [hworld]
    dsimp only
    rw [isSome_update_dsq, isSome_update_dsq, hall id, dsqIds, List.mem_append, List.mem_cons,
      List.mem_singleton]
    tauto
  · have hin : ∀ cpu ∈ List.range m.nrCpuIds, cpu < maxCpus := fun cpu hcpu =>
      lt_of_lt_of_le (List.mem_range.mp hcpu) hcpus
    obtain ⟨dsqs, hdsqs⟩ := createCpuDsqs_frame hin (congrArg Prod.fst hloop)
    rw [hloop] at hdsqs
    dsimp only at hdsqs
    rw [hworld, hdsqs]
    exact ⟨bss, _, rfl⟩

/-! ### The world after `goland_init` -/

/-- The maps and ring buffers of the program are empty when it is loaded. -/
structure World.AtLoad (w : World m) : Prop where
  taskCtx : ∀ pid, w.taskCtx pid = none
  priorityTasks : w.priorityTasks = BoundedMap.empty _ _ _
  runningTask : w.runningTask = BoundedMap.empty _ _ _
  queued : w.queued = []
  dispatched : w.dispatched = []
  buf : w.buf = []
  log : w.log = []

/-- The scheduler has been loaded and `goland_init` has returned `0`. -/
def Started (w : World m) : Prop := ∃ ie w₀, w₀.AtLoad ∧ golandInit ie w₀ = (0, w)

theorem Started.atLoad {w : World m} (h : Started w) : w.AtLoad := by
  obtain ⟨ie, w₀, hload, hinit⟩ := h
  obtain ⟨-, -, -, bss, dsqs, rfl⟩ := golandInit_creates hinit
  exact ⟨hload.taskCtx, hload.priorityTasks, hload.runningTask, hload.queued, hload.dispatched,
    hload.buf, hload.log⟩

theorem Started.nrCpuIds_le {w : World m} (h : Started w) : m.nrCpuIds ≤ maxCpus := by
  obtain ⟨ie, w₀, -, hinit⟩ := h
  exact (golandInit_creates hinit).1

/-- Two CPUs, with the live tasks `tasks`, before any queue has been created. -/
def bareWorld (tasks : TaskTable twoCpus) : World twoCpus :=
  { World.loaded twoCpus 4 with tasks := tasks, dsqs := fun _ => none }

/-- All allocations succeed, and the timer starts. -/
def plainInit : InitEnv twoCpus := ⟨{cpu0, cpu1}, fun _ => true, true, 0⟩

def startedWorld (tasks : TaskTable twoCpus) : World twoCpus :=
  (golandInit plainInit (bareWorld tasks)).2

/-- The kernel with task 7 only. -/
def onlyTask7 : World twoCpus := startedWorld ((TaskTable.empty twoCpus).set (plainTask 7))

theorem golandInit_bareWorld (tasks : TaskTable twoCpus) :
    golandInit plainInit (bareWorld tasks) = (0, startedWorld tasks) := rfl

theorem started_startedWorld (tasks : TaskTable twoCpus) : Started (startedWorld tasks) :=
  ⟨plainInit, bareWorld tasks, ⟨fun _ => rfl, rfl, rfl, rfl, rfl, rfl, rfl⟩,
    golandInit_bareWorld tasks⟩

end ScxGoland
