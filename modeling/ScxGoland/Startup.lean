/-
Starting the scheduler: `/proc`, the configuration and `goland_init`.

`main` stores its own pid and that of `khugepaged` in the read-only data of the BPF
program.  `KhugepagePid` finds the latter by a search through `/proc`: a kernel thread
has no `exe`, which tells it from a process of the same name.

* `khugepagePid_eq` — among any other entries of `/proc`, in any order, the search
  returns the first kernel thread of this name;
* `reclaim_never_waits` — with the configuration of `main`, no run ever sends
  `khugepaged` or a thread of the scheduler to user space;
* `golandInit_succeeds_iff` — exactly when `goland_init` succeeds.
-/
import ScxGoland.GoStrings
import ScxGoland.Submissions

open GoStrings Runs

namespace ScxGoland

variable {m : Machine}

/-! ### `KhugepagePid` -/

/-- An entry of `/proc`: its name, whether it is a directory, what `os.ReadFile` yields
for its `comm`, and whether `os.Readlink` succeeds for its `exe`. -/
structure ProcEntry where
  name : GoString
  isDir : Bool
  comm : Option GoString
  exe : Bool

/-- The loop of `KhugepagePid`. -/
def khugepagePidFrom : List ProcEntry → UInt32
  | [] => 0
  | entry :: entries =>
    if entry.isDir = false then khugepagePidFrom entries
    else if (atoi entry.name).isNone then khugepagePidFrom entries
    else
      match entry.comm with
      | none => khugepagePidFrom entries
      | some commData =>
        if trimSpace commData ≠ lit "khugepaged" then khugepagePidFrom entries
        else if entry.exe then khugepagePidFrom entries
        else
          match parseUint 32 entry.name with
          | some pid => UInt32.ofNat pid
          | none => khugepagePidFrom entries

/-- `KhugepagePid`; there are no entries if `os.ReadDir` fails. -/
def khugepagePid (entries : Option (List ProcEntry)) : UInt32 :=
  match entries with
  | none => 0
  | some entries => khugepagePidFrom entries

/-- A process that `/proc` shows: its name, and whether it runs a program. -/
structure Process where
  pid : ℕ
  comm : GoString
  exe : Bool
  pid_lt : pid < 2 ^ 22

/-- The directory of a process.  Its `comm` ends with a newline, and may be gone by the
time it is read. -/
def Process.entry (p : Process) (gone : Bool) : ProcEntry :=
  ⟨decimal p.pid, true, if gone then none else some (p.comm ++ [0x0a]), p.exe⟩

/-- Nothing that `KhugepagePid` takes for a process: a file, or a directory whose name is
not a number. -/
def ProcEntry.isOther (e : ProcEntry) : Bool := !e.isDir || (atoi e.name).isNone

/-- `/proc` shows these processes in this order, and anything else in between. -/
inductive Shows : List ProcEntry → List Process → Prop where
  | nil : Shows [] []
  | other {e entries procs} (he : e.isOther = true) (h : Shows entries procs) :
    Shows (e :: entries) procs
  | gone {p : Process} {entries procs} (h : Shows entries procs) :
    Shows (p.entry true :: entries) procs
  | process {p : Process} {entries procs} (h : Shows entries procs) :
    Shows (p.entry false :: entries) (p :: procs)

/-- The name of `khugepaged`, and no program. -/
def Process.isKhugepaged (p : Process) : Bool :=
  trimSpace (p.comm ++ [0x0a]) = lit "khugepaged" && !p.exe

theorem atoi_pid (p : Process) : (atoi (decimal p.pid)).isNone = false := by
  rw [atoi_decimal (lt_trans p.pid_lt (by decide))]
  rfl

theorem khugepagePid_eq {entries : List ProcEntry} {procs : List Process}
    (h : Shows entries procs) :
    khugepagePidFrom entries =
      (procs.find? Process.isKhugepaged).elim 0 fun p => UInt32.ofNat p.pid := by
  induction h with
  | nil => rfl
  | @other e entries procs he h ih =>
    rw [ProcEntry.isOther, Bool.or_eq_true, Bool.not_eq_true'] at he
    rw [khugepagePidFrom]
    rcases he with hfile | hname
    · rw [if_pos hfile]
      exact ih
    · rw [if_pos hname, ite_self]
      exact ih
  | @gone p entries procs h ih =>
    rw [khugepagePidFrom, Process.entry, if_neg (by simp), if_neg (by simp [atoi_pid])]
    exact ih
  | @process p entries procs h ih =>
    have hparse : parseUint 32 (decimal p.pid) = some p.pid :=
      parseUint_decimal (lt_trans p.pid_lt (by decide))
    rw [khugepagePidFrom, Process.entry, if_neg (by simp), if_neg (by simp [atoi_pid])]
    rw [List.find?_cons, Process.isKhugepaged]
    dsimp only
    by_cases hcomm : trimSpace (p.comm ++ [0x0a]) = lit "khugepaged"
    · by_cases hexe : p.exe = true
      · simp only [if_neg (show ¬ (false = true) by simp), hcomm, hexe, ne_eq, not_true_eq_false,
          if_false, if_true, decide_true, Bool.not_true, Bool.and_false]
        exact ih
      · simp [hcomm, hexe, hparse]
    · simp only [if_neg (show ¬ (false = true) by simp), ne_eq, hcomm, not_false_eq_true, if_true,
        decide_false, Bool.false_and]
      exact ih

/-- The kernel thread is found, if nothing else without a program bears its name. -/
theorem khugepagePid_of_unique {entries : List ProcEntry} {procs : List Process} {k : Process}
    (h : Shows entries procs) (hk : k ∈ procs) (hcomm : k.comm = lit "khugepaged")
    (hexe : k.exe = false) (hunique : ∀ p ∈ procs, p.isKhugepaged = true → p.pid = k.pid) :
    khugepagePid (some entries) = UInt32.ofNat k.pid := by
  have hkh : k.isKhugepaged = true := by
    have htrim : trimSpace (lit "khugepaged" ++ [0x0a]) = lit "khugepaged" := by decide +kernel
    rw [Process.isKhugepaged, hcomm, hexe, htrim]
    simp
  rw [khugepagePid, khugepagePid_eq h]
  rcases hfind : procs.find? Process.isKhugepaged with _ | p
  · exact absurd hkh (List.find?_eq_none.mp hfind k hk)
  · rw [Option.elim_some, hunique p (List.mem_of_find?_eq_some hfind) (List.find?_some hfind)]

/-! ### The configuration -/

/-- The read-only data of the BPF program when it is loaded. -/
def Rodata.loaded (headers : ScxHeaders) : Rodata where
  toScxHeaders := headers
  userschedPid := 0
  khugepagedPid := 0
  earlyProcessing := false
  builtinIdle := false
  smtEnabled := true
  defaultSlice := 20000000

/-- `AssignUserSchedPid`. -/
def assignUserSchedPid (entries : Option (List ProcEntry)) (pid : Int64) (ro : Rodata) : Rodata :=
  { ro with khugepagedPid := khugepagePid entries, userschedPid := pid.toInt32.toUInt32 }

def setBuiltinIdle (enabled : Bool) (ro : Rodata) : Rodata := { ro with builtinIdle := enabled }

/-- The settings that `main` makes before `Start`. -/
def mainRodata (entries : Option (List ProcEntry)) (pid : Int64) (headers : ScxHeaders) : Rodata :=
  setBuiltinIdle true (assignUserSchedPid entries pid (Rodata.loaded headers))

/-- **Memory reclaim never waits for user space.**  Let `/proc` show the kernel thread
`khugepaged` among other processes and entries, in any order, and no other one of this
name that runs no program.  Then in every run with the configuration of `main`, of all
records that reach user space or are on their way there, none is of `khugepaged`, and
none of a thread of the scheduler itself. -/
theorem reclaim_never_waits {entries : List ProcEntry} {procs : List Process} {k : Process}
    (h : Shows entries procs) (hk : k ∈ procs) (hcomm : k.comm = lit "khugepaged")
    (hexe : k.exe = false) (hpos : k.pid ≠ 0)
    (hunique : ∀ p ∈ procs, p.isKhugepaged = true → p.pid = k.pid) (pid : Int64)
    (headers : ScxHeaders) (w₀ : World m) (hstart : Started w₀) (ls : List (Label m))
    (w : World m) (hrun : run (step (mainRodata (some entries) pid headers)) w₀ ls = some w) :
    ∀ r ∈ outputs (step (mainRodata (some entries) pid headers)) consumedBy w₀ ls ++ w.queued,
      r.pid ≠ Int32.ofNat k.pid ∧ r.pid ≠ pid.toInt32 ∧ r.tgid ≠ pid.toInt32 := by
  intro r hr
  have hring := outputs_conserved (fun _ _ _ h => (step_ring h).1) hrun
  rw [hstart.atLoad.queued, List.nil_append] at hring
  rw [hring] at hr
  obtain ⟨u, l, -, hmem⟩ := exists_takes_of_mem_outputs hrun hr
  obtain ⟨env, enqFlags, p, -, hp, hexempt, hinfo⟩ := submittedBy_ordinary hmem
  have hpid : p.pid = r.pid := u.tasks.find_pid hp
  have htgid : r.tgid = p.tgid := by rw [hinfo, getTaskInfo]
  have hfound : (mainRodata (some entries) pid headers).khugepagedPid =
      UInt32.ofNat k.pid := khugepagePid_of_unique h hk hcomm hexe hunique
  simp only [isExempt, Bool.or_eq_false_iff] at hexempt
  obtain ⟨⟨⟨hsched, hbelong⟩, -⟩, -, hkhuge⟩ := hexempt
  refine ⟨fun heq => ?_, fun heq => ?_, fun heq => ?_⟩
  · -- the pid is not `0`, so `is_khugepaged` would have been true
    rw [isKhugepaged, hfound, hpid, heq, decide_eq_false_iff_not] at hkhuge
    refine hkhuge ⟨fun hzero => hpos ?_, rfl⟩
    have hnat := congrArg UInt32.toNat hzero
    rwa [UInt32.toNat_ofNat_of_lt' (lt_trans k.pid_lt (by decide))] at hnat
  · rw [isUserschedTask, hpid, heq, decide_eq_false_iff_not] at hsched
    exact hsched rfl
  · rw [isBelongUserschedTask, ← htgid, heq, decide_eq_false_iff_not] at hbelong
    exact hbelong rfl

/-- Of two processes called `khugepaged` the second one is the kernel thread. -/
def procEntries : List ProcEntry :=
  [⟨lit "version", false, none, false⟩, ⟨lit "sys", true, none, false⟩,
    Process.entry ⟨31, lit "khugepaged", true, by decide⟩ false,
    Process.entry ⟨39, lit "khugepaged", false, by decide⟩ false]

theorem reclaim_never_waits_two_khugepaged :
    let ro := mainRodata (some procEntries) 1 plainRodata.toScxHeaders
    let w₀ := startedWorld (((TaskTable.empty twoCpus).set (plainTask 39)).set (plainTask 7))
    let ls : List (Label twoCpus) :=
      [.enqueue (Env.lowest cpu0) 39 0, .enqueue (Env.lowest cpu0) 7 0]
    ∃ w, run (step ro) w₀ ls = some w ∧ w.queued.map QueuedTaskCtx.pid = [7] ∧
      ∀ r ∈ outputs (step ro) consumedBy w₀ ls ++ w.queued,
        r.pid ≠ 39 ∧ r.pid ≠ Int64.toInt32 1 ∧ r.tgid ≠ Int64.toInt32 1 := by
  intro ro w₀ ls
  obtain ⟨w, hw, hqueued⟩ : ∃ w, run (step ro) w₀ ls = some w ∧
      w.queued.map QueuedTaskCtx.pid = [7] :=
    Option.map_eq_some_iff.mp (show (run (step ro) w₀ ls).map
      (fun w => w.queued.map QueuedTaskCtx.pid) = some [7] by decide +kernel)
  have hshows : Shows procEntries [⟨31, lit "khugepaged", true, by decide⟩,
      ⟨39, lit "khugepaged", false, by decide⟩] :=
    .other (by decide +kernel) (.other (by decide +kernel) (.process (.process .nil)))
  refine ⟨w, hw, hqueued, reclaim_never_waits hshows (List.mem_cons_of_mem _ List.mem_cons_self) rfl
    rfl (by decide) (fun p hp hkh => ?_) 1 _ w₀ (started_startedWorld _) ls w hw⟩
  rw [List.mem_cons, List.mem_singleton] at hp
  rcases hp with rfl | rfl
  · exact absurd hkh (by simp [Process.isKhugepaged])
  · rfl

/-! ### `goland_init` -/

/-- The id is not taken, and there is memory for a queue. -/
def Creatable (ie : InitEnv m) (w : World m) (id : UInt64) : Prop :=
  w.dsqs id = none ∧ ie.alloc id = true

/-- Exactly under the condition a part of `goland_init` succeeds; otherwise it ends with
`scx_bpf_error`. -/
def SucceedsIff (P : Prop) (r : Int32 × World m) : Prop :=
  (r.1 = 0 ↔ P) ∧ (r.1 ≠ 0 → ∃ msg log, r.2.log = .error msg :: log)

theorem scxBpfCreateDsq_cases (ie : InitEnv m) (id : UInt64) (w : World m) :
    (Creatable ie w id ∧
      w.scxBpfCreateDsq ie id = (0, { w with dsqs := Function.update w.dsqs id (some 0) })) ∨
    (¬ Creatable ie w id ∧ ∃ err, err ≠ 0 ∧ w.scxBpfCreateDsq ie id = (err, w)) := by
  rw [World.scxBpfCreateDsq]
  rcases hsome : w.dsqs id with _ | n
  · by_cases halloc : ie.alloc id = true
    · exact Or.inl ⟨⟨hsome, halloc⟩, by simp [halloc]⟩
    · exact Or.inr ⟨fun h => halloc h.2, -eNOMEM, by decide, by simp [halloc]⟩
  · refine Or.inr ⟨fun h => ?_, -eEXIST, by decide, by simp⟩
    rw [h.1] at hsome
    exact absurd hsome (by simp)

theorem creatable_update {ie : InitEnv m} {w w' : World m} {id id' : UInt64}
    (hdsqs : w'.dsqs = Function.update w.dsqs id (some 0)) :
    Creatable ie w' id' ↔ id' ≠ id ∧ Creatable ie w id' := by
  rw [Creatable, Creatable, hdsqs]
  by_cases hid : id' = id
  · simp [hid]
  · simp [hid]

/-- The loop needs ids that are all different and creatable. -/
theorem createCpuDsqs_iff {ie : InitEnv m} {cpus : List ℕ} {w : World m}
    (hlt : ∀ cpu ∈ cpus, cpu < 2 ^ 31) :
    SucceedsIff ((cpus.map cpuDsqId).Nodup ∧ ∀ id ∈ cpus.map cpuDsqId, Creatable ie w id)
      (createCpuDsqs ie cpus w) := by
  induction cpus generalizing w with
  | nil => exact ⟨by simp [createCpuDsqs], fun h => absurd rfl h⟩
  | cons cpu cpus ih =>
    have hid := cpuToDsq_fst_eq (hlt cpu List.mem_cons_self) w
    have hdsqs : (w.cpuToDsq (Int32.ofNat cpu)).2.dsqs = w.dsqs := (Quiet.cpuToDsq w _).dsqs
    have hsame : Creatable ie (w.cpuToDsq (Int32.ofNat cpu)).2 (cpuDsqId cpu) ↔
        Creatable ie w (cpuDsqId cpu) := by rw [Creatable, hdsqs, Creatable]
    rw [createCpuDsqs, hid]
    rcases scxBpfCreateDsq_cases ie (cpuDsqId cpu) (w.cpuToDsq (Int32.ofNat cpu)).2 with
      ⟨hnew, heq⟩ | ⟨hold, err, herr, heq⟩
    · rw [heq, if_neg (by simp)]
      obtain ⟨hiff, herror⟩ := @ih { (w.cpuToDsq (Int32.ofNat cpu)).2 with
        dsqs := Function.update (w.cpuToDsq (Int32.ofNat cpu)).2.dsqs (cpuDsqId cpu) (some 0) }
        fun c hc => hlt c (List.mem_cons_of_mem _ hc)
      refine ⟨hiff.trans ?_, herror⟩
      have hrest : ∀ id, Creatable ie { (w.cpuToDsq (Int32.ofNat cpu)).2 with
          dsqs := Function.update (w.cpuToDsq (Int32.ofNat cpu)).2.dsqs (cpuDsqId cpu)
            (some 0) } id ↔ id ≠ cpuDsqId cpu ∧ Creatable ie w id :=
        fun id => creatable_update (by rw [hdsqs])
      simp only [hrest, List.map_cons, List.nodup_cons, List.forall_mem_cons]
      constructor
      · rintro ⟨hnodup, hall⟩
        exact ⟨⟨fun hmem => (hall _ hmem).1 rfl, hnodup⟩, hsame.mp hnew,
          fun id hmem => (hall id hmem).2⟩
      · rintro ⟨⟨hnotin, hnodup⟩, -, hall⟩
        exact ⟨hnodup, fun id hmem => ⟨fun h => hnotin (h ▸ hmem), hall id hmem⟩⟩
    · rw [heq, if_pos herr]
      refine ⟨⟨fun h => absurd h herr, fun h => ?_⟩, fun _ => ⟨_, _, rfl⟩⟩
      exact absurd (hsame.mpr (h.2 _ (List.mem_map_of_mem List.mem_cons_self))) hold

theorem userschedTimerInit_iff (ie : InitEnv m) (w : World m) :
    SucceedsIff (ie.timerFound = true ∧ ie.timerErr = 0) (userschedTimerInit ie w) := by
  have hsrch : -eSRCH ≠ 0 := by decide
  rw [userschedTimerInit]
  split_ifs with hfound herr
  · exact ⟨by simp [hfound, hsrch], fun _ => ⟨_, _, rfl⟩⟩
  · exact ⟨by simp [herr], fun _ => ⟨_, _, rfl⟩⟩
  · simp only [Bool.not_eq_false] at hfound
    exact ⟨by simpa [hfound] using herr, fun h => absurd rfl h⟩

/-- A queue that the loop has created is not creatable any more. -/
theorem creatable_createCpuDsqs {ie : InitEnv m} {cpus : List ℕ} {w w' : World m}
    (hlt : ∀ cpu ∈ cpus, cpu < 2 ^ 31) (h : createCpuDsqs ie cpus w = (0, w')) (id : UInt64) :
    Creatable ie w' id ↔ id ∉ cpus.map cpuDsqId ∧ Creatable ie w id := by
  obtain ⟨-, -, hall⟩ := createCpuDsqs_ok hlt (congrArg Prod.fst h)
  have hid := hall id
  rw [h] at hid
  rw [Creatable, Creatable, ← Option.not_isSome_iff_eq_none, ← Option.not_isSome_iff_eq_none, hid]
  tauto

/-- The conditions on two more queues, behind those of the CPUs. -/
theorem creatable_append_iff {ie : InitEnv m} {w : World m} (ids : List UInt64) :
    ((ids ++ [sharedDsq, schedDsq]).Nodup ∧
        ∀ id ∈ ids ++ [sharedDsq, schedDsq], Creatable ie w id) ↔
      (ids.Nodup ∧ ∀ id ∈ ids, Creatable ie w id) ∧
        (sharedDsq ∉ ids ∧ Creatable ie w sharedDsq) ∧
        (schedDsq ∉ ids ∧ Creatable ie w schedDsq) := by
  have hpair : [sharedDsq, schedDsq].Nodup := by decide
  rw [List.nodup_append, List.forall_mem_append]
  constructor
  · rintro ⟨⟨hnodup, -, hdisj⟩, hall, hnew⟩
    exact ⟨⟨hnodup, hall⟩,
      ⟨fun h => hdisj _ h sharedDsq (by simp) rfl, hnew _ (by simp)⟩,
      ⟨fun h => hdisj _ h schedDsq (by simp) rfl, hnew _ (by simp)⟩⟩
  · rintro ⟨⟨hnodup, hall⟩, ⟨hshared, hcs⟩, ⟨hsched, hcd⟩⟩
    refine ⟨⟨hnodup, hpair, fun a ha b hb => ?_⟩, hall, fun id hid => ?_⟩
    · rintro rfl
      rcases List.mem_cons.mp hb with rfl | hb
      · exact hshared ha
      · rw [List.mem_singleton.mp hb] at ha
        exact hsched ha
    · rcases List.mem_cons.mp hid with rfl | hid
      · exact hcs
      · rw [List.mem_singleton.mp hid]
        exact hcd

theorem dsqInit_iff (ie : InitEnv m) (w : World m) (hlt : w.nrCpuIds < 2 ^ 31) :
    SucceedsIff (((List.range w.nrCpuIds).map cpuDsqId ++ [sharedDsq, schedDsq]).Nodup ∧
      ∀ id ∈ (List.range w.nrCpuIds).map cpuDsqId ++ [sharedDsq, schedDsq], Creatable ie w id)
      (dsqInit ie w) := by
  have hcpus : ∀ cpu ∈ List.range w.nrCpuIds, cpu < 2 ^ 31 :=
    fun cpu hcpu => lt_trans (List.mem_range.mp hcpu) hlt
  rw [creatable_append_iff, dsqInit]
  dsimp only [World.updBss]
  obtain ⟨hiff, herror⟩ := @createCpuDsqs_iff m ie _ { w with bss := { w.bss with
    nrOnlineCpus := UInt64.ofNat (getNrOnlineCpus ie w) } } hcpus
  rcases hloop : createCpuDsqs ie (List.range w.nrCpuIds) { w with bss := { w.bss with
    nrOnlineCpus := UInt64.ofNat (getNrOnlineCpus ie w) } } with ⟨err, w₁⟩
  rw [hloop] at hiff herror
  dsimp only
  change err = 0 ↔ _ ∧ ∀ id ∈ _, Creatable ie w id at hiff
  by_cases herr : err = 0
  · subst herr
    have hloopOk := hiff.mp rfl
    have hcreat : ∀ id, Creatable ie w₁ id ↔
        id ∉ (List.range w.nrCpuIds).map cpuDsqId ∧ Creatable ie w id := fun id =>
      (creatable_createCpuDsqs hcpus hloop id).trans Iff.rfl
    rw [if_neg (by simp)]
    rcases scxBpfCreateDsq_cases ie sharedDsq w₁ with ⟨hnew, heq⟩ | ⟨hold, err, herr, heq⟩
    · rw [heq]
      dsimp only
      rw [if_neg (by simp)]
      have hnext : ∀ id, Creatable ie { w₁ with
          dsqs := Function.update w₁.dsqs sharedDsq (some 0) } id ↔
          id ≠ sharedDsq ∧ Creatable ie w₁ id := fun id => creatable_update rfl
      rcases scxBpfCreateDsq_cases ie schedDsq { w₁ with
          dsqs := Function.update w₁.dsqs sharedDsq (some 0) } with
        ⟨hnew', heq'⟩ | ⟨hold', err, herr, heq'⟩
      · rw [heq']
        dsimp only
        rw [if_neg (by simp)]
        refine ⟨⟨fun _ => ⟨hloopOk, (hcreat _).mp hnew, ?_⟩, fun _ => rfl⟩, fun h => absurd rfl h⟩
        exact (hcreat _).mp ((hnext _).mp hnew').2
      · rw [heq']
        dsimp only
        rw [if_pos herr]
        refine ⟨⟨fun h => absurd h herr, fun h => ?_⟩, fun _ => ⟨_, _, rfl⟩⟩
        exact absurd ((hnext _).mpr ⟨by decide, (hcreat _).mpr h.2.2⟩) hold'
    · rw [heq]
      dsimp only
      rw [if_pos herr]
      refine ⟨⟨fun h => absurd h herr, fun h => ?_⟩, fun _ => ⟨_, _, rfl⟩⟩
      exact absurd ((hcreat _).mpr h.2.1) hold
  · rw [if_pos herr]
    exact ⟨⟨fun h => absurd h herr, fun h => absurd (hiff.mpr h.1) herr⟩, herror⟩

/-- With too many CPUs two of them would share an id. -/
theorem nodup_dsqIds_iff : (dsqIds m).Nodup ↔ m.nrCpuIds ≤ maxCpus := by
  have hmax : maxCpus = 1024 := rfl
  constructor
  · intro hnodup
    by_contra hgt
    rw [dsqIds, List.nodup_append] at hnodup
    refine hnodup.2.2 sharedDsq (List.mem_map.mpr ⟨maxCpus, ?_, ?_⟩) sharedDsq (by simp) rfl
    · exact List.mem_range.mpr (not_le.mp hgt)
    · rw [cpuDsqId, if_neg (lt_irrefl _)]
  · intro hle
    have hid : ∀ cpu < m.nrCpuIds, (cpuDsqId cpu).toNat = cpu := by
      intro cpu hcpu
      rw [cpuDsqId, if_pos (lt_of_lt_of_le hcpu hle)]
      exact UInt64.toNat_ofNat_of_lt' (lt_of_lt_of_le hcpu (hle.trans (by decide)))
    have hother : ∀ id ∈ (List.range m.nrCpuIds).map cpuDsqId, id.toNat < maxCpus := by
      intro id hmem
      obtain ⟨cpu, hcpu, rfl⟩ := List.mem_map.mp hmem
      rw [hid cpu (List.mem_range.mp hcpu)]
      exact lt_of_lt_of_le (List.mem_range.mp hcpu) hle
    have hpair : [sharedDsq, schedDsq].Nodup := by decide
    refine List.nodup_append.mpr ⟨?_, hpair, fun a ha b hb => ?_⟩
    · refine List.Nodup.map_on (fun a ha b hb hab => ?_) List.nodup_range
      rw [← hid a (List.mem_range.mp ha), ← hid b (List.mem_range.mp hb), hab]
    · rintro rfl
      have hlt := hother a ha
      rw [List.mem_cons, List.mem_singleton] at hb
      rcases hb with rfl | rfl
      · exact absurd hlt (by decide)
      · exact absurd hlt (by decide)

/-- **When `goland_init` succeeds.**  It returns `0` exactly when there are at most
`MAX_CPUS` CPUs, none of the ids of the queues is taken, there is memory for all of
them, and the timer is found and can be armed; otherwise the last thing that it does
is to report an error, which ends the scheduler. -/
theorem golandInit_succeeds_iff (ie : InitEnv m) (w₀ : World m) :
    ((golandInit ie w₀).1 = 0 ↔ m.nrCpuIds ≤ maxCpus ∧
      (∀ id ∈ dsqIds m, w₀.dsqs id = none ∧ ie.alloc id = true) ∧
      ie.timerFound = true ∧ ie.timerErr = 0) ∧
    ((golandInit ie w₀).1 ≠ 0 → ∃ msg log, (golandInit ie w₀).2.log = .error msg :: log) := by
  obtain ⟨hdsqs, herror⟩ := dsqInit_iff ie { w₀ with nrCpuIds := m.nrCpuIds } m.nrCpuIds_lt
  change _ ↔ (dsqIds m).Nodup ∧ ∀ id ∈ dsqIds m, Creatable ie w₀ id at hdsqs
  rw [nodup_dsqIds_iff] at hdsqs
  rw [golandInit]
  dsimp only
  by_cases herr : (dsqInit ie { w₀ with nrCpuIds := m.nrCpuIds }).1 = 0
  · rw [if_neg (by simpa using herr)]
    obtain ⟨htimer, hterror⟩ := userschedTimerInit_iff ie
      (dsqInit ie { w₀ with nrCpuIds := m.nrCpuIds }).2
    obtain ⟨hcpus, hall⟩ := hdsqs.mp herr
    split_ifs with hbad
    · exact ⟨⟨fun h => absurd h hbad, fun h => absurd (htimer.mpr h.2.2) hbad⟩, hterror⟩
    · exact ⟨⟨fun _ => ⟨hcpus, hall, htimer.mp (not_not.mp hbad)⟩, fun _ => rfl⟩,
        fun h => absurd rfl h⟩
  · rw [if_pos herr]
    exact ⟨⟨fun h => absurd h herr, fun h => absurd (hdsqs.mpr ⟨h.1, h.2.1⟩) herr⟩, herror⟩

end ScxGoland
