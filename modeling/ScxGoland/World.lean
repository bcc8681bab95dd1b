/-
The state the BPF program works on, and the kernel functions it calls.

A `World` holds the tasks and idle CPUs of the kernel, the maps and global
variables of `main.bpf.c`, the two ring buffers and the dispatch buffer of the
`ops.dispatch()` call in progress.  The kernel functions of `scx/common.bpf.h`
are modelled by their documented effect on it.  Every effect that other parts
of the kernel can see is also recorded in `log`, newest event first.

What the kernel decides by itself is a parameter: an `Env` picks the idle CPU
that `scx_bpf_pick_idle_cpu` returns and says whether
`scx_bpf_dsq_move_to_local` found a task.
-/
import ScxGoland.BoundedMap
import ScxGoland.Records

namespace ScxGoland

/-- The number of possible CPUs (`scx_bpf_nr_cpu_ids`); the kernel numbers its
CPUs by non-negative `int`s. -/
structure Machine where
  nrCpuIds : ℕ
  nrCpuIds_lt : nrCpuIds < 2 ^ 31

/-- A possible CPU. -/
abbrev Cpu (m : Machine) := Fin m.nrCpuIds

/-- A `struct cpumask`, over the possible CPUs. -/
abbrev CpuMask (m : Machine) := Finset (Cpu m)

variable {m : Machine}

/-- A CPU as the `s32` that the BPF program handles. -/
def Cpu.toS32 (c : Cpu m) : Int32 := Int32.ofNat c.val

theorem Cpu.toInt_toS32 (c : Cpu m) : c.toS32.toInt = c.val :=
  Int32.toInt_ofNat_of_lt (lt_trans c.isLt m.nrCpuIds_lt)

theorem Cpu.toS32_nonneg (c : Cpu m) : ¬ c.toS32 < 0 := by
  rw [Int32.lt_iff_toInt_lt, Cpu.toInt_toS32, Int32.toInt_zero]
  omega

theorem Cpu.toS32_ne_neg (c : Cpu m) {e : Int32} (he : e < 0) : c.toS32 ≠ e := by
  rintro rfl
  exact c.toS32_nonneg he

/-- `bpf_cpumask_test_cpu`: the `s32` is read as a `u32`, and a number that is
no possible CPU is in no mask. -/
def bpfCpumaskTestCpu (cpu : Int32) (mask : CpuMask m) : Bool :=
  if h : cpu.toUInt32.toNat < m.nrCpuIds then decide (⟨cpu.toUInt32.toNat, h⟩ ∈ mask) else false

/-- A CPU number read as a `u32`. -/
theorem Cpu.toNat_toS32 (c : Cpu m) : c.toS32.toUInt32.toNat = c.val :=
  UInt32.toNat_ofNat_of_lt' (lt_trans c.isLt (lt_trans m.nrCpuIds_lt (by decide)))

theorem toS32_injective : Function.Injective (Cpu.toS32 (m := m)) := by
  intro c c' h
  have hint := congrArg Int32.toInt h
  rw [Cpu.toInt_toS32, Cpu.toInt_toS32] at hint
  exact Fin.ext (by exact_mod_cast hint)

theorem ofNat_toUInt32_toNat (cpu : Int32) : Int32.ofNat cpu.toUInt32.toNat = cpu :=
  Int32.ofNat_bitVecToNat cpu.toBitVec

/-- A number in a mask is that of a CPU. -/
theorem exists_cpu_of_test {cpu : Int32} {mask : CpuMask m}
    (h : bpfCpumaskTestCpu cpu mask = true) : ∃ c ∈ mask, cpu = c.toS32 := by
  rw [bpfCpumaskTestCpu] at h
  split_ifs at h with hlt
  exact ⟨⟨cpu.toUInt32.toNat, hlt⟩, of_decide_eq_true h, (ofNat_toUInt32_toNat cpu).symm⟩

theorem testCpu_toS32 (c : Cpu m) (mask : CpuMask m) :
    bpfCpumaskTestCpu c.toS32 mask = decide (c ∈ mask) := by
  have hval := c.toNat_toS32
  rw [bpfCpumaskTestCpu, dif_pos (hval ▸ c.isLt)]
  simp only [hval]

/-! ### Tasks -/

def pfEXITING : UInt32 := 0x00000004
def pfKCOMPACTD : UInt32 := 0x00010000
def pfKSWAPD : UInt32 := 0x00020000
def pfKTHREAD : UInt32 := 0x00200000

/-- The fields of a `struct task_struct` that the program reads. -/
structure TaskStruct (m : Machine) where
  pid : Int32
  tgid : Int32
  flags : UInt32
  -- `scx_bpf_task_cpu(p)`
  cpu : Cpu m
  cpusPtr : CpuMask m
  nrCpusAllowed : ℕ
  -- `is_migration_disabled(p)`
  migrationDisabled : Bool
  -- `scx_bpf_task_running(p)`
  running : Bool
  -- `p->scx.flags & SCX_TASK_QUEUED`
  queued : Bool
  weight : UInt32
  dsqVtime : UInt64
  slice : UInt64

/-- The live tasks by pid.  The pid under which a task is found is its own, so
no two live tasks share one. -/
structure TaskTable (m : Machine) where
  find : Int32 → Option (TaskStruct m)
  find_pid : ∀ {pid p}, find pid = some p → p.pid = pid

namespace TaskTable

/-- No task is alive. -/
def empty (m : Machine) : TaskTable m := ⟨fun _ => none, by simp⟩

/-- Add a task, or replace the one with its pid. -/
def set (t : TaskTable m) (p : TaskStruct m) : TaskTable m where
  find := Function.update t.find p.pid (some p)
  find_pid := by
    intro pid q h
    by_cases hp : pid = p.pid
    · subst hp
      rw [Function.update_self, Option.some_inj] at h
      exact h ▸ rfl
    · rw [Function.update_of_ne hp] at h
      exact t.find_pid h

/-- Forget a task. -/
def remove (t : TaskTable m) (pid : Int32) : TaskTable m where
  find := Function.update t.find pid none
  find_pid := by
    intro pid' q h
    by_cases hp : pid' = pid
    · subst hp
      rw [Function.update_self] at h
      exact absurd h (by simp)
    · rw [Function.update_of_ne hp] at h
      exact t.find_pid h

/-- Change the slice and the vtime of a live task. -/
def setSlice (t : TaskTable m) (pid : Int32) (slice vtime : TaskStruct m → UInt64) :
    TaskTable m where
  find q := if q = pid then (t.find q).map fun p => { p with slice := slice p, dsqVtime := vtime p }
    else t.find q
  find_pid := by
    intro q p h
    split_ifs at h
    · obtain ⟨p', hp', rfl⟩ := Option.map_eq_some_iff.mp h
      exact t.find_pid (p := p') hp'
    · exact t.find_pid h

theorem isSome_find_set (t : TaskTable m) (p : TaskStruct m) {q : Int32}
    (h : (t.find q).isSome) : ((t.set p).find q).isSome := by
  show (Function.update t.find p.pid (some p) q).isSome = true
  by_cases hq : q = p.pid
  · rw [hq, Function.update_self]
    rfl
  · rw [Function.update_of_ne hq]
    exact h

theorem find_remove_ne (t : TaskTable m) {pid q : Int32} (h : q ≠ pid) :
    (t.remove pid).find q = t.find q := Function.update_of_ne h _ _

/-- Changing slices keeps every task alive. -/
theorem isSome_find_setSlice (t : TaskTable m) (pid q : Int32)
    (slice vtime : TaskStruct m → UInt64) :
    ((t.setSlice pid slice vtime).find q).isSome = (t.find q).isSome := by
  rw [setSlice]
  dsimp only
  split_ifs
  · rw [Option.isSome_map]
  · rfl

end TaskTable

structure TaskCtx (m : Machine) where
  l2Cpumask : Option (CpuMask m)
  l3Cpumask : Option (CpuMask m)
  startTs : UInt64
  stopTs : UInt64
  execRuntime : UInt64

structure CpuCtx (m : Machine) where
  l2Cpumask : Option (CpuMask m)
  l3Cpumask : Option (CpuMask m)

/-! ### Dispatch queues and events -/

/-- A dispatch queue: one created by `scx_bpf_create_dsq`, or the local queue of
a CPU (`SCX_DSQ_LOCAL_ON | cpu`). -/
inductive DsqId where
  | user (id : UInt64)
  | localOn (cpu : Int32)
deriving DecidableEq

def sharedDsq : UInt64 := UInt64.ofNat maxCpus
def schedDsq : UInt64 := UInt64.ofNat (maxCpus + 1)

def scxSliceDfl : UInt64 := 20000000
def scxSliceInf : UInt64 := 0xffffffffffffffff
def scxEnqHead : UInt64 := 0x10
def scxEnqPreempt : UInt64 := 0x100000000
def scxWakeSync : UInt64 := 0x10

/-- One call of `scx_bpf_dsq_insert` (`vtime = none`) or of
`scx_bpf_dsq_insert_vtime`. -/
structure Insertion where
  pid : Int32
  dsq : DsqId
  slice : UInt64
  vtime : Option UInt64
  flags : UInt64
deriving DecidableEq

/-- `SCX_KICK_IDLE`, `SCX_KICK_PREEMPT` -/
inductive Kick where
  | idle
  | preempt
deriving DecidableEq

/-- What the program does to the rest of the kernel, and what the kernel does to
a task between callbacks. -/
inductive Event where
  | enqueueCalled (pid : Int32)
  | enqueueReturned (pid : Int32)
  | dequeued (pid : Int32)
  | inserted (i : Insertion)
  | cancelled (i : Insertion)
  | submitted (r : QueuedTaskCtx)
  | kicked (cpu : Int32) (kick : Kick)
  | claimed (cpu : Int32)
  | moveToLocal (cpu : Int32) (dsq : UInt64) (found : Bool)
  | error (msg : String)
deriving DecidableEq

/-- Kicks, claims and errors. -/
def Event.quiet : Event → Bool
  | .kicked _ _ | .claimed _ | .error _ => true
  | _ => false

/-- The event is an insertion of the task with this pid. -/
def Event.inserts (pid : Int32) : Event → Bool
  | .inserted i => i.pid = pid
  | _ => false

/-- The event is a record submitted for the task with this pid. -/
def Event.submits (pid : Int32) : Event → Bool
  | .submitted r => r.pid = pid
  | _ => false

/-! ### The world -/

/-- Two functions that the headers of scx define: `__COMPAT_is_enq_cpu_selected`, which
tells from the flags whether `ops.select_cpu()` ran for an enqueue, and `time_delta`. -/
structure ScxHeaders where
  isEnqCpuSelected : UInt64 → Bool
  timeDelta : UInt64 → UInt64 → Int64

/-- The read-only configuration, set before the program is loaded. -/
structure Rodata extends ScxHeaders where
  userschedPid : UInt32
  khugepagedPid : UInt32
  earlyProcessing : Bool
  builtinIdle : Bool
  smtEnabled : Bool
  defaultSlice : UInt64

/-- The counters that user space can read. -/
structure Bss where
  userschedLastRunAt : UInt64
  nrQueued : UInt64
  nrScheduled : UInt64
  nrRunning : UInt64
  nrOnlineCpus : UInt64
  nrUserDispatches : UInt64
  nrKernelDispatches : UInt64
  nrCancelDispatches : UInt64
  nrBounceDispatches : UInt64
  nrSchedCongested : UInt64
deriving DecidableEq

/-- What the kernel decides during one callback. -/
structure Env (m : Machine) where
  -- the CPU that the idle search takes from a set of candidates
  pick : CpuMask m → Option (Cpu m)
  pick_mem : ∀ {s c}, pick s = some c → c ∈ s
  pick_isSome : ∀ {s : CpuMask m}, s.Nonempty → (pick s).isSome
  -- whether `scx_bpf_dsq_move_to_local` finds a task in a queue
  moveToLocal : UInt64 → Bool
  -- `scx_bpf_now()`
  now : UInt64
  -- `bpf_get_smp_processor_id()`
  smpProcessorId : Cpu m
  -- `current->flags`
  currentFlags : UInt32

/-- The state of the kernel and of the BPF program. -/
structure World (m : Machine) where
  tasks : TaskTable m
  taskCtx : Int32 → Option (TaskCtx m)
  cpuCtx : Cpu m → CpuCtx m
  -- the CPUs that share a core with a CPU, itself included
  core : Cpu m → CpuMask m
  idle : CpuMask m
  idleSmt : CpuMask m
  -- the static variable `nr_cpu_ids`
  nrCpuIds : ℕ
  bss : Bss
  userschedNeeded : Bool
  priorityTasks : BoundedMap UInt32 UInt64 maxEnqueuedTasks
  runningTask : BoundedMap Int32 UInt32 maxCpus
  -- the records of the `@queued` ring, oldest first
  queued : List QueuedTaskCtx
  -- how many records the `@queued` ring can hold
  queuedCap : ℕ
  -- the samples of the `@dispatched` user ring, oldest first
  dispatched : List Bytes
  -- number of tasks in each queue that was created
  dsqs : UInt64 → Option ℕ
  -- insertions buffered by the `ops.dispatch()` call in progress
  buf : List Insertion
  log : List Event

/-- The kernel that always takes the lowest-numbered candidate and finds no task
to move. -/
def Env.lowest (cpu : Cpu m) : Env m where
  pick s := (List.finRange m.nrCpuIds).find? (· ∈ s)
  pick_mem h := by simpa using List.find?_some h
  pick_isSome := by
    rintro s ⟨c, hc⟩
    exact List.find?_isSome.mpr ⟨c, List.mem_finRange c, by simpa using hc⟩
  moveToLocal _ := false
  now := 0
  smpProcessorId := cpu
  currentFlags := 0

/-- The world when the program has just been loaded, with a `@queued` ring of
`cap` records. -/
def World.loaded (m : Machine) (cap : ℕ) : World m where
  tasks := TaskTable.empty m
  taskCtx _ := none
  cpuCtx _ := ⟨none, none⟩
  core c := {c}
  idle := ∅
  idleSmt := ∅
  nrCpuIds := m.nrCpuIds
  bss := ⟨0, 0, 0, 0, 0, 0, 0, 0, 0, 0⟩
  userschedNeeded := false
  priorityTasks := BoundedMap.empty _ _ _
  runningTask := BoundedMap.empty _ _ _
  queued := []
  queuedCap := cap
  dispatched := []
  dsqs _ := some 0
  buf := []
  log := []

/-- The callback that an insertion is made from: `ops.select_cpu()` and
`ops.enqueue()` dispatch a task directly, `ops.dispatch()` buffers. -/
inductive OpsCtx where
  | direct
  | dispatch

namespace World

/-- Record an event. -/
def emit (e : Event) (w : World m) : World m := { w with log := e :: w.log }

def scxBpfKickCpu (cpu : Int32) (kick : Kick) (w : World m) : World m :=
  w.emit (.kicked cpu kick)

def scxBpfError (msg : String) (w : World m) : World m := w.emit (.error msg)

/-- Clear the idle state of a CPU; its core is no longer fully idle. -/
def claim (c : Cpu m) (w : World m) : World m :=
  { w with idle := w.idle.erase c, idleSmt := w.idleSmt \ w.core c }.emit (.claimed c.toS32)

def scxBpfTestAndClearCpuIdle (cpu : Int32) (w : World m) : Bool × World m :=
  if h : cpu.toUInt32.toNat < m.nrCpuIds then
    if (⟨cpu.toUInt32.toNat, h⟩ : Cpu m) ∈ w.idle then (true, w.claim ⟨cpu.toUInt32.toNat, h⟩)
    else (false, w)
  else (false, w)

/-- `scx_bpf_pick_idle_cpu`, with or without `SCX_PICK_IDLE_CORE`. -/
def scxBpfPickIdleCpu (env : Env m) (mask : CpuMask m) (idleCore : Bool) (w : World m) :
    Int32 × World m :=
  match env.pick (mask ∩ if idleCore then w.idleSmt else w.idle) with
  | some c => (c.toS32, w.claim c)
  | none => (-eBUSY, w)

def scxBpfDsqNrQueued (dsq : UInt64) (w : World m) : ℤ :=
  match w.dsqs dsq with
  | some n => n
  | none => -eNOENT.toInt

def scxBpfDispatchNrSlots (w : World m) : ℕ := maxDispatchSlot - w.buf.length

/-- `scx_bpf_dsq_insert` and `scx_bpf_dsq_insert_vtime`: the slice (a zero slice
keeps the current one, or 1) and the vtime are set at once; `ops.dispatch()`
buffers the insertion if a slot is left. -/
def insert (ctx : OpsCtx) (i : Insertion) (w : World m) : World m :=
  let w := { w with
    tasks := w.tasks.setSlice i.pid
      (fun t => if i.slice ≠ 0 then i.slice else if t.slice ≠ 0 then t.slice else 1)
      (fun t => i.vtime.getD t.dsqVtime) }
  match ctx with
  | .direct => w.emit (.inserted i)
  | .dispatch =>
    if w.buf.length < maxDispatchSlot then { w with buf := w.buf ++ [i] }.emit (.inserted i)
    else w.scxBpfError "dispatch buffer overflow"

def scxBpfDsqInsert (ctx : OpsCtx) (pid : Int32) (dsq : DsqId) (slice flags : UInt64)
    (w : World m) : World m :=
  w.insert ctx ⟨pid, dsq, slice, none, flags⟩

def scxBpfDsqInsertVtime (ctx : OpsCtx) (pid : Int32) (dsq : DsqId) (slice vtime flags : UInt64)
    (w : World m) : World m :=
  w.insert ctx ⟨pid, dsq, slice, some vtime, flags⟩

/-- `scx_bpf_dispatch_cancel`: drop the most recent buffered insertion. -/
def scxBpfDispatchCancel (w : World m) : World m :=
  match w.buf.getLast? with
  | some i => { w with buf := w.buf.dropLast }.emit (.cancelled i)
  | none => w.scxBpfError "dispatch buffer underflow"

/-- `scx_bpf_dsq_move_to_local`, which first flushes the dispatch buffer. -/
def scxBpfDsqMoveToLocal (env : Env m) (cpu : Int32) (dsq : UInt64) (w : World m) :
    Bool × World m :=
  (env.moveToLocal dsq,
    { w with buf := [] }.emit (.moveToLocal cpu dsq (env.moveToLocal dsq)))

/-- Change the counters. -/
def updBss (f : Bss → Bss) (w : World m) : World m := { w with bss := f w.bss }

def cpuToDsq (cpu : Int32) (w : World m) : UInt64 × World m :=
  if cpu < 0 ∨ Int32.ofNat maxCpus ≤ cpu then
    (sharedDsq, w.scxBpfError ("Invalid cpu: " ++ toString cpu.toInt))
  else (cpu.toInt64.toUInt64, w)

def updatePriorityTaskMap (pid : UInt32) (vtime slice : UInt64) (w : World m) : World m :=
  if vtime = 0 then { w with priorityTasks := w.priorityTasks.update pid slice }
  else { w with priorityTasks := w.priorityTasks.delete pid }

/-- `usersched_has_pending_tasks`: `avail` is `BPF_RB_AVAIL_DATA` of `@queued`. -/
def userschedHasPendingTasks (nrScheduled : UInt64) (avail : ℕ) : Bool :=
  if nrScheduled ≠ 0 then true else decide (0 < avail)

end World

/-! ### Who a task is -/

section Predicates

variable (ro : Rodata) (p : TaskStruct m)

def isUserschedTask : Bool := p.pid.toUInt32 = ro.userschedPid

def isBelongUserschedTask : Bool := p.tgid.toUInt32 = ro.userschedPid

def isKthread (p : TaskStruct m) : Bool := p.flags &&& pfKTHREAD ≠ 0

def isKswapd (p : TaskStruct m) : Bool := p.flags &&& (pfKSWAPD ||| pfKCOMPACTD) ≠ 0

def isKhugepaged : Bool := ro.khugepagedPid ≠ 0 ∧ p.pid.toUInt32 = ro.khugepagedPid

def isQueuedWakeup (enqFlags : UInt64) : Bool := !ro.isEnqCpuSelected enqFlags && !p.running

end Predicates

/-! ### A machine with two CPUs, for concrete runs -/

def twoCpus : Machine := ⟨2, by decide⟩

def cpu0 : Cpu twoCpus := (0 : Fin 2)
def cpu1 : Cpu twoCpus := (1 : Fin 2)

/-- An ordinary task that may run on both CPUs and last ran on CPU 0. -/
def plainTask (pid : Int32) : TaskStruct twoCpus where
  pid := pid
  tgid := pid
  flags := 0
  cpu := cpu0
  cpusPtr := {cpu0, cpu1}
  nrCpusAllowed := 2
  migrationDisabled := false
  running := false
  queued := true
  weight := 100
  dsqVtime := 0
  slice := 0

end ScxGoland
