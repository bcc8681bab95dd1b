/-
The records that travel between the BPF program and the user-space scheduler.

`QueuedTaskCtx` and `DispatchedTaskCtx` are the C structs of `intf.h`,
`QueuedTask` and `DispatchedTask` the Go structs of `goland_core/task.go`.  A
record crosses as bytes: `QueuedTaskCtx.bytes` is what `bpf_ringbuf_submit`
publishes, `fastDecode` what Go reads from it, `fastEncode` what Go writes into
the user ring buffer and `dynptrData` what `handle_dispatched_task` reads back.

* `dynptrData_fastEncode` — the BPF program reads back every field of a
  dispatched record as Go wrote it;
* `fastDecode_bytes` — Go reads every field of a queued record as the BPF
  program wrote it.
-/
import ScxGoland.LittleEndian

open LittleEndian

namespace ScxGoland

/-! ### Constants of `intf.h`, `main.bpf.c` and the kernel headers -/

def maxCpus : ℕ := 1024
/-- `RL_CPU_ANY = 1 << 20`: no specific CPU is assigned to the task. -/
def rlCpuAny : Int32 := 1048576
def maxEnqueuedTasks : ℕ := 4096
/-- `MAX_DISPATCH_SLOT`, the scheduler's `dispatch_max_batch`. -/
def maxDispatchSlot : ℕ := maxEnqueuedTasks / 8

def eNOENT : Int32 := 2
def eNOMEM : Int32 := 12
def eBUSY : Int32 := 16
def eINVAL : Int32 := 22

/-- A byte string of either ring buffer. -/
abbrev Bytes := List UInt8

/-! ### Records sent to user space -/

structure QueuedTaskCtx where
  pid : Int32
  cpu : Int32
  nrCpusAllowed : UInt64
  flags : UInt64
  startTs : UInt64
  stopTs : UInt64
  execRuntime : UInt64
  weight : UInt64
  vtime : UInt64
  tgid : Int32
deriving DecidableEq, Repr

structure QueuedTask where
  pid : Int32
  cpu : Int32
  nrCpusAllowed : UInt64
  flags : UInt64
  startTs : UInt64
  stopTs : UInt64
  sumExecRuntime : UInt64
  weight : UInt64
  vtime : UInt64
  tgid : Int32
deriving DecidableEq, Repr, Inhabited

/-- `unsafe.Sizeof(QueuedTask{})`: the ten fields and four bytes of padding. -/
def sizeofQueuedTask : ℕ := 72

/-- The 32 bits of a C `s32` or Go `int32`. -/
def s32Bytes (x : Int32) : Bytes := leBytes 4 x.toUInt32.toNat

/-- The bytes of a C `u64` or Go `uint64`. -/
def u64Bytes (x : UInt64) : Bytes := leBytes 8 x.toNat

/-- Reading an `int32` at an offset. -/
def getS32 (off : ℕ) (data : Bytes) : Int32 := (UInt32.ofNat (field off 4 data)).toInt32

/-- Reading a `uint64` at an offset. -/
def getU64 (off : ℕ) (data : Bytes) : UInt64 := UInt64.ofNat (field off 8 data)

/-- The memory image of a `struct queued_task_ctx`; `pad` are its four trailing
padding bytes, which nobody writes. -/
def QueuedTaskCtx.bytes (t : QueuedTaskCtx) (pad : Vector UInt8 4) : Bytes :=
  s32Bytes t.pid ++ (s32Bytes t.cpu ++ (u64Bytes t.nrCpusAllowed ++ (u64Bytes t.flags ++
    (u64Bytes t.startTs ++ (u64Bytes t.stopTs ++ (u64Bytes t.execRuntime ++
      (u64Bytes t.weight ++ (u64Bytes t.vtime ++ (s32Bytes t.tgid ++ pad.toList)))))))))

/-- `fastDecode` on the task that it is given: the task afterwards, and the error
that it returns. -/
def fastDecodeInto (data : Bytes) (task : QueuedTask) : QueuedTask × Option String :=
  if data.length < sizeofQueuedTask then
    (task, some "data length is less than QueuedTask size")
  else
    ({ task with
      pid := getS32 0 data
      cpu := getS32 4 data
      nrCpusAllowed := getU64 8 data
      flags := getU64 16 data
      startTs := getU64 24 data
      stopTs := getU64 32 data
      sumExecRuntime := getU64 40 data
      weight := getU64 48 data
      vtime := getU64 56 data
      tgid := getS32 64 data }, none)

/-- `fastDecode` for a caller that drops the task after an error. -/
def fastDecode (data : Bytes) (task : QueuedTask) : Except String QueuedTask :=
  match (fastDecodeInto data task).2 with
  | none => .ok (fastDecodeInto data task).1
  | some err => .error err

/-! ### Records sent to the BPF dispatcher -/

structure DispatchedTaskCtx where
  pid : Int32
  cpu : Int32
  flags : UInt64
  sliceNs : UInt64
  vtime : UInt64
deriving DecidableEq, Repr

def sizeofDispatchedTaskCtx : ℕ := 32

structure DispatchedTask where
  pid : Int32
  cpu : Int32
  flags : UInt64
  sliceNs : UInt64
  vtime : UInt64
  cpuMaskCnt : UInt64
deriving DecidableEq, Repr

def newDispatchedTask (task : QueuedTask) : DispatchedTask where
  pid := task.pid
  cpu := task.cpu
  flags := task.flags
  sliceNs := 0
  vtime := 0
  cpuMaskCnt := 0

/-- `fastEncode`: a zeroed buffer of 64 bytes with the fields at its start. -/
def fastEncode (t : DispatchedTask) : Bytes :=
  s32Bytes t.pid ++ (s32Bytes t.cpu ++ (u64Bytes t.flags ++ (u64Bytes t.sliceNs ++
    (u64Bytes t.vtime ++ (u64Bytes t.cpuMaskCnt ++ List.replicate 24 0)))))

/-- `bpf_dynptr_data(dynptr, 0, sizeof(struct dispatched_task_ctx))`, read as the
struct; `none` is the `NULL` of a sample that is too short. -/
def dynptrData (data : Bytes) : Option DispatchedTaskCtx :=
  if data.length < sizeofDispatchedTaskCtx then none
  else some
    { pid := getS32 0 data
      cpu := getS32 4 data
      flags := getU64 8 data
      sliceNs := getU64 16 data
      vtime := getU64 24 data }

/-! ### Reading back what was written -/

@[simp] theorem s32Bytes_length (x : Int32) : (s32Bytes x).length = 4 := leBytes_length 4 _

@[simp] theorem u64Bytes_length (x : UInt64) : (u64Bytes x).length = 8 := leBytes_length 8 _

@[simp] theorem getS32_s32Bytes_append (x : Int32) (rest : Bytes) :
    getS32 0 (s32Bytes x ++ rest) = x := by
  have hlt : x.toUInt32.toNat < 256 ^ 4 := x.toUInt32.toNat_lt
  rw [getS32, s32Bytes, field_zero_leBytes_append, Nat.mod_eq_of_lt hlt, UInt32.ofNat_toNat]
  exact Int32.toInt32_toUInt32 x

@[simp] theorem getU64_u64Bytes_append (x : UInt64) (rest : Bytes) :
    getU64 0 (u64Bytes x ++ rest) = x := by
  have hlt : x.toNat < 256 ^ 8 := x.toNat_lt
  rw [getU64, u64Bytes, field_zero_leBytes_append, Nat.mod_eq_of_lt hlt, UInt64.ofNat_toNat]

theorem getS32_append (off : ℕ) (bs cs : Bytes) (h : bs.length ≤ off) :
    getS32 off (bs ++ cs) = getS32 (off - bs.length) cs := by
  rw [getS32, getS32, field_append_right h]

theorem getU64_append (off : ℕ) (bs cs : Bytes) (h : bs.length ≤ off) :
    getU64 off (bs ++ cs) = getU64 (off - bs.length) cs := by
  rw [getU64, getU64, field_append_right h]

/-- **Dispatched records arrive as sent**: the dispatcher reads back every field
that `fastEncode` wrote. -/
theorem dynptrData_fastEncode (t : DispatchedTask) :
    dynptrData (fastEncode t) = some
      { pid := t.pid, cpu := t.cpu, flags := t.flags, sliceNs := t.sliceNs,
        vtime := t.vtime } := by
  have hlen : (fastEncode t).length = 64 := by simp [fastEncode]
  rw [dynptrData, if_neg (by rw [hlen]; decide)]
  simp [fastEncode, getS32_append, getU64_append]

/-- **Queued records arrive as sent**: `fastDecode` yields every field of the
struct, whatever the padding and the previous content of the task. -/
theorem fastDecode_bytes (t : QueuedTaskCtx) (pad : Vector UInt8 4) (task : QueuedTask) :
    fastDecode (t.bytes pad) task = .ok
      { pid := t.pid, cpu := t.cpu, nrCpusAllowed := t.nrCpusAllowed, flags := t.flags,
        startTs := t.startTs, stopTs := t.stopTs, sumExecRuntime := t.execRuntime,
        weight := t.weight, vtime := t.vtime, tgid := t.tgid } := by
  have hlen : (t.bytes pad).length = 72 := by simp [QueuedTaskCtx.bytes]
  rw [fastDecode, fastDecodeInto, if_neg (by rw [hlen]; decide)]
  simp [QueuedTaskCtx.bytes, getS32_append, getU64_append]

/-- The record as user space decodes it. -/
def QueuedTaskCtx.decoded (r : QueuedTaskCtx) : QueuedTask where
  pid := r.pid
  cpu := r.cpu
  nrCpusAllowed := r.nrCpusAllowed
  flags := r.flags
  startTs := r.startTs
  stopTs := r.stopTs
  sumExecRuntime := r.execRuntime
  weight := r.weight
  vtime := r.vtime
  tgid := r.tgid

theorem fastDecode_decoded (r : QueuedTaskCtx) (pad : Vector UInt8 4) (task : QueuedTask) :
    fastDecode (r.bytes pad) task = .ok r.decoded := fastDecode_bytes r pad task

/-- The record as the dispatcher should see it. -/
def DispatchedTask.ctx (t : DispatchedTask) : DispatchedTaskCtx :=
  ⟨t.pid, t.cpu, t.flags, t.sliceNs, t.vtime⟩

theorem dynptrData_ctx (t : DispatchedTask) : dynptrData (fastEncode t) = some t.ctx :=
  dynptrData_fastEncode t

end ScxGoland
