/-
The records and arguments that cross between Go and C.

Both sides lay out their structs by natural alignment; Go writes and reads them
by hand, with `fastEncode` and `fastDecode` or field by field with
`binary.Write`.

* `messages_agree` — either side reads what the other one wrote: the records of
  both ring buffers, and the arguments and the result of the programs that user
  space runs.
-/
import ScxGoland.CLayout
import ScxGoland.SchedLoop

open CLayout

namespace ScxGoland

/-! ### The structs of `intf.h` -/

def QueuedTaskCtx.vals (t : QueuedTaskCtx) : List CVal :=
  [.s32 t.pid, .s32 t.cpu, .u64 t.nrCpusAllowed, .u64 t.flags, .u64 t.startTs, .u64 t.stopTs,
    .u64 t.execRuntime, .u64 t.weight, .u64 t.vtime, .s32 t.tgid]

def queuedTaskCtxKinds : List CKind :=
  [.s32, .s32, .u64, .u64, .u64, .u64, .u64, .u64, .u64, .s32]

def DispatchedTaskCtx.vals (t : DispatchedTaskCtx) : List CVal :=
  [.s32 t.pid, .s32 t.cpu, .u64 t.flags, .u64 t.sliceNs, .u64 t.vtime]

def dispatchedTaskCtxKinds : List CKind := [.s32, .s32, .u64, .u64, .u64]

structure TaskCpuArg where
  pid : Int32
  cpu : Int32
  flags : UInt64

structure DomainArg where
  lvlId : Int32
  cpuId : Int32
  siblingCpuId : Int32

structure PreemptCpuArg where
  cpuId : Int32

def TaskCpuArg.vals (a : TaskCpuArg) : List CVal := [.s32 a.pid, .s32 a.cpu, .u64 a.flags]

def DomainArg.vals (a : DomainArg) : List CVal := [.s32 a.lvlId, .s32 a.cpuId, .s32 a.siblingCpuId]

def PreemptCpuArg.vals (a : PreemptCpuArg) : List CVal := [.s32 a.cpuId]

/-! ### The Go side -/

/-- `binary.Write` of a struct in little-endian order: its fields, without
padding. -/
def binaryWrite (vals : List CVal) : Bytes := pack vals

/-- The argument that `SelectCPU` passes to `rs_select_cpu`. -/
def selectCPUArg (t : QueuedTask) : Bytes := binaryWrite (TaskCpuArg.mk t.pid t.cpu t.flags).vals

/-- The argument that `EnableSiblingCpu` passes to `enable_sibling_cpu`. -/
def enableSiblingCpuArg (lvlId cpuId siblingCpuId : Int32) : Bytes :=
  binaryWrite (DomainArg.mk lvlId cpuId siblingCpuId).vals

/-- The argument that `PreemptCpu` passes to `do_preempt`. -/
def preemptCpuArg (cpuId : Int32) : Bytes := binaryWrite (PreemptCpuArg.mk cpuId).vals

/-! ### Records for user space -/

/-- What the ten offsets of `fastDecode` read in the image of a struct. -/
theorem fastDecodeInto_image {t : QueuedTaskCtx} {data : Bytes} (h : Image t.vals data)
    (task : QueuedTask) :
    fastDecodeInto data task =
      ({ pid := t.pid, cpu := t.cpu, nrCpusAllowed := t.nrCpusAllowed, flags := t.flags,
         startTs := t.startTs, stopTs := t.stopTs, sumExecRuntime := t.execRuntime,
         weight := t.weight, vtime := t.vtime, tgid := t.tgid }, none) := by
  have hlen : ¬ data.length < sizeofQueuedTask := by
    rw [h.length_eq, show t.vals.map CVal.kind = queuedTaskCtxKinds from rfl]
    decide
  have hread := cRead_of_image h
  -- both sides read at the same ten offsets
  have hfields : cRead (t.vals.map CVal.kind) data =
      [.s32 (getS32 0 data), .s32 (getS32 4 data), .u64 (getU64 8 data), .u64 (getU64 16 data),
        .u64 (getU64 24 data), .u64 (getU64 32 data), .u64 (getU64 40 data), .u64 (getU64 48 data),
        .u64 (getU64 56 data), .s32 (getS32 64 data)] := by
    rw [show t.vals.map CVal.kind = queuedTaskCtxKinds from rfl]
    simp [cRead, readFrom, readAt, queuedTaskCtxKinds, alignUp, CKind.size, getS32, getU64]
  rw [hfields, QueuedTaskCtx.vals] at hread
  simp only [List.cons.injEq, CVal.s32.injEq, CVal.u64.injEq, and_true] at hread
  obtain ⟨h0, h4, h8, h16, h24, h32, h40, h48, h56, h64⟩ := hread
  rw [fastDecodeInto, if_neg hlen, h0, h4, h8, h16, h24, h32, h40, h48, h56, h64]

/-! ### Records for the dispatcher -/

/-- `bpf_dynptr_data` returns the struct at the start of a sample that is long
enough. -/
theorem dynptrData_vals (data : Bytes) :
    (dynptrData data).map DispatchedTaskCtx.vals =
      if data.length < sizeof dispatchedTaskCtxKinds then none
      else some (cRead dispatchedTaskCtxKinds data) := by
  rw [dynptrData, show sizeof dispatchedTaskCtxKinds = sizeofDispatchedTaskCtx from by decide]
  split_ifs
  · rfl
  · simp [cRead, readFrom, readAt, dispatchedTaskCtxKinds, alignUp, CKind.size, getS32, getU64,
      DispatchedTaskCtx.vals]

/-- The first 32 bytes that `fastEncode` writes are the struct. -/
theorem image_fastEncode (t : DispatchedTask) :
    Image t.ctx.vals ((fastEncode t).take (sizeof dispatchedTaskCtxKinds)) := by
  have hsplit : fastEncode t = pack t.ctx.vals ++ (u64Bytes t.cpuMaskCnt ++ List.replicate 24 0) := by
    simp [fastEncode, pack, DispatchedTaskCtx.vals, DispatchedTask.ctx, CVal.bytes, s32Bytes,
      u64Bytes]
  have hlen : (pack t.ctx.vals).length = sizeof dispatchedTaskCtxKinds := by
    rw [show sizeof dispatchedTaskCtxKinds = 32 from by decide]
    simp [pack, DispatchedTaskCtx.vals, DispatchedTask.ctx, CVal.kind, CKind.size]
  rw [hsplit, List.take_left' hlen, ← List.append_nil (pack t.ctx.vals)]
  refine image_pack ?_ ?_
  · show gapless 0 dispatchedTaskCtxKinds = true
    decide
  · rw [List.append_nil]
    exact hlen

/-! ### Arguments -/

/-- A struct without padding is written by `binary.Write` as C lays it out. -/
theorem image_binaryWrite {vals : List CVal} (hgap : gapless 0 (vals.map CVal.kind) = true)
    (hlen : ((vals.map CVal.kind).map CKind.size).sum = sizeof (vals.map CVal.kind)) :
    Image vals (binaryWrite vals) := by
  have hpack : (pack vals).length = ((vals.map CVal.kind).map CKind.size).sum := by
    simp [pack, List.length_flatMap, Function.comp_def]
  have himage : Image vals (pack vals ++ []) := by
    refine image_pack hgap ?_
    rw [List.append_nil, hpack, hlen]
  rwa [List.append_nil] at himage

/-- A negative `s32` in an unsigned `RetVal`. -/
theorem carried_iff (r : Int32) : 2147483647 < r.toUInt32 ↔ ¬ 0 ≤ r := by
  have hcond : r.toInt = if 2 * r.toUInt32.toNat < 2 ^ 32 then (r.toUInt32.toNat : ℤ)
      else (r.toUInt32.toNat : ℤ) - (2 ^ 32 : ℕ) := BitVec.toInt_eq_toNat_cond r.toBitVec
  have hlt := r.toUInt32.toNat_lt
  rw [UInt32.lt_iff_toNat_lt, Int32.le_iff_toInt_le, Int32.toInt_zero, hcond,
    show (2147483647 : UInt32).toNat = 2147483647 from rfl]
  split_ifs
  · omega
  · omega

theorem image_selectCPUArg (t : QueuedTask) :
    Image (TaskCpuArg.mk t.pid t.cpu t.flags).vals (selectCPUArg t) :=
  image_binaryWrite (show gapless 0 [.s32, .s32, .u64] = true by decide)
    (show ([.s32, .s32, .u64].map CKind.size).sum = sizeof [.s32, .s32, .u64] by decide)

/-- `SelectCPU` returns the result of the program, and `RL_CPU_ANY` for an error. -/
theorem selectCPU_toUInt32 (r : Int32) :
    selectCPU (some r.toUInt32) = if 0 ≤ r then r else rlCpuAny := by
  have hcarry := carried_iff r
  rw [selectCPU]
  split_ifs with hbig hneg hneg
  · exact absurd hneg (hcarry.mp hbig)
  · rfl
  · exact Int32.toInt32_toUInt32 r
  · exact absurd (hcarry.mpr hneg) hbig

/-- **The Go and the C view of every message agree.**  (1) For every
`queued_task_ctx`, whatever its padding, `fastDecode` yields its ten fields, and
on a shorter buffer it fails and leaves the task alone.  (2) Of a sample that is long
enough `handle_dispatched_task` reads the struct at its start; for every `DispatchedTask`,
the bytes of `fastEncode` are long enough, and the same fields are read back.  (3) `rs_select_cpu`,
`enable_sibling_cpu` and `do_preempt` read the arguments that Go wrote, and
`SelectCPU` returns a result `r ≥ 0` as it is and `RL_CPU_ANY` for a negative
one. -/
theorem messages_agree :
    (sizeofQueuedTask = sizeof queuedTaskCtxKinds ∧
      (∀ (t : QueuedTaskCtx) (data : Bytes) (task : QueuedTask), Image t.vals data →
        fastDecodeInto data task =
          ({ pid := t.pid, cpu := t.cpu, nrCpusAllowed := t.nrCpusAllowed, flags := t.flags,
             startTs := t.startTs, stopTs := t.stopTs, sumExecRuntime := t.execRuntime,
             weight := t.weight, vtime := t.vtime, tgid := t.tgid }, none)) ∧
      ∀ (data : Bytes) (task : QueuedTask), data.length < sizeofQueuedTask →
        ∃ err, fastDecodeInto data task = (task, some err)) ∧
    (∀ data, (dynptrData data).map DispatchedTaskCtx.vals =
      if data.length < sizeof dispatchedTaskCtxKinds then none
      else some (cRead dispatchedTaskCtxKinds data)) ∧
    (∀ t : DispatchedTask, sizeof dispatchedTaskCtxKinds ≤ (fastEncode t).length ∧
      Image t.ctx.vals ((fastEncode t).take (sizeof dispatchedTaskCtxKinds)) ∧
      dynptrData (fastEncode t) = some
        { pid := t.pid, cpu := t.cpu, flags := t.flags, sliceNs := t.sliceNs,
          vtime := t.vtime }) ∧
    (∀ t : QueuedTask, Image (TaskCpuArg.mk t.pid t.cpu t.flags).vals (selectCPUArg t) ∧
      cRead [.s32, .s32, .u64] (selectCPUArg t) = [.s32 t.pid, .s32 t.cpu, .u64 t.flags]) ∧
    (∀ lvlId cpuId siblingCpuId : Int32,
      Image (DomainArg.mk lvlId cpuId siblingCpuId).vals
        (enableSiblingCpuArg lvlId cpuId siblingCpuId) ∧
      cRead [.s32, .s32, .s32] (enableSiblingCpuArg lvlId cpuId siblingCpuId) =
        [.s32 lvlId, .s32 cpuId, .s32 siblingCpuId]) ∧
    (∀ cpuId : Int32, Image (PreemptCpuArg.mk cpuId).vals (preemptCpuArg cpuId) ∧
      cRead [.s32] (preemptCpuArg cpuId) = [.s32 cpuId]) ∧
    ∀ r : Int32, selectCPU (some r.toUInt32) = if 0 ≤ r then r else rlCpuAny := by
  refine ⟨⟨by decide, fun t data task h => fastDecodeInto_image h task, ?_⟩, dynptrData_vals, ?_, ?_,
    ?_, ?_, ?_⟩
  · intro data task hshort
    exact ⟨_, by rw [fastDecodeInto, if_pos hshort]⟩
  · intro t
    have hlen : (fastEncode t).length = 64 := by simp [fastEncode]
    refine ⟨?_, image_fastEncode t, dynptrData_fastEncode t⟩
    rw [hlen, show sizeof dispatchedTaskCtxKinds = 32 from by decide]
    decide
  · exact fun t => ⟨image_selectCPUArg t, cRead_of_image (image_selectCPUArg t)⟩
  · intro lvlId cpuId siblingCpuId
    have himage : Image (DomainArg.mk lvlId cpuId siblingCpuId).vals
        (enableSiblingCpuArg lvlId cpuId siblingCpuId) :=
      image_binaryWrite (show gapless 0 [.s32, .s32, .s32] = true by decide)
        (show ([.s32, .s32, .s32].map CKind.size).sum = sizeof [.s32, .s32, .s32] by decide)
    exact ⟨himage, cRead_of_image himage⟩
  · intro cpuId
    have himage : Image (PreemptCpuArg.mk cpuId).vals (preemptCpuArg cpuId) :=
      image_binaryWrite (show gapless 0 [.s32] = true by decide)
        (show ([.s32].map CKind.size).sum = sizeof [.s32] by decide)
    exact ⟨himage, cRead_of_image himage⟩
  · exact selectCPU_toUInt32

end ScxGoland
