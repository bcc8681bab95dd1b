/-
Frame conditions of the BPF program.

* `Quiet w w'` — what the CPU selection may do: only the idle masks, the scratch
  masks of tasks and the log differ, and the new events are kicks, claims of
  idle CPUs and errors;
* `Effect pid ins sub w w'` — what the other functions do to one task: how often
  they inserted the task `pid` and submitted a record for it.
-/
import ScxGoland.World

namespace ScxGoland

variable {m : Machine}

/-! ### The queue of a CPU -/

theorem cpuToDsq_of_lt {cpu : ℕ} (h : cpu < maxCpus) (w : World m) :
    w.cpuToDsq (Int32.ofNat cpu) = (UInt64.ofNat cpu, w) := by
  have hlt : cpu < 2 ^ 31 := lt_trans h (by decide)
  have hcpu : (Int32.ofNat cpu).toInt = cpu := Int32.toInt_ofNat_of_lt hlt
  have hvalid : ¬ (Int32.ofNat cpu < 0 ∨ Int32.ofNat maxCpus ≤ Int32.ofNat cpu) := by
    rw [Int32.lt_iff_toInt_lt, Int32.le_iff_toInt_le, hcpu, Int32.toInt_zero,
      show (Int32.ofNat maxCpus).toInt = maxCpus from rfl]
    omega
  have hwide : (Int32.ofNat cpu).toInt64 = Int64.ofNat cpu := by
    apply Int64.toInt_inj.mp
    rw [Int32.toInt_toInt64, hcpu, Int64.toInt_ofNat_of_lt (lt_trans hlt (by decide))]
  rw [World.cpuToDsq, if_neg hvalid, hwide]
  rfl

/-! ### What an insertion changes -/

section Insert

variable (w : World m) (i : Insertion) (ctx : OpsCtx)

@[simp] theorem insert_priorityTasks : (w.insert ctx i).priorityTasks = w.priorityTasks := by
  cases ctx with
  | direct => rfl
  | dispatch => rw [World.insert]; dsimp only; split_ifs <;> rfl

@[simp] theorem insert_tasks_isSome (pid : Int32) :
    ((w.insert ctx i).tasks.find pid).isSome = (w.tasks.find pid).isSome := by
  have htasks : (w.insert ctx i).tasks = w.tasks.setSlice i.pid
      (fun t => if i.slice ≠ 0 then i.slice else if t.slice ≠ 0 then t.slice else 1)
      (fun t => i.vtime.getD t.dsqVtime) := by
    cases ctx with
    | direct => rfl
    | dispatch => rw [World.insert]; dsimp only; split_ifs <;> rfl
  rw [htasks, TaskTable.isSome_find_setSlice]

theorem insert_dispatch_buf (h : w.buf.length < maxDispatchSlot) :
    (w.insert .dispatch i).buf = w.buf ++ [i] := by
  rw [World.insert]
  dsimp only
  rw [if_pos h]
  rfl

theorem insert_dispatch_buf_full (h : ¬ w.buf.length < maxDispatchSlot) :
    (w.insert .dispatch i).buf = w.buf := by
  rw [World.insert]
  dsimp only
  rw [if_neg h]
  rfl

theorem insert_dispatch_log (h : w.buf.length < maxDispatchSlot) :
    (w.insert .dispatch i).log = .inserted i :: w.log := by
  rw [World.insert]
  dsimp only
  rw [if_pos h]
  rfl

end Insert

/-- A cancellation drops the last buffered insertion, whosever it is. -/
@[simp] theorem scxBpfDispatchCancel_buf (w : World m) :
    w.scxBpfDispatchCancel.buf = w.buf.dropLast := by
  rw [World.scxBpfDispatchCancel]
  split
  · rfl
  · rename_i h
    rw [List.getLast?_eq_none_iff] at h
    change w.buf = w.buf.dropLast
    rw [h]
    rfl

@[simp] theorem scxBpfDispatchCancel_priorityTasks (w : World m) :
    w.scxBpfDispatchCancel.priorityTasks = w.priorityTasks := by
  rw [World.scxBpfDispatchCancel]
  split <;> rfl

/-! ### Quiet changes -/

/-- Only the idle masks, the scratch masks of tasks and the log may differ, and
the new events are quiet ones. -/
structure Quiet (w w' : World m) : Prop where
  tasks : w'.tasks = w.tasks
  bss : w'.bss = w.bss
  dsqs : w'.dsqs = w.dsqs
  priorityTasks : w'.priorityTasks = w.priorityTasks
  runningTask : w'.runningTask = w.runningTask
  queued : w'.queued = w.queued
  queuedCap : w'.queuedCap = w.queuedCap
  dispatched : w'.dispatched = w.dispatched
  buf : w'.buf = w.buf
  log : ∃ es, w'.log = es ++ w.log ∧ ∀ e ∈ es, e.quiet = true

namespace Quiet

theorem refl (w : World m) : Quiet w w :=
  ⟨rfl, rfl, rfl, rfl, rfl, rfl, rfl, rfl, rfl, [], rfl, by simp⟩

theorem trans {w₁ w₂ w₃ : World m} (h : Quiet w₁ w₂) (h' : Quiet w₂ w₃) : Quiet w₁ w₃ := by
  obtain ⟨es, hes, hq⟩ := h.log
  obtain ⟨es', hes', hq'⟩ := h'.log
  refine ⟨h'.tasks.trans h.tasks, h'.bss.trans h.bss, h'.dsqs.trans h.dsqs,
    h'.priorityTasks.trans h.priorityTasks, h'.runningTask.trans h.runningTask,
    h'.queued.trans h.queued, h'.queuedCap.trans h.queuedCap,
    h'.dispatched.trans h.dispatched, h'.buf.trans h.buf, es' ++ es, ?_, ?_⟩
  · rw [hes', hes, List.append_assoc]
  · intro e he
    rcases List.mem_append.mp he with he | he
    · exact hq' e he
    · exact hq e he

theorem emit (w : World m) {e : Event} (he : e.quiet = true) : Quiet w (w.emit e) :=
  ⟨rfl, rfl, rfl, rfl, rfl, rfl, rfl, rfl, rfl, [e], rfl, by simpa using he⟩

theorem kick (w : World m) (cpu : Int32) (k : Kick) : Quiet w (w.scxBpfKickCpu cpu k) :=
  emit w rfl

theorem claim (w : World m) (c : Cpu m) : Quiet w (w.claim c) :=
  ⟨rfl, rfl, rfl, rfl, rfl, rfl, rfl, rfl, rfl, [.claimed c.toS32], rfl, by simp [Event.quiet]⟩

theorem pickIdle (w : World m) (env : Env m) (mask : CpuMask m) (idleCore : Bool) :
    Quiet w (w.scxBpfPickIdleCpu env mask idleCore).2 := by
  rw [World.scxBpfPickIdleCpu]
  split
  · exact claim w _
  · exact refl w

theorem cpuToDsq (w : World m) (cpu : Int32) : Quiet w (w.cpuToDsq cpu).2 := by
  rw [World.cpuToDsq]
  split_ifs
  · exact emit w rfl
  · exact refl w

end Quiet

/-! ### Counting insertions and submissions -/

/-- From `w` to `w'` the task `pid` was inserted `ins` times and `sub` records
were submitted for it; nothing else was inserted, submitted or moved, and the
same tasks are alive. -/
structure Effect (pid : Int32) (ins sub : ℕ) (w w' : World m) : Prop where
  live : ∀ q, (w'.tasks.find q).isSome = (w.tasks.find q).isSome
  log : ∃ es, w'.log = es ++ w.log ∧
    (∀ e ∈ es, e.quiet = true ∨ e.inserts pid = true ∨ e.submits pid = true) ∧
    es.countP (Event.inserts pid) = ins ∧ es.countP (Event.submits pid) = sub

namespace Effect

variable {pid : Int32}

theorem of_quiet {w w' : World m} (h : Quiet w w') : Effect pid 0 0 w w' := by
  obtain ⟨es, hes, hq⟩ := h.log
  refine ⟨fun q => by rw [h.tasks], es, hes, fun e he => Or.inl (hq e he), ?_, ?_⟩
  · refine List.countP_eq_zero.mpr fun e he hi => ?_
    have := hq e he
    cases e <;> simp [Event.quiet, Event.inserts] at this hi
  · refine List.countP_eq_zero.mpr fun e he hi => ?_
    have := hq e he
    cases e <;> simp [Event.quiet, Event.submits] at this hi

theorem trans {w₁ w₂ w₃ : World m} {i₁ s₁ i₂ s₂ : ℕ} (h : Effect pid i₁ s₁ w₁ w₂)
    (h' : Effect pid i₂ s₂ w₂ w₃) : Effect pid (i₁ + i₂) (s₁ + s₂) w₁ w₃ := by
  obtain ⟨es, hes, hall, hi, hs⟩ := h.log
  obtain ⟨es', hes', hall', hi', hs'⟩ := h'.log
  refine ⟨fun q => (h'.live q).trans (h.live q), es' ++ es, ?_, ?_, ?_, ?_⟩
  · rw [hes', hes, List.append_assoc]
  · intro e he
    rcases List.mem_append.mp he with he | he
    · exact hall' e he
    · exact hall e he
  · rw [List.countP_append, hi, hi', add_comm]
  · rw [List.countP_append, hs, hs', add_comm]

theorem then_quiet {w₁ w₂ w₃ : World m} {i s : ℕ} (h : Effect pid i s w₁ w₂)
    (h' : Quiet w₂ w₃) : Effect pid i s w₁ w₃ := h.trans (of_quiet h')

theorem after_quiet {w₁ w₂ w₃ : World m} {i s : ℕ} (h : Quiet w₁ w₂)
    (h' : Effect pid i s w₂ w₃) : Effect pid i s w₁ w₃ := by
  have hsum : Effect pid (0 + i) (0 + s) w₁ w₃ := (of_quiet h).trans h'
  rwa [zero_add, zero_add] at hsum

/-- A state that differs in neither tasks nor log. -/
theorem of_eq {w w' : World m} (htasks : w'.tasks = w.tasks) (hlog : w'.log = w.log) :
    Effect pid 0 0 w w' :=
  ⟨fun q => by rw [htasks], [], hlog, by simp, rfl, rfl⟩

theorem updBss (w : World m) (f : Bss → Bss) : Effect pid 0 0 w (w.updBss f) := of_eq rfl rfl

theorem insert_direct (w : World m) (i : Insertion) (hi : i.pid = pid) :
    Effect pid 1 0 w (w.insert .direct i) := by
  refine ⟨fun q => insert_tasks_isSome w i .direct q, [.inserted i], rfl, ?_, ?_, ?_⟩
  · simp [Event.inserts, hi]
  · simp [Event.inserts, hi]
  · simp [Event.submits]

/-- A direct insertion and the counter that is bumped after it. -/
theorem dsqInsert_updBss (w : World m) (dsq : DsqId) (slice flags : UInt64) (f : Bss → Bss) :
    Effect pid 1 0 w ((w.scxBpfDsqInsert .direct pid dsq slice flags).updBss f) := by
  have hins : Effect pid 1 0 w (w.scxBpfDsqInsert .direct pid dsq slice flags) :=
    insert_direct w ⟨pid, dsq, slice, none, flags⟩ rfl
  exact hins.trans (updBss _ f)

theorem dsqInsertVtime_updBss (w : World m) (dsq : DsqId) (slice vtime flags : UInt64)
    (f : Bss → Bss) :
    Effect pid 1 0 w ((w.scxBpfDsqInsertVtime .direct pid dsq slice vtime flags).updBss f) := by
  have hins : Effect pid 1 0 w (w.scxBpfDsqInsertVtime .direct pid dsq slice vtime flags) :=
    insert_direct w ⟨pid, dsq, slice, some vtime, flags⟩ rfl
  exact hins.trans (updBss _ f)

theorem insert_dispatch (w : World m) (i : Insertion) (hi : i.pid = pid)
    (hroom : w.buf.length < maxDispatchSlot) : Effect pid 1 0 w (w.insert .dispatch i) := by
  refine ⟨fun q => insert_tasks_isSome w i .dispatch q, [.inserted i],
    insert_dispatch_log w i hroom, ?_, ?_, ?_⟩
  · simp [Event.inserts, hi]
  · simp [Event.inserts, hi]
  · simp [Event.submits]

end Effect

end ScxGoland
