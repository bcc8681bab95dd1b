/-
`goland_dispatch`: draining the records of the user-space scheduler.

`bpf_user_ringbuf_drain` calls `handle_dispatched_task` on one sample after the
other and goes on exactly while the callback returns `0`.  The result of the
drain (`Drained`) keeps, for each sample consumed, the world it was handled in.

* `drain_meets_contract_iff` — the drain goes through the ring in order until
  the ring is empty or the dispatch slots are used up exactly when every sample
  but the last is too short to be a record: the callback returns
  `!!scx_bpf_dispatch_nr_slots()`, which stops the drain while slots are left
  and continues it when none is;
* `drain_rule` — what `handle_dispatched_task` keeps, a drain keeps;
* `drain_at_most_one` — as long as two slots are free, a drain hands at most one
  record to `dispatch_task`.
-/
import ScxGoland.DispatchTask

namespace ScxGoland

variable {m : Machine}

/-- A sample of `@dispatched`, and the new affinity of its task in case that
changes while the sample is handled. -/
structure Sample (m : Machine) where
  data : Bytes
  race : Option (CpuMask m)

/-- The outcome of a drain. -/
structure Drained (m : Machine) where
  -- the samples consumed, each with the world that the callback found
  calls : List (Sample m × World m)
  rest : List (Sample m)
  world : World m

/-- `handle_dispatched_task`; the result is the C `long` that it returns. -/
def handleDispatchedTask (env : Env m) (s : Sample m) (w : World m) : ℤ × World m :=
  match dynptrData s.data with
  | none => (0, w)
  | some task =>
    let w := dispatchTask env s.race task w
    -- `!!scx_bpf_dispatch_nr_slots()`
    (if w.scxBpfDispatchNrSlots = 0 then 0 else 1, w)

/-- `bpf_user_ringbuf_drain`: goes on to the next sample iff the callback
returned `0`. -/
def bpfUserRingbufDrain (callback : Sample m → World m → ℤ × World m) :
    List (Sample m) → World m → Drained m
  | [], w => ⟨[], [], w⟩
  | s :: rest, w =>
    let r := callback s w
    if r.1 = 0 then
      let d := bpfUserRingbufDrain callback rest r.2
      ⟨(s, w) :: d.calls, d.rest, d.world⟩
    else ⟨[(s, w)], rest, r.2⟩

/-! ### Drains in general -/

/-- The samples are consumed from the front. -/
theorem drain_fifo (callback : Sample m → World m → ℤ × World m) (records : List (Sample m))
    (w : World m) :
    (bpfUserRingbufDrain callback records w).calls.map Prod.fst ++
      (bpfUserRingbufDrain callback records w).rest = records := by
  induction records generalizing w with
  | nil => rfl
  | cons s rest ih =>
    rw [bpfUserRingbufDrain]
    dsimp only
    split_ifs
    · exact congrArg (s :: ·) (ih _)
    · rfl

/-- What the callback keeps on every sample, a drain keeps. -/
theorem drain_rule {P : World m → Prop} {callback : Sample m → World m → ℤ × World m}
    {records : List (Sample m)} (hcall : ∀ s ∈ records, ∀ w, P w → P (callback s w).2) {w : World m}
    (hw : P w) : P (bpfUserRingbufDrain callback records w).world := by
  induction records generalizing w with
  | nil => exact hw
  | cons s rest ih =>
    have hone := hcall s List.mem_cons_self w hw
    rw [bpfUserRingbufDrain]
    dsimp only
    split_ifs
    · exact ih (fun t ht => hcall t (List.mem_cons_of_mem _ ht)) hone
    · exact hone

/-! ### What the drain should do -/

/-- The samples are consumed in order while there are dispatch slots, and the
drain ends with the ring empty or no slot left; `dispatch_task` always finds a
slot. -/
structure DrainContract (records : List (Sample m)) (d : Drained m) : Prop where
  fifo : d.calls.map Prod.fst ++ d.rest = records
  whileSlots : ∀ c ∈ d.calls, 0 < c.2.scxBpfDispatchNrSlots
  slotForTask : ∀ c ∈ d.calls, (dynptrData c.1.data).isSome → 0 < c.2.scxBpfDispatchNrSlots
  exhausts : d.rest = [] ∨ d.world.scxBpfDispatchNrSlots = 0

theorem drain_cons_short {env : Env m} {s : Sample m} (rest : List (Sample m)) (w : World m)
    (hs : dynptrData s.data = none) :
    bpfUserRingbufDrain (handleDispatchedTask env) (s :: rest) w =
      ⟨(s, w) :: (bpfUserRingbufDrain (handleDispatchedTask env) rest w).calls,
        (bpfUserRingbufDrain (handleDispatchedTask env) rest w).rest,
        (bpfUserRingbufDrain (handleDispatchedTask env) rest w).world⟩ := by
  simp [bpfUserRingbufDrain, handleDispatchedTask, hs]

theorem drain_cons_stop {env : Env m} {s : Sample m} {task : DispatchedTaskCtx}
    (rest : List (Sample m)) (w : World m) (hs : dynptrData s.data = some task)
    (hslots : (dispatchTask env s.race task w).scxBpfDispatchNrSlots ≠ 0) :
    bpfUserRingbufDrain (handleDispatchedTask env) (s :: rest) w =
      ⟨[(s, w)], rest, dispatchTask env s.race task w⟩ := by
  simp [bpfUserRingbufDrain, handleDispatchedTask, hs, hslots]

theorem drain_cons_full {env : Env m} {s : Sample m} {task : DispatchedTaskCtx}
    (rest : List (Sample m)) (w : World m) (hs : dynptrData s.data = some task)
    (hslots : (dispatchTask env s.race task w).scxBpfDispatchNrSlots = 0) :
    bpfUserRingbufDrain (handleDispatchedTask env) (s :: rest) w =
      let d := bpfUserRingbufDrain (handleDispatchedTask env) rest (dispatchTask env s.race task w)
      ⟨(s, w) :: d.calls, d.rest, d.world⟩ := by
  simp [bpfUserRingbufDrain, handleDispatchedTask, hs, hslots]

/-- Handling one more sample first, in a world with slots. -/
theorem DrainContract.cons_iff {records : List (Sample m)} {d : Drained m} {s : Sample m}
    {w : World m} (hw : 0 < w.scxBpfDispatchNrSlots) :
    DrainContract (s :: records) ⟨(s, w) :: d.calls, d.rest, d.world⟩ ↔
      DrainContract records d := by
  constructor
  · rintro ⟨hfifo, hslots, htask, hend⟩
    exact ⟨List.cons_injective hfifo, fun c hc => hslots c (List.mem_cons_of_mem _ hc),
      fun c hc => htask c (List.mem_cons_of_mem _ hc), hend⟩
  · rintro ⟨hfifo, hslots, htask, hend⟩
    refine ⟨congrArg (s :: ·) hfifo, ?_, ?_, hend⟩
    · intro c hc
      rcases List.mem_cons.mp hc with rfl | hc
      · exact hw
      · exact hslots c hc
    · intro c hc hsome
      rcases List.mem_cons.mp hc with rfl | hc
      · exact hw
      · exact htask c hc hsome

/-- **The drain meets its contract iff only the last sample is a record.**  For
every ring content, live and dead tasks, affinity changes during the drain, and
every positive number of free slots. -/
theorem drain_meets_contract_iff (env : Env m) (records : List (Sample m)) (w : World m)
    (hw : 0 < w.scxBpfDispatchNrSlots) :
    DrainContract records (bpfUserRingbufDrain (handleDispatchedTask env) records w) ↔
      ∀ s ∈ records.dropLast, dynptrData s.data = none := by
  -- Induction on the ring content; the world only matters through its slots.
  induction records generalizing w with
  | nil =>
    refine ⟨fun _ s hs => absurd hs (by simp), fun _ => ⟨rfl, ?_, ?_, Or.inl rfl⟩⟩
    · exact fun c hc => absurd hc (by simp [bpfUserRingbufDrain])
    · exact fun c hc => absurd hc (by simp [bpfUserRingbufDrain])
  | cons s rest ih =>
    rcases hs : dynptrData s.data with _ | task
    · -- A short sample is skipped: it counts for nothing on either side.
      rw [drain_cons_short rest w hs, DrainContract.cons_iff hw, ih w hw]
      rcases rest with _ | ⟨r, rest⟩
      · simp
      · rw [List.dropLast_cons_cons]
        simp [hs]
    · rcases rest with _ | ⟨r, rest⟩
      · -- A record at the end of the ring is all that is left to do.
        refine ⟨fun _ t ht => absurd ht (by simp), fun _ => ?_⟩
        by_cases hslots : (dispatchTask env s.race task w).scxBpfDispatchNrSlots = 0
        · rw [drain_cons_full [] w hs hslots, DrainContract.cons_iff hw]
          exact ⟨rfl, by simp [bpfUserRingbufDrain], by simp [bpfUserRingbufDrain], Or.inl rfl⟩
        · rw [drain_cons_stop [] w hs hslots]
          exact ⟨rfl, by simpa using hw, by simpa using fun _ => hw, Or.inl rfl⟩
      · -- A record with another sample behind it always goes wrong.
        refine ⟨fun hcontract => ?_, fun hshort => ?_⟩
        · exfalso
          by_cases hslots : (dispatchTask env s.race task w).scxBpfDispatchNrSlots = 0
          · -- no slot left, but the next sample is consumed
            rw [drain_cons_full (r :: rest) w hs hslots, DrainContract.cons_iff hw] at hcontract
            have hcall : (r, dispatchTask env s.race task w) ∈
                (bpfUserRingbufDrain (handleDispatchedTask env) (r :: rest)
                  (dispatchTask env s.race task w)).calls := by
              rw [bpfUserRingbufDrain]
              dsimp only
              split_ifs
              · exact List.mem_cons_self
              · exact List.mem_cons_self
            have := hcontract.whileSlots _ hcall
            exact absurd hslots (Nat.pos_iff_ne_zero.mp this)
          · -- slots left and the ring not empty, but the drain stops
            rw [drain_cons_stop (r :: rest) w hs hslots] at hcontract
            rcases hcontract.exhausts with h | h
            · exact absurd h (by simp)
            · exact hslots h
        · have := hshort s (by rw [List.dropLast_cons_cons]; exact List.mem_cons_self)
          rw [hs] at this
          exact absurd this (by simp)

/-- Tasks 7 and 8 wait for user space; `buffered` insertions are already in the
dispatch buffer. -/
def waitingWorld (buffered : ℕ) : World twoCpus :=
  { World.loaded twoCpus 4 with
    tasks := ((TaskTable.empty twoCpus).set (plainTask 7)).set (plainTask 8)
    buf := List.replicate buffered ⟨9, .user sharedDsq, 0, some 1, 0⟩ }

/-- The bytes that user space writes to send a task to CPU 0. -/
def recordOf (pid : Int32) : Sample twoCpus := ⟨fastEncode ⟨pid, 0, 0, 5000000, 42, 0⟩, none⟩

/-- With an empty dispatch buffer the drain leaves the second of two records in
the ring; with a single slot left it hands the second one to `dispatch_task`
although the slots are used up. -/
theorem drain_breaks_contract :
    let records := [recordOf 7, recordOf 8]
    let roomy := bpfUserRingbufDrain (handleDispatchedTask (Env.lowest cpu0)) records
      (waitingWorld 0)
    let tight := bpfUserRingbufDrain (handleDispatchedTask (Env.lowest cpu0)) records
      (waitingWorld 511)
    (0 < (waitingWorld 0).scxBpfDispatchNrSlots ∧ roomy.rest.length = 1 ∧
      roomy.world.scxBpfDispatchNrSlots = 511 ∧ ¬ DrainContract records roomy) ∧
    (0 < (waitingWorld 511).scxBpfDispatchNrSlots ∧
      tight.calls.map (fun c => c.2.scxBpfDispatchNrSlots) = [1, 0] ∧
      ¬ DrainContract records tight) := by
  intro records roomy tight
  have hrest : roomy.rest.length = 1 := by decide
  have hroomy : roomy.world.scxBpfDispatchNrSlots = 511 := by decide
  have htight : tight.calls.map (fun c => c.2.scxBpfDispatchNrSlots) = [1, 0] := by decide +kernel
  refine ⟨⟨by decide, hrest, hroomy, fun h => ?_⟩, by decide +kernel, htight, fun h => ?_⟩
  · rcases h.exhausts with hnil | hzero
    · rw [hnil] at hrest
      exact absurd hrest (by decide)
    · omega
  · have hmem : 0 ∈ tight.calls.map (fun c => c.2.scxBpfDispatchNrSlots) := by
      rw [htight]
      decide
    obtain ⟨c, hc, hzero⟩ := List.mem_map.mp hmem
    have := h.whileSlots c hc
    omega

/-- A single record behind a sample that is too short is drained as it should. -/
theorem drain_meets_contract_iff_short_then_record :
    let records : List (Sample twoCpus) := [⟨[1, 2, 3], none⟩, recordOf 7]
    (∀ s ∈ records.dropLast, dynptrData s.data = none) ∧
    DrainContract records (bpfUserRingbufDrain (handleDispatchedTask (Env.lowest cpu0)) records
      (waitingWorld 0)) := by
  intro records
  have hshort : ∀ s ∈ records.dropLast, dynptrData s.data = none := by
    intro s hs
    rw [show records.dropLast = [⟨[1, 2, 3], none⟩] from rfl, List.mem_singleton] at hs
    subst hs
    decide
  exact ⟨hshort, (drain_meets_contract_iff (Env.lowest cpu0) records (waitingWorld 0)
    (by decide)).mpr hshort⟩

/-- With two slots free, at most one record of the ring reaches `dispatch_task`. -/
theorem drain_at_most_one (env : Env m) (records : List (Sample m)) (w : World m)
    (hroom : w.buf.length + 1 < maxDispatchSlot) :
    (bpfUserRingbufDrain (handleDispatchedTask env) records w).world = w ∨
      ∃ s ∈ records, ∃ task, dynptrData s.data = some task ∧
        (bpfUserRingbufDrain (handleDispatchedTask env) records w).world =
          dispatchTask env s.race task w := by
  induction records with
  | nil => exact Or.inl rfl
  | cons s rest ih =>
    rcases hs : dynptrData s.data with _ | task
    · rw [drain_cons_short rest w hs]
      rcases ih with h | ⟨t, ht, task, htask, h⟩
      · exact Or.inl h
      · exact Or.inr ⟨t, List.mem_cons_of_mem _ ht, task, htask, h⟩
    · have hle := @dispatchTask_buf_length_le m env task w s.race
      have hslots : (dispatchTask env s.race task w).scxBpfDispatchNrSlots ≠ 0 := by
        rw [World.scxBpfDispatchNrSlots]
        omega
      rw [drain_cons_stop rest w hs hslots]
      exact Or.inr ⟨s, List.mem_cons_self, task, hs, rfl⟩

/-! ### The footprint of a drain -/

theorem dispatching_handleDispatchedTask (env : Env m) (s : Sample m) (w : World m) :
    Dispatching w (handleDispatchedTask env s w).2 := by
  rw [handleDispatchedTask]
  split
  · exact Dispatching.refl w
  · exact dispatching_dispatchTask env s.race _ w

theorem dispatching_drain (env : Env m) (records : List (Sample m)) (w : World m) :
    Dispatching w (bpfUserRingbufDrain (handleDispatchedTask env) records w).world :=
  drain_rule (fun s _ w' h => h.trans (dispatching_handleDispatchedTask env s w')) (.refl w)

/-! ### The callback -/

/-- The scheduler's own task is inserted behind everything else. -/
def dispatchUserScheduler (ro : Rodata) (w : World m) : World m :=
  match w.tasks.find ro.userschedPid.toInt32 with
  | none => w.scxBpfError
      ("Failed to find usersched task " ++ toString ro.userschedPid.toInt32.toInt)
  | some p => w.scxBpfDsqInsert .dispatch p.pid (.user schedDsq) ro.defaultSlice scxEnqHead

/-- `BPF_RB_AVAIL_DATA` of `@queued`: each record takes its 72 bytes and an
8-byte header. -/
def World.availData (w : World m) : ℕ := w.queued.length * 80

/-- The drain of `goland_dispatch`; `races i` is the affinity change during the
`i`-th sample. -/
def drainDispatched (env : Env m) (races : ℕ → Option (CpuMask m)) (w : World m) : World m :=
  let d := bpfUserRingbufDrain (handleDispatchedTask env)
    (w.dispatched.mapIdx fun i data => ⟨data, races i⟩) w
  { d.world with dispatched := d.rest.map Sample.data }

theorem mem_of_mem_drainDispatched {env : Env m} {races : ℕ → Option (CpuMask m)} {w : World m}
    {data : Bytes} (h : data ∈ (drainDispatched env races w).dispatched) : data ∈ w.dispatched := by
  obtain ⟨s, hs, rfl⟩ := List.mem_map.mp h
  have hfifo := drain_fifo (handleDispatchedTask env)
    (w.dispatched.mapIdx fun i data => ⟨data, races i⟩) w
  obtain ⟨i, hi, rfl⟩ := List.mem_mapIdx.mp (hfifo ▸ List.mem_append_right _ hs)
  exact List.getElem_mem hi

/-- The end of `goland_dispatch`, when no queue had a task for the CPU. -/
def keepRunning (ro : Rodata) (cpu : Cpu m) (prev : Option Int32) (w : World m) : World m :=
  if World.userschedHasPendingTasks w.bss.nrScheduled w.availData then
    { w with userschedNeeded := true }.scxBpfKickCpu cpu.toS32 .idle
  else
    match prev.bind w.tasks.find with
    | none => w
    | some p =>
      if p.queued && !isUserschedTask ro p then
        { w with tasks := w.tasks.setSlice p.pid (fun _ => scxSliceDfl) (·.dsqVtime) }
      else w

def golandDispatch (ro : Rodata) (env : Env m) (races : ℕ → Option (CpuMask m)) (cpu : Cpu m)
    (prev : Option Int32) (w : World m) : World m :=
  let w := if w.userschedNeeded then
    dispatchUserScheduler ro { w with userschedNeeded := false } else w
  let w := drainDispatched env races w
  let dsq := w.cpuToDsq cpu.toS32
  let own := dsq.2.scxBpfDsqMoveToLocal env cpu.toS32 dsq.1
  if own.1 then own.2
  else
    let shared := own.2.scxBpfDsqMoveToLocal env cpu.toS32 sharedDsq
    if shared.1 then shared.2
    else
      let sched := shared.2.scxBpfDsqMoveToLocal env cpu.toS32 schedDsq
      if sched.1 then sched.2
      else keepRunning ro cpu prev sched.2

/-- What all parts of `goland_dispatch` keep, it keeps. -/
theorem golandDispatch_keeps {P : World m → Prop} {ro : Rodata} {env : Env m}
    {races : ℕ → Option (CpuMask m)} {cpu : Cpu m} {prev : Option Int32} {w : World m}
    (huser : ∀ w, P w → P (dispatchUserScheduler ro { w with userschedNeeded := false }))
    (hdrain : ∀ w, P w → P (drainDispatched env races w))
    (hdsq : ∀ w, P w → P (w.cpuToDsq cpu.toS32).2)
    (hmove : ∀ w dsq, P w → P (w.scxBpfDsqMoveToLocal env cpu.toS32 dsq).2)
    (hkeep : ∀ w, P w → P (keepRunning ro cpu prev w)) (hw : P w) :
    P (golandDispatch ro env races cpu prev w) := by
  obtain ⟨w₁, hw₁, hP₁⟩ : ∃ w₁, (if w.userschedNeeded then
      dispatchUserScheduler ro { w with userschedNeeded := false } else w) = w₁ ∧ P w₁ := by
    refine ⟨_, rfl, ?_⟩
    split_ifs
    · exact huser w hw
    · exact hw
  have hown := hmove _ ((drainDispatched env races w₁).cpuToDsq cpu.toS32).1
    (hdsq _ (hdrain w₁ hP₁))
  have hshared := hmove _ sharedDsq hown
  have hsched := hmove _ schedDsq hshared
  rw [golandDispatch]
  dsimp only
  rw [hw₁]
  split_ifs
  · exact hown
  · exact hshared
  · exact hsched
  · exact hkeep _ hsched

end ScxGoland
