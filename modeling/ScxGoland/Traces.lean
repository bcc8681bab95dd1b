/-
What the callbacks add to the log.

Two things are said of the events that a function adds: they are `Legal` (each
insertion goes to a queue that exists and is used one way only, each queue that
is moved from exists, and `cpu_to_dsq` reports no error), and the CPUs claimed
by them and not released again are among those of a set `S`.  `Orderly S w w'`
says both; a callback is `Orderly ∅`, and `ops.select_cpu()` may leave open the
CPU that it returns.

* `picks_pickIdleCpu` — `pick_idle_cpu` leaves open the CPU it returns;
* `orderly_golandSelectCpu`, `orderly_golandEnqueue`, `orderly_golandDispatch`,
  `orderly_timer` — the callbacks that claim CPUs.
-/
import ScxGoland.DsqInit
import ScxGoland.System

namespace ScxGoland

variable {m : Machine}

/-! ### Legal events -/

/-- The four kinds of queues: `SCHED_DSQ` and the local queues are FIFOs,
`SHARED_DSQ` and the queues of the CPUs are ordered by vtime. -/
def Insertion.Legal (m : Machine) (i : Insertion) : Prop :=
  (∃ c : Cpu m, i.dsq = .localOn c.toS32 ∧ i.vtime = none) ∨
  (i.dsq = .user schedDsq ∧ i.vtime = none) ∨
  ∃ id ∈ dsqIds m, id ≠ schedDsq ∧ i.dsq = .user id ∧ i.vtime.isSome

def invalidCpuMsg (cpu : Int32) : String := "Invalid cpu: " ++ toString cpu.toInt

/-- No event but these is an operation on a queue or an error. -/
def Event.Legal (m : Machine) : Event → Prop
  | .inserted i => i.Legal m
  | .moveToLocal _ dsq _ => dsq ∈ dsqIds m
  | .error msg => ∀ cpu, msg ≠ invalidCpuMsg cpu
  | _ => True

/-- An error message that starts with another letter is not the one of
`cpu_to_dsq`. -/
theorem ne_invalidCpuMsg {msg : String} (h : msg.toList.head? ≠ some 'I') (cpu : Int32) :
    msg ≠ invalidCpuMsg cpu := by
  rintro rfl
  exact h (by rw [invalidCpuMsg, String.toList_append]; rfl)

/-! ### Claims that are open -/

/-- The event hands the CPU on: it is kicked, or a task is put on its local
queue. -/
def Event.settles (cpu : Int32) : Event → Bool
  | .kicked c _ => c = cpu
  | .inserted i => i.dsq = .localOn cpu
  | _ => false

def Event.claims : Event → List Int32
  | .claimed cpu => [cpu]
  | _ => []

/-- The CPUs claimed by the events and not handed on by a later one; the newest
event comes first. -/
def unsettled : List Event → List Int32
  | [] => []
  | e :: es => e.claims ++ (unsettled es).filter fun cpu => !e.settles cpu

theorem mem_unsettled_append {cpu : Int32} {es' es : List Event} :
    cpu ∈ unsettled (es' ++ es) ↔
      cpu ∈ unsettled es' ∨ (cpu ∈ unsettled es ∧ ∀ e ∈ es', e.settles cpu = false) := by
  induction es' with
  | nil => simp [unsettled]
  | cons e es' ih =>
    simp only [List.cons_append, unsettled, List.mem_append, List.mem_filter, ih,
      List.forall_mem_cons, Bool.not_eq_true']
    tauto

/-! ### Orderly changes -/

/-- The events from `w` to `w'` are legal, and the CPUs that they leave open
belong to `S`. -/
def Orderly (S : Set Int32) (w w' : World m) : Prop :=
  ∃ es, w'.log = es ++ w.log ∧ (∀ e ∈ es, e.Legal m) ∧ ∀ cpu ∈ unsettled es, cpu ∈ S

namespace Orderly

variable {S : Set Int32} {w₁ w₂ w₃ : World m}

theorem of_log (h : w₂.log = w₁.log) : Orderly S w₁ w₂ :=
  ⟨[], h, by simp, by simp [unsettled]⟩

theorem refl (w : World m) : Orderly S w w := of_log rfl

theorem trans (h : Orderly S w₁ w₂) (h' : Orderly S w₂ w₃) : Orderly S w₁ w₃ := by
  obtain ⟨es, hes, hlegal, hopen⟩ := h
  obtain ⟨es', hes', hlegal', hopen'⟩ := h'
  refine ⟨es' ++ es, by rw [hes', hes, List.append_assoc], ?_, ?_⟩
  · intro e he
    rcases List.mem_append.mp he with he | he
    · exact hlegal' e he
    · exact hlegal e he
  · intro cpu hcpu
    rcases mem_unsettled_append.mp hcpu with hcpu | ⟨hcpu, -⟩
    · exact hopen' cpu hcpu
    · exact hopen cpu hcpu

theorem mono {T : Set Int32} (h : Orderly S w₁ w₂) (hST : S ⊆ T) : Orderly T w₁ w₂ := by
  obtain ⟨es, hes, hlegal, hopen⟩ := h
  exact ⟨es, hes, hlegal, fun cpu hcpu => hST (hopen cpu hcpu)⟩

theorem of_empty (h : Orderly ∅ w₁ w₂) : Orderly S w₁ w₂ := h.mono (Set.empty_subset S)

theorem emit (w : World m) {e : Event} (hlegal : e.Legal m) (hclaims : e.claims = []) :
    Orderly S w (w.emit e) :=
  ⟨[e], rfl, by simpa using hlegal, by simp [unsettled, hclaims]⟩

/-- An event that hands the open CPU on. -/
theorem settle {cpu : Int32} {e : Event} (h : Orderly {cpu} w₁ w₂) (hlegal : e.Legal m)
    (hclaims : e.claims = []) (hsettles : e.settles cpu = true) :
    Orderly ∅ w₁ (w₂.emit e) := by
  obtain ⟨es, hes, hall, hopen⟩ := h
  refine ⟨e :: es, congrArg (e :: ·) hes, ?_, ?_⟩
  · rw [List.forall_mem_cons]
    exact ⟨hlegal, hall⟩
  · intro c hc
    rw [unsettled, hclaims, List.nil_append, List.mem_filter] at hc
    rw [Set.mem_singleton_iff.mp (hopen c hc.1), hsettles] at hc
    exact absurd hc.2 (by simp)

theorem kick (w : World m) (cpu : Int32) (k : Kick) : Orderly S w (w.scxBpfKickCpu cpu k) :=
  emit w trivial rfl

theorem then_kick {cpu : Int32} (h : Orderly {cpu} w₁ w₂) (k : Kick) :
    Orderly ∅ w₁ (w₂.scxBpfKickCpu cpu k) :=
  h.settle trivial rfl (by simp [Event.settles])

theorem claim (w : World m) (c : Cpu m) : Orderly {c.toS32} w (w.claim c) :=
  ⟨[.claimed c.toS32], rfl, by simp [Event.Legal], by simp [unsettled, Event.claims]⟩

theorem error (w : World m) {msg : String} (h : msg.toList.head? ≠ some 'I') :
    Orderly S w (w.scxBpfError msg) :=
  emit w (fun cpu => ne_invalidCpuMsg h cpu) rfl

/-- A legal insertion; one that finds the dispatch buffer full is only reported. -/
theorem insert (w : World m) (ctx : OpsCtx) {i : Insertion} (h : i.Legal m) :
    Orderly S w (w.insert ctx i) := by
  have hins : ∀ w' : World m, w'.log = w.log → Orderly S w (w'.emit (.inserted i)) :=
    fun w' hw' => (of_log hw').trans (emit w' h rfl)
  cases ctx with
  | direct => exact hins _ rfl
  | dispatch =>
    rw [World.insert]
    dsimp only
    by_cases hroom : w.buf.length < maxDispatchSlot
    · rw [if_pos hroom]
      exact hins _ rfl
    · rw [if_neg hroom]
      refine Orderly.trans (of_log rfl) (error _ ?_)
      decide

end Orderly

/-! ### Valid CPUs -/

section Valid

variable (hm : m.nrCpuIds ≤ maxCpus) (c : Cpu m)
include hm

theorem cpuToDsq_cpu (w : World m) : w.cpuToDsq c.toS32 = (UInt64.ofNat c.val, w) :=
  cpuToDsq_of_lt (lt_of_lt_of_le c.isLt hm) w

theorem mem_dsqIds_cpu : UInt64.ofNat c.val ∈ dsqIds m := by
  refine List.mem_append_left _ (List.mem_map.mpr ⟨c.val, List.mem_range.mpr c.isLt, ?_⟩)
  rw [cpuDsqId, if_pos (lt_of_lt_of_le c.isLt hm)]

theorem cpu_ne_schedDsq : UInt64.ofNat c.val ≠ schedDsq := by
  have hlt : c.val < maxCpus := lt_of_lt_of_le c.isLt hm
  intro h
  have hnat := congrArg UInt64.toNat h
  rw [UInt64.toNat_ofNat_of_lt' (lt_trans hlt (by decide))] at hnat
  rw [hnat] at hlt
  exact absurd hlt (by decide)

theorem legal_cpu (pid : Int32) (slice vtime flags : UInt64) :
    Insertion.Legal m ⟨pid, .user (UInt64.ofNat c.val), slice, some vtime, flags⟩ :=
  Or.inr (Or.inr ⟨_, mem_dsqIds_cpu hm c, cpu_ne_schedDsq hm c, rfl, rfl⟩)

end Valid

theorem legal_shared (pid : Int32) (slice vtime flags : UInt64) :
    Insertion.Legal m ⟨pid, .user sharedDsq, slice, some vtime, flags⟩ :=
  Or.inr (Or.inr ⟨_, List.mem_append_right _ (by simp), by decide, rfl, rfl⟩)

theorem legal_sched (pid : Int32) (slice flags : UInt64) :
    Insertion.Legal m ⟨pid, .user schedDsq, slice, none, flags⟩ :=
  Or.inr (Or.inl ⟨rfl, rfl⟩)

theorem legal_local (c : Cpu m) (pid : Int32) (slice flags : UInt64) :
    Insertion.Legal m ⟨pid, .localOn c.toS32, slice, none, flags⟩ :=
  Or.inl ⟨c, rfl, rfl⟩

/-! ### Searching and kicking -/

/-- The result of a search: an error, or a CPU that is claimed and left open. -/
def Picks (w : World m) (r : Int32 × World m) : Prop :=
  (r.1 < 0 ∧ Orderly ∅ w r.2) ∨ ∃ c : Cpu m, r.1 = c.toS32 ∧ Orderly {c.toS32} w r.2

theorem Picks.fail {e : Int32} {w w' : World m} (he : e < 0) (h : Orderly ∅ w w') :
    Picks w (e, w') := Or.inl ⟨he, h⟩

theorem Picks.trans {w w' : World m} {r : Int32 × World m} (h : Orderly ∅ w w')
    (h' : Picks w' r) : Picks w r := by
  rcases h' with ⟨hneg, h'⟩ | ⟨c, hc, h'⟩
  · exact Or.inl ⟨hneg, h.trans h'⟩
  · exact Or.inr ⟨c, hc, h.of_empty.trans h'⟩

theorem Picks.of_claimsOne {w : World m} {r : Int32 × World m} (h : ClaimsOne w r) :
    Picks w r := by
  rcases h with rfl | ⟨c, -, rfl⟩
  · exact Picks.fail neg_eBUSY_lt (Orderly.refl w)
  · exact Or.inr ⟨c, rfl, Orderly.claim w c⟩

/-- `pick_idle_cpu` claims the CPU that it returns and no other. -/
theorem picks_pickIdleCpu (ro : Rodata) (env : Env m) (p : TaskStruct m) (prevCpu : Int32)
    (w : World m) : Picks w (pickIdleCpu ro env p prevCpu w) := by
  obtain ⟨w₁, ⟨ctx, rfl, -⟩, hcases⟩ := pickIdleCpu_cases ro env p prevCpu w
  have hscratch : Orderly ∅ w { w with taskCtx := ctx } := Orderly.of_log rfl
  refine Picks.trans hscratch ?_
  rcases hcases with hclaim | h | ⟨msg, hmsg, -, h⟩
  · exact .of_claimsOne hclaim
  · rw [h]
    exact .fail (by decide) (Orderly.refl _)
  · rw [h]
    refine .fail (by decide) (Orderly.error _ ?_)
    rcases List.mem_pair.mp hmsg with rfl | rfl
    · decide
    · decide

/-- `kick_task_cpu` kicks the CPU given to it, and then whatever it claims. -/
theorem orderly_after_kick (env : Env m) (p : TaskStruct m) (cpu : Int32) (w : World m) :
    Orderly ∅ (w.scxBpfKickCpu cpu .idle) (kickTaskCpu env p cpu w) := by
  rcases kickTaskCpu_cases env p cpu w with ⟨h, -⟩ | ⟨c, -, h⟩
  · rw [h]
    exact Orderly.refl _
  · rw [h]
    exact (Orderly.claim _ c).then_kick .idle

theorem orderly_kickTaskCpu (env : Env m) (p : TaskStruct m) (cpu : Int32) (w : World m) :
    Orderly ∅ w (kickTaskCpu env p cpu w) :=
  (Orderly.kick w cpu .idle).trans (orderly_after_kick env p cpu w)

theorem Orderly.then_kickTaskCpu {cpu : Int32} {w₁ w₂ : World m} (h : Orderly {cpu} w₁ w₂)
    (env : Env m) (p : TaskStruct m) : Orderly ∅ w₁ (kickTaskCpu env p cpu w₂) :=
  (h.then_kick .idle).trans (orderly_after_kick env p cpu w₂)

/-! ### The callbacks -/

section Callbacks

variable (hm : m.nrCpuIds ≤ maxCpus)
include hm

/-- What `try_direct_dispatch` returns; the task is only dispatched to a CPU. -/
def DirectPicks (w : World m) (d : DirectDispatch m) : Prop :=
  Picks w (d.cpu, d.world) ∧ (d.dispatched = true → ¬ d.cpu < 0)

theorem directPicks_tryDirectDispatch (ro : Rodata) (env : Env m) (p : TaskStruct m)
    (prevCpu : Int32) (enqFlags : UInt64) (w : World m) :
    DirectPicks w (tryDirectDispatch ro env p prevCpu enqFlags w) := by
  have hpick := picks_pickIdleCpu ro env p prevCpu w
  rw [tryDirectDispatch]
  by_cases hidle : ro.builtinIdle = false
  · rw [if_pos hidle]
    exact ⟨Picks.fail neg_eBUSY_lt (Orderly.refl w), by simp⟩
  rw [if_neg hidle]
  rcases hr : pickIdleCpu ro env p prevCpu w with ⟨cpu, w'⟩
  rw [hr] at hpick
  dsimp only
  rcases hpick with ⟨hneg, hord⟩ | ⟨c, hc, hord⟩
  · rw [if_pos hneg]
    exact ⟨Picks.fail hneg hord, by simp⟩
  · dsimp only at hc hord
    rw [hc, if_neg c.toS32_nonneg, cpuToDsq_cpu hm, cpuToDsq_cpu hm]
    dsimp only
    split_ifs
    · exact ⟨Picks.fail neg_eBUSY_lt (hord.then_kick .idle), by simp⟩
    · -- the insertion into the CPU's queue does not hand the CPU on
      have hins := Orderly.insert (S := {c.toS32}) w' .direct
        (legal_cpu hm c p.pid scxSliceDfl p.dsqVtime enqFlags)
      refine ⟨Or.inr ⟨c, rfl, (hord.trans hins).trans (Orderly.of_log rfl)⟩, fun _ => ?_⟩
      exact c.toS32_nonneg
    · exact ⟨Or.inr ⟨c, rfl, hord⟩, by simp⟩
    · exact ⟨Or.inr ⟨c, rfl, hord⟩, by simp⟩

/-- `goland_select_cpu` leaves open the CPU that it returns. -/
theorem orderly_golandSelectCpu (ro : Rodata) (env : Env m) (p : TaskStruct m)
    (prevCpu : Int32) (wakeFlags : UInt64) (w : World m) :
    Orderly {(golandSelectCpu ro env p prevCpu wakeFlags w).1} w
      (golandSelectCpu ro env p prevCpu wakeFlags w).2 := by
  obtain ⟨hpick, -⟩ := directPicks_tryDirectDispatch hm ro env p prevCpu 0 w
  rw [golandSelectCpu]
  by_cases hus : isUserschedTask ro p
  · rw [if_pos hus]
    exact Orderly.refl w
  rw [if_neg hus]
  dsimp only
  rcases hpick with ⟨hneg, hord⟩ | ⟨c, hc, hord⟩
  · dsimp only at hneg hord
    rw [if_pos hneg]
    exact hord.of_empty
  · dsimp only at hc hord
    rw [if_neg (by rw [hc]; exact c.toS32_nonneg), hc]
    exact hord

theorem orderly_insertKernelTask (ro : Rodata) (p : TaskStruct m) (enqFlags : UInt64)
    (w : World m) : Orderly ∅ w (insertKernelTask ro p enqFlags w) := by
  rw [insertKernelTask, cpuToDsq_cpu hm]
  have hins := Orderly.insert (S := ∅) w .direct
    (legal_cpu hm p.cpu p.pid ro.defaultSlice p.dsqVtime enqFlags)
  exact hins.trans (Orderly.of_log rfl)

theorem directPicks_enqueueDirect (ro : Rodata) (env : Env m) (p : TaskStruct m)
    (enqFlags : UInt64) (w : World m) : DirectPicks w (enqueueDirect ro env p enqFlags w) := by
  rw [enqueueDirect]
  split_ifs
  · exact directPicks_tryDirectDispatch hm ro env p _ enqFlags w
  · exact ⟨Picks.fail neg_eBUSY_lt (Orderly.refl w), by simp⟩

omit hm in
/-- The CPU that the priority path claims gets the task on its local queue. -/
theorem orderly_insertPriority (env : Env m) (p : TaskStruct m) (w : World m) :
    Orderly ∅ w (insertPriority env p w) := by
  rw [insertPriority]
  split
  · exact Orderly.refl w
  · rename_i slice _
    rcases scxBpfPickIdleCpu_cases env p.cpusPtr false w with ⟨c, -, hpick⟩ | hpick
    · have hins := (Orderly.claim w c).settle (e := .inserted ⟨p.pid, .localOn c.toS32, slice,
        none, prioEnqFlags c.toS32 (w.claim c)⟩) (legal_local c _ _ _) rfl (by simp [Event.settles])
      rw [hpick]
      dsimp only
      rw [if_neg (c.toS32_ne_neg neg_eBUSY_lt), if_neg c.toS32_nonneg]
      exact hins.trans (Orderly.of_log rfl)
    · rw [hpick]
      dsimp only
      rw [if_pos rfl, if_neg p.cpu.toS32_nonneg]
      exact (Orderly.insert w .direct (legal_local p.cpu _ _ _)).trans (Orderly.of_log rfl)

omit hm in
/-- The ring path kicks the CPU that is still open. -/
theorem orderly_enqueueToUser {cpu : Int32} {w w' : World m} (h : Picks w (cpu, w'))
    (env : Env m) (p : TaskStruct m) (enqFlags : UInt64) :
    Orderly ∅ w (enqueueToUser env p enqFlags cpu w') := by
  -- submitting a record and falling back to `SHARED_DSQ` claim nothing
  have hring : ∀ S, Orderly S w' (if w'.queued.length < w'.queuedCap then
      ({ w' with queued := w'.queued ++ [getTaskInfo p enqFlags w'] }.emit
        (.submitted (getTaskInfo p enqFlags w'))).updBss fun b =>
          { b with nrQueued := b.nrQueued + 1 }
    else
      (((w'.updBss fun b => { b with nrSchedCongested := b.nrSchedCongested + 1 }).scxBpfDsqInsertVtime
        .direct p.pid (.user sharedDsq) scxSliceDfl p.dsqVtime enqFlags).updBss fun b =>
          { b with nrKernelDispatches := b.nrKernelDispatches + 1 })) := by
    intro S
    split_ifs
    · exact ⟨[.submitted (getTaskInfo p enqFlags w')], rfl, by simp [Event.Legal],
        by simp [unsettled, Event.claims]⟩
    · exact ((Orderly.of_log rfl).trans (Orderly.insert _ .direct
        (legal_shared p.pid scxSliceDfl p.dsqVtime enqFlags))).trans (Orderly.of_log rfl)
  rw [enqueueToUser]
  rcases h with ⟨hneg, hord⟩ | ⟨c, hc, hord⟩
  · dsimp only at hneg hord
    rw [if_pos hneg]
    exact (hord.trans (hring ∅)).trans (orderly_kickTaskCpu env p _ _)
  · dsimp only at hc hord
    rw [hc, if_neg c.toS32_nonneg]
    exact (hord.trans (hring _)).then_kickTaskCpu env p

theorem orderly_golandEnqueue (ro : Rodata) (env : Env m) (p : TaskStruct m)
    (enqFlags : UInt64) (w : World m) : Orderly ∅ w (golandEnqueue ro env p enqFlags w) := by
  rw [golandEnqueue]
  split_ifs
  · exact Orderly.refl w
  · exact (Orderly.insert w .direct (legal_sched p.pid scxSliceInf scxEnqHead)).trans
      (orderly_kickTaskCpu env p _ _)
  · exact orderly_insertKernelTask hm ro p enqFlags w
  · exact orderly_insertKernelTask hm ro p enqFlags w
  · obtain ⟨hpick, hdisp⟩ := directPicks_enqueueDirect hm ro env p enqFlags w
    dsimp only
    split_ifs with hd
    · rcases hpick with ⟨hneg, -⟩ | ⟨c, hc, hord⟩
      · exact absurd hneg (hdisp hd)
      · dsimp only at hc hord
        rw [hc]
        exact hord.then_kick .idle
    · have hprio := orderly_insertPriority env p (enqueueDirect ro env p enqFlags w).world
      refine orderly_enqueueToUser ?_ env p enqFlags
      rcases hpick with ⟨hneg, hord⟩ | ⟨c, hc, hord⟩
      · exact Or.inl ⟨hneg, hord.trans hprio⟩
      · exact Or.inr ⟨c, hc, hord.trans hprio.of_empty⟩

/-! ### Dispatching -/

theorem orderly_insertOnCpu (p : TaskStruct m) {task : DispatchedTaskCtx} (w : World m)
    (hcpu : bpfCpumaskTestCpu task.cpu p.cpusPtr = true) :
    Orderly ∅ w (insertOnCpu p task w) := by
  obtain ⟨c, -, hc⟩ := exists_cpu_of_test hcpu
  rw [insertOnCpu, hc, cpuToDsq_cpu hm]
  exact (Orderly.insert w .dispatch (legal_cpu hm c _ _ _ _)).trans (Orderly.of_log rfl)

theorem orderly_insertByVtime (p : TaskStruct m) {task : DispatchedTaskCtx} (w : World m)
    (hcpu : bpfCpumaskTestCpu task.cpu p.cpusPtr = true) :
    Orderly ∅ w (insertByVtime p task w) := by
  rw [insertByVtime_eq]
  split_ifs
  · exact Orderly.refl w
  · exact orderly_insertOnCpu hm p w hcpu

omit hm in
theorem updatePriorityTaskMap_log (w : World m) (pid : UInt32) (vtime slice : UInt64) :
    (w.updatePriorityTaskMap pid vtime slice).log = w.log := by
  rw [World.updatePriorityTaskMap]
  split_ifs <;> rfl

omit hm in
theorem orderly_scxBpfDispatchCancel (w : World m) : Orderly ∅ w w.scxBpfDispatchCancel := by
  rw [World.scxBpfDispatchCancel]
  split
  · exact (Orderly.of_log rfl).trans (Orderly.emit _ trivial rfl)
  · exact Orderly.error w (by decide)

/-- For a record with arbitrary fields, and any change of the affinity. -/
theorem orderly_dispatchTask (env : Env m) (race : Option (CpuMask m))
    (task : DispatchedTaskCtx) (w : World m) : Orderly ∅ w (dispatchTask env race task w) := by
  rw [dispatchTask]
  split
  · exact Orderly.refl w
  · rename_i p _
    have hshared := Orderly.insert (S := ∅) w .dispatch
      (legal_shared p.pid task.sliceNs task.vtime task.flags)
    dsimp only
    split_ifs with hany hfirst hsecond
    · exact hshared.trans (orderly_kickTaskCpu env p _ _)
    · exact (hshared.trans (Orderly.of_log rfl)).trans (orderly_kickTaskCpu env p _ _)
    · have hins := (orderly_insertByVtime hm p w (by simpa using hfirst)).trans
        (Orderly.of_log (updatePriorityTaskMap_log _ task.pid.toUInt32 task.vtime task.sliceNs))
      exact (hins.trans (orderly_scxBpfDispatchCancel _)).trans (Orderly.of_log rfl)
    · have hins := (orderly_insertByVtime hm p w (by simpa using hfirst)).trans
        (Orderly.of_log (updatePriorityTaskMap_log _ task.pid.toUInt32 task.vtime task.sliceNs))
      exact hins.trans (Orderly.kick _ _ _)

theorem orderly_drain (env : Env m) (records : List (Sample m)) (w : World m) :
    Orderly ∅ w (bpfUserRingbufDrain (handleDispatchedTask env) records w).world := by
  refine drain_rule (fun s _ w' h => ?_) (Orderly.refl w)
  rw [handleDispatchedTask]
  split
  · exact h
  · exact h.trans (orderly_dispatchTask hm env s.race _ w')

omit hm in
theorem orderly_moveToLocal (env : Env m) (cpu : Int32) {dsq : UInt64} (h : dsq ∈ dsqIds m)
    (w : World m) : Orderly ∅ w (w.scxBpfDsqMoveToLocal env cpu dsq).2 :=
  (Orderly.of_log rfl).trans
    (Orderly.emit { w with buf := [] } (e := .moveToLocal cpu dsq (env.moveToLocal dsq)) h rfl)

omit hm in
theorem orderly_keepRunning (ro : Rodata) (cpu : Cpu m) (prev : Option Int32) (w : World m) :
    Orderly ∅ w (keepRunning ro cpu prev w) := by
  rw [keepRunning]
  split_ifs
  · exact (Orderly.of_log rfl).trans (Orderly.kick _ _ _)
  · split
    · exact Orderly.refl w
    · split_ifs
      · exact Orderly.of_log rfl
      · exact Orderly.refl w

omit hm in
theorem orderly_dispatchUserScheduler (ro : Rodata) (w : World m) :
    Orderly ∅ w (dispatchUserScheduler ro w) := by
  rw [dispatchUserScheduler]
  split
  · refine Orderly.error w ?_
    rw [String.toList_append]
    exact show some 'F' ≠ some 'I' by decide
  · exact Orderly.insert w .dispatch (legal_sched _ _ _)

theorem orderly_golandDispatch (ro : Rodata) (env : Env m) (races : ℕ → Option (CpuMask m))
    (cpu : Cpu m) (prev : Option Int32) (w : World m) :
    Orderly ∅ w (golandDispatch ro env races cpu prev w) := by
  obtain ⟨w₁, hw₁, huser⟩ : ∃ w₁, (if w.userschedNeeded then
      dispatchUserScheduler ro { w with userschedNeeded := false } else w) = w₁ ∧
      Orderly ∅ w w₁ := by
    refine ⟨_, rfl, ?_⟩
    split_ifs
    · exact (Orderly.of_log rfl).trans (orderly_dispatchUserScheduler ro _)
    · exact Orderly.refl w
  have hdrain : Orderly ∅ w (drainDispatched env races w₁) :=
    huser.trans ((orderly_drain hm env _ w₁).trans (Orderly.of_log rfl))
  have hown := hdrain.trans (orderly_moveToLocal env cpu.toS32 (mem_dsqIds_cpu hm cpu) _)
  have hshared := hown.trans (orderly_moveToLocal env cpu.toS32
    (List.mem_append_right _ (by simp : sharedDsq ∈ [sharedDsq, schedDsq])) _)
  have hsched := hshared.trans (orderly_moveToLocal env cpu.toS32
    (List.mem_append_right _ (by simp : schedDsq ∈ [sharedDsq, schedDsq])) _)
  rw [golandDispatch]
  dsimp only
  rw [hw₁, cpuToDsq_cpu hm]
  split_ifs
  · exact hown
  · exact hshared
  · exact hsched
  · exact hsched.trans (orderly_keepRunning ro cpu prev _)

omit hm in
/-- `rs_select_cpu` leaves open the CPU that it returns. -/
theorem orderly_rsSelectCpu (ro : Rodata) (env : Env m) (pid cpu : Int32) (w : World m) :
    Orderly {(rsSelectCpu ro env pid cpu w).1} w (rsSelectCpu ro env pid cpu w).2 := by
  rw [rsSelectCpu]
  split
  · exact Orderly.refl w
  · rename_i p _
    rcases picks_pickIdleCpu ro env p cpu w with ⟨-, hord⟩ | ⟨c, hc, hord⟩
    · exact hord.of_empty
    · rw [hc]
      exact hord

omit hm in
/-- The heartbeat kicks the CPU that it claims. -/
theorem orderly_timer (ro : Rodata) (env : Env m) (armed : Bool) (w : World m) :
    Orderly ∅ w (userschedTimerFn ro env armed w) := by
  have htrigger : Orderly ∅ w (triggerUsersched ro env w) := by
    rw [triggerUsersched]
    split
    · exact Orderly.refl w
    · rename_i p _
      rcases scxBpfPickIdleCpu_cases env p.cpusPtr false { w with userschedNeeded := true } with
        ⟨c, -, hpick⟩ | hpick
      · dsimp only
        rw [hpick, if_neg c.toS32_nonneg]
        exact (Orderly.of_log rfl).trans ((Orderly.claim _ c).then_kick .idle)
      · dsimp only
        rw [hpick, if_pos neg_eBUSY_lt]
        exact Orderly.of_log rfl
  have harm : ∀ w' : World m, Orderly ∅ w' (w'.scxBpfError "Failed to arm stats timer") :=
    fun w' => Orderly.error w' (by decide)
  rw [userschedTimerFn]
  split_ifs
  · exact htrigger
  · exact Orderly.refl w
  · exact htrigger.trans (harm _)
  · exact harm w

/-- The CPU that `ops.select_cpu()` or `rs_select_cpu` returns. -/
def returned (ro : Rodata) (w : World m) : Label m → List Int32
  | .selectCpu env pid prevCpu wakeFlags =>
    ((w.tasks.find pid).map fun p => (golandSelectCpu ro env p prevCpu wakeFlags w).1).toList
  | .rsSelectCpu env pid cpu => [(rsSelectCpu ro env pid cpu w).1]
  | _ => []

/-- **Every step is orderly**, and leaves open at most the CPU that it returns. -/
theorem orderly_step {ro : Rodata} {w w' : World m} {l : Label m} (h : step ro w l = some w') :
    Orderly {cpu | cpu ∈ returned ro w l} w w' := by
  cases l with
  | fork p =>
    rw [step] at h
    split_ifs at h
    obtain rfl := Option.some_inj.mp h
    exact Orderly.of_log rfl
  | change p =>
    obtain ⟨old, -, rfl⟩ := Option.map_eq_some_iff.mp h
    exact Orderly.of_log rfl
  | setAffinity pid mask =>
    obtain ⟨p, -, rfl⟩ := Option.map_eq_some_iff.mp h
    exact (Orderly.of_log rfl).trans (Orderly.emit _ trivial rfl)
  | dequeue pid =>
    obtain ⟨p, -, rfl⟩ := Option.map_eq_some_iff.mp h
    exact Orderly.emit w trivial rfl
  | selectCpu env pid prevCpu wakeFlags =>
    obtain ⟨p, hp, rfl⟩ := Option.map_eq_some_iff.mp h
    refine (orderly_golandSelectCpu hm ro env p prevCpu wakeFlags w).mono ?_
    rintro cpu rfl
    simp [returned, hp]
  | enqueue env pid enqFlags =>
    obtain ⟨p, -, rfl⟩ := Option.map_eq_some_iff.mp h
    have hcalled : Orderly ∅ w (w.emit (.enqueueCalled pid)) := Orderly.emit w trivial rfl
    have hbody := hcalled.trans (orderly_golandEnqueue hm ro env p enqFlags _)
    exact hbody.of_empty.trans (Orderly.emit _ trivial rfl)
  | runnable pid =>
    obtain ⟨p, -, rfl⟩ := Option.map_eq_some_iff.mp h
    rw [golandRunnable]
    split_ifs <;> exact Orderly.of_log rfl
  | running env pid =>
    obtain ⟨p, -, rfl⟩ := Option.map_eq_some_iff.mp h
    rw [golandRunning]
    split_ifs <;> exact Orderly.of_log rfl
  | stopping env pid =>
    obtain ⟨p, -, rfl⟩ := Option.map_eq_some_iff.mp h
    rw [golandStopping]
    split_ifs <;> exact Orderly.of_log rfl
  | cpuRelease pid =>
    obtain ⟨p, -, rfl⟩ := Option.map_eq_some_iff.mp h
    rw [golandCpuRelease]
    split_ifs <;> exact Orderly.of_log rfl
  | enable pid =>
    obtain ⟨p, -, rfl⟩ := Option.map_eq_some_iff.mp h
    exact Orderly.of_log rfl
  | initTask allocs pid =>
    obtain ⟨p, -, rfl⟩ := Option.map_eq_some_iff.mp h
    rw [golandInitTask]
    split
    · exact Orderly.refl w
    · dsimp only
      split_ifs <;> exact Orderly.of_log rfl
  | exitTask pid =>
    obtain ⟨p, -, rfl⟩ := Option.map_eq_some_iff.mp h
    exact (Orderly.of_log (updatePriorityTaskMap_log w p.pid.toUInt32 1 0)).trans
      ((Orderly.of_log rfl).trans (Orderly.emit _ trivial rfl))
  | dispatch env cpu prev =>
    obtain rfl := Option.some_inj.mp h
    exact (orderly_golandDispatch hm ro env _ cpu prev w).of_empty
  | timer env armed =>
    obtain rfl := Option.some_inj.mp h
    exact (orderly_timer ro env armed w).of_empty
  | preempt cpuId =>
    obtain rfl := Option.some_inj.mp h
    exact Orderly.kick w cpuId .preempt
  | rsSelectCpu env pid cpu =>
    obtain rfl := Option.some_inj.mp h
    exact (orderly_rsSelectCpu ro env pid cpu w).mono (by simp [returned])
  | siblingCpu alloc lvlId cpuId siblingCpuId =>
    obtain rfl := Option.some_inj.mp h
    rw [enableSiblingCpu]
    dsimp only
    split_ifs
    · split <;> exact Orderly.of_log rfl
    · split <;> exact Orderly.of_log rfl
    · exact Orderly.refl w
    · exact Orderly.refl w
  | push data =>
    obtain rfl := Option.some_inj.mp h
    exact Orderly.of_log rfl
  | consume =>
    obtain rfl := Option.some_inj.mp h
    exact Orderly.of_log rfl
  | setCounters b =>
    obtain rfl := Option.some_inj.mp h
    exact Orderly.of_log rfl
  | setIdle idle idleSmt =>
    obtain rfl := Option.some_inj.mp h
    exact Orderly.of_log rfl
  | setDsqs dsqs =>
    obtain rfl := Option.some_inj.mp h
    exact Orderly.of_log rfl

end Callbacks

end ScxGoland
