/-
Virtual time in the user-space scheduler.

`updatedEnqueueTask` places a task on the virtual time line: at its own vtime,
but no further than one slice behind the most advanced task, and a little later
when it is new; it then charges the last execution interval.  The deadline is
the vtime plus the execution time since the last sleep.

* `updatedEnqueueTask_spec` — the code over 64-bit words computes `placed`,
  `charge` and `latency` in natural numbers, whenever their sum fits;
* `vtime_bounded_credit` — over any sequence of calls, `minVruntime` is the
  largest vtime seen, no task is placed more than a slice behind it, and the
  deadline is at most a hundred slices behind the vtime;
* `heavier_never_hurts_iff` — a larger weight helps exactly where the charge for
  the last interval, which grows with the weight, does not outweigh the credit
  of a new task, which shrinks with it.
-/
import ScxGoland.TaskPool

open Runs

namespace ScxGoland

/-! ### The computation in natural numbers -/

/-- The largest vtime seen, this task included. -/
def leadVtime (minVruntime : UInt64) (t : QueuedTask) : ℕ :=
  max minVruntime.toNat t.vtime.toNat

/-- Where the task is placed before its last interval is charged. -/
def placed (minVruntime : UInt64) (t : QueuedTask) : ℕ :=
  if t.vtime = 0 then leadVtime minVruntime t - 5000000 + 500000000 / t.weight.toNat
  else max t.vtime.toNat (leadVtime minVruntime t - 5000000)

/-- The charge for the last interval; the product wraps. -/
def charge (t : QueuedTask) : ℕ :=
  (t.stopTs - t.startTs).toNat * t.weight.toNat % 2 ^ 64 / 100

/-- The distance from the vtime to the deadline. -/
def latency (t : QueuedTask) : ℕ := min t.sumExecRuntime.toNat 500000000

theorem sliceNsDefault_toNat : sliceNsDefault.toNat = 5000000 := rfl

theorem saturatingSub_toNat (a b : UInt64) : (saturatingSub a b).toNat = a.toNat - b.toNat := by
  rw [saturatingSub]
  split_ifs with h
  · exact UInt64.toNat_sub_of_le a b (UInt64.le_of_lt h)
  · rw [UInt64.lt_iff_toNat_lt] at h
    rw [Nat.sub_eq_zero_of_le (by omega)]
    rfl

/-- The new `minVruntime`. -/
theorem lead_toNat (minVruntime : UInt64) (t : QueuedTask) :
    (if minVruntime < t.vtime then t.vtime else minVruntime).toNat = leadVtime minVruntime t := by
  rw [leadVtime]
  split_ifs with h
  · rw [UInt64.lt_iff_toNat_lt] at h
    omega
  · rw [UInt64.lt_iff_toNat_lt] at h
    omega

theorem charge_eq (t : QueuedTask) :
    ((t.stopTs - t.startTs) * t.weight / 100).toNat = charge t := by
  rw [UInt64.toNat_div, UInt64.toNat_mul]
  rfl

theorem latency_eq (t : QueuedTask) :
    (min t.sumExecRuntime (sliceNsDefault * 100)).toNat = latency t := by
  have hcap : (sliceNsDefault * 100).toNat = 500000000 := rfl
  rw [latency, ← hcap]
  show (if t.sumExecRuntime ≤ sliceNsDefault * 100 then _ else _ : UInt64).toNat = _
  split_ifs with h
  · rw [min_eq_left (UInt64.le_iff_toNat_le.mp h)]
  · rw [UInt64.le_iff_toNat_le] at h
    rw [min_eq_right (by omega)]

theorem toNat_add_of_lt {a b : UInt64} (h : a.toNat + b.toNat < 2 ^ 64) :
    (a + b).toNat = a.toNat + b.toNat := by
  rw [UInt64.toNat_add, Nat.mod_eq_of_lt h]

/-- The vtime before the charge; `minLocal` is one slice behind the most advanced
task. -/
theorem placed_spec {minVruntime minLocal : UInt64} {t : QueuedTask}
    (hlocal : minLocal.toNat = leadVtime minVruntime t - 5000000)
    (hweight : t.vtime = 0 → t.weight ≠ 0) (hfit : placed minVruntime t < 2 ^ 64) :
    ∃ base : UInt64, (if t.vtime = 0 then
        if t.weight = 0 then none else some (minLocal + sliceNsDefault * 100 / t.weight)
      else if t.vtime < minLocal then some minLocal
      else some t.vtime) = some base ∧ base.toNat = placed minVruntime t := by
  rw [placed] at hfit ⊢
  split_ifs at hfit ⊢ with hnew hzero hlag
  · exact absurd hzero (hweight hnew)
  · refine ⟨_, rfl, ?_⟩
    have hcredit : (sliceNsDefault * 100 / t.weight).toNat = 500000000 / t.weight.toNat := by
      rw [UInt64.toNat_div]
      rfl
    rw [toNat_add_of_lt (by rw [hlocal, hcredit]; exact hfit), hlocal, hcredit]
  · refine ⟨_, rfl, ?_⟩
    rw [UInt64.lt_iff_toNat_lt, hlocal] at hlag
    rw [hlocal, max_eq_right (by omega)]
  · refine ⟨_, rfl, ?_⟩
    rw [UInt64.lt_iff_toNat_lt, hlocal] at hlag
    rw [max_eq_left (by omega)]

/-- **The specification of `updatedEnqueueTask`**: where the natural numbers fit
into 64 bits, the code computes them. -/
theorem updatedEnqueueTask_spec {minVruntime : UInt64} {t : QueuedTask}
    (hweight : t.vtime = 0 → t.weight ≠ 0)
    (hfit : placed minVruntime t + charge t + latency t < 2 ^ 64) :
    ∃ vtime deadline lead, updatedEnqueueTask minVruntime t =
        some ({ t with vtime := vtime }, deadline, lead) ∧
      vtime.toNat = placed minVruntime t + charge t ∧
      deadline.toNat = placed minVruntime t + charge t + latency t ∧
      lead.toNat = leadVtime minVruntime t := by
  have hlead := lead_toNat minVruntime t
  have hcharge := charge_eq t
  have hlatency := latency_eq t
  have hlocal := saturatingSub_toNat (if minVruntime < t.vtime then t.vtime else minVruntime)
    sliceNsDefault
  rw [hlead, sliceNsDefault_toNat] at hlocal
  obtain ⟨base, hbase, hplaced⟩ := placed_spec hlocal hweight (by omega)
  have hvtime : (base + (t.stopTs - t.startTs) * t.weight / 100).toNat =
      placed minVruntime t + charge t := by
    rw [toNat_add_of_lt (by rw [hplaced, hcharge]; omega), hplaced, hcharge]
  have hdeadline : (base + (t.stopTs - t.startTs) * t.weight / 100 +
      min t.sumExecRuntime (sliceNsDefault * 100)).toNat =
      placed minVruntime t + charge t + latency t := by
    rw [toNat_add_of_lt (by rw [hvtime, hlatency]; omega), hvtime, hlatency]
  refine ⟨_, _, _, ?_, hvtime, hdeadline, hlead⟩
  rw [updatedEnqueueTask]
  dsimp only
  rw [hbase]
  rfl

/-! ### Sane records -/

/-- A record as the kernel sends it: a weight of the cgroup range, an interval
that does not end before it starts, and times and vtimes below `2 ^ 63`. -/
structure SaneRecord (t : QueuedTask) : Prop where
  weight_pos : 1 ≤ t.weight.toNat
  weight_le : t.weight.toNat ≤ 10000
  interval : t.startTs ≤ t.stopTs
  stop_lt : t.stopTs.toNat < 2 ^ 63
  vtime_lt : t.vtime.toNat < 2 ^ 63

theorem charge_le (t : QueuedTask) : charge t ≤ (2 ^ 64 - 1) / 100 := by
  have hlt : (t.stopTs - t.startTs).toNat * t.weight.toNat % 2 ^ 64 < 2 ^ 64 :=
    Nat.mod_lt _ (by decide)
  exact Nat.div_le_div_right (by omega)

theorem latency_le (t : QueuedTask) : latency t ≤ 500000000 := min_le_right _ _

/-- With all vtimes below `2 ^ 63` nothing but the product of the charge wraps. -/
theorem SaneRecord.fits {minVruntime : UInt64} {t : QueuedTask} (h : SaneRecord t)
    (hmin : minVruntime.toNat < 2 ^ 63) :
    placed minVruntime t + charge t + latency t < 2 ^ 64 := by
  have hcharge := charge_le t
  have hlatency := latency_le t
  have hvtime := h.vtime_lt
  have hcredit : 500000000 / t.weight.toNat ≤ 500000000 := Nat.div_le_self _ _
  rw [placed, leadVtime]
  split_ifs
  · omega
  · omega

theorem SaneRecord.weight_ne {t : QueuedTask} (h : SaneRecord t) : t.weight ≠ 0 := by
  intro hzero
  have hpos := h.weight_pos
  rw [hzero] at hpos
  exact absurd hpos (by decide)

/-- A sane record is never placed at vtime `0`. -/
theorem SaneRecord.placed_pos {minVruntime : UInt64} {t : QueuedTask} (h : SaneRecord t) :
    0 < placed minVruntime t := by
  rw [placed]
  split_ifs with hnew
  · have hcredit : 500000000 / 10000 ≤ 500000000 / t.weight.toNat :=
      Nat.div_le_div_left h.weight_le h.weight_pos
    omega
  · have hne : t.vtime.toNat ≠ 0 := fun hzero => hnew (UInt64.toNat_inj.mp hzero)
    omega

/-! ### Sequences of calls -/

/-- One call of `updatedEnqueueTask`, as a step of `minVruntime`. -/
def vruntimeStep (minVruntime : UInt64) (t : QueuedTask) : Option UInt64 :=
  (updatedEnqueueTask minVruntime t).map fun r => r.2.2

/-- The largest vtime of the records. -/
def maxVtime (ts : List QueuedTask) : ℕ := (ts.map fun t => t.vtime.toNat).foldl max 0

theorem maxVtime_concat (ts : List QueuedTask) (t : QueuedTask) :
    maxVtime (ts ++ [t]) = max (maxVtime ts) t.vtime.toNat := by
  rw [maxVtime, List.map_append, List.foldl_append]
  rfl

/-- No sequence of sane records panics, and `minVruntime` is their largest
vtime. -/
theorem run_vruntimeStep (ts : List QueuedTask) (hsane : ∀ t ∈ ts, SaneRecord t) :
    ∃ minVruntime, run vruntimeStep 0 ts = some minVruntime ∧
      minVruntime.toNat = maxVtime ts ∧ minVruntime.toNat < 2 ^ 63 := by
  induction ts using List.reverseRecOn with
  | nil => exact ⟨0, rfl, rfl, by decide⟩
  | append_singleton ts t ih =>
    obtain ⟨minVruntime, hrun, hmax, hlt⟩ := ih fun u hu => hsane u (List.mem_append_left _ hu)
    have ht := hsane t (by simp)
    obtain ⟨vtime, deadline, lead, hcall, -, -, hlead⟩ :=
      updatedEnqueueTask_spec (fun _ => ht.weight_ne) (ht.fits hlt)
    have hvtime := ht.vtime_lt
    rw [leadVtime] at hlead
    refine ⟨lead, run_concat_eq_some.mpr ⟨minVruntime, hrun, ?_⟩, ?_, by omega⟩
    · rw [vruntimeStep, hcall]
      rfl
    · rw [maxVtime_concat, ← hmax, hlead]

/-- **Bounded credit and monotone virtual time.**  In every sequence of calls on
sane records, from the initial `minVruntime`: the call returns, `minVruntime` is
then the largest vtime that came in, the task is placed neither before its own
vtime nor more than one slice behind the most advanced task, and its deadline
follows its vtime by the execution time since its last sleep, at most a hundred
slices. -/
theorem vtime_bounded_credit (ts : List QueuedTask) (t : QueuedTask)
    (hsane : ∀ u ∈ ts ++ [t], SaneRecord u) :
    ∃ minVruntime r, run vruntimeStep 0 ts = some minVruntime ∧
      updatedEnqueueTask minVruntime t = some r ∧
      r.2.2.toNat = maxVtime (ts ++ [t]) ∧
      (t.vtime ≤ r.1.vtime ∧ saturatingSub r.2.2 sliceNsDefault ≤ r.1.vtime ∧
        r.2.2.toNat ≤ r.1.vtime.toNat + sliceNsDefault.toNat) ∧
      (r.1.vtime ≤ r.2.1 ∧ r.2.1.toNat ≤ r.1.vtime.toNat + 100 * sliceNsDefault.toNat ∧
        r.2.1 - r.1.vtime = min t.sumExecRuntime (100 * sliceNsDefault)) := by
  obtain ⟨minVruntime, hrun, hmax, hlt⟩ :=
    run_vruntimeStep ts fun u hu => hsane u (List.mem_append_left _ hu)
  have ht := hsane t (by simp)
  obtain ⟨vtime, deadline, lead, hcall, hv, hd, hlead⟩ :=
    updatedEnqueueTask_spec (fun _ => ht.weight_ne) (ht.fits hlt)
  -- where the task is placed, against its own vtime and the most advanced task
  have hown : t.vtime.toNat ≤ placed minVruntime t := by
    rw [placed]
    split_ifs with hnew
    · rw [hnew]
      exact Nat.zero_le _
    · exact le_max_left _ _
  have hslice : leadVtime minVruntime t - 5000000 ≤ placed minVruntime t := by
    rw [placed]
    split_ifs
    · exact Nat.le_add_right _ _
    · exact le_max_right _ _
  have hle : vtime ≤ deadline := by
    rw [UInt64.le_iff_toNat_le]
    omega
  refine ⟨minVruntime, _, hrun, hcall, ?_, ⟨?_, ?_, ?_⟩, hle, ?_, ?_⟩
  · rw [hlead, maxVtime_concat, ← hmax]
    rfl
  · rw [UInt64.le_iff_toNat_le]
    show t.vtime.toNat ≤ vtime.toNat
    omega
  · rw [UInt64.le_iff_toNat_le, saturatingSub_toNat, sliceNsDefault_toNat, hlead, hv]
    exact hslice.trans (Nat.le_add_right _ _)
  · show lead.toNat ≤ vtime.toNat + sliceNsDefault.toNat
    rw [sliceNsDefault_toNat]
    omega
  · have hlatency := latency_le t
    show deadline.toNat ≤ vtime.toNat + 100 * sliceNsDefault.toNat
    rw [sliceNsDefault_toNat]
    omega
  · apply UInt64.toNat_inj.mp
    show (deadline - vtime).toNat = _
    rw [UInt64.toNat_sub_of_le _ _ hle, show 100 * sliceNsDefault = sliceNsDefault * 100 from rfl,
      latency_eq]
    omega

/-- A new task, and one that ran for two milliseconds and has been asleep since. -/
def newRecord : QueuedTask := { (default : QueuedTask) with pid := 7, weight := 100 }

def sleptRecord : QueuedTask :=
  { (default : QueuedTask) with
    pid := 8, weight := 100, startTs := 1000000, stopTs := 3000000, sumExecRuntime := 2000000,
    vtime := 9000000 }

theorem vtime_bounded_credit_two_records :
    (∀ u ∈ [sleptRecord] ++ [newRecord], SaneRecord u) ∧
    ∃ minVruntime r, run vruntimeStep 0 [sleptRecord] = some minVruntime ∧
      updatedEnqueueTask minVruntime newRecord = some r ∧ r.2.2.toNat = 9000000 := by
  have hsane : ∀ u ∈ [sleptRecord] ++ [newRecord], SaneRecord u := by
    intro u hu
    rcases List.mem_append.mp hu with hu | hu
    · rw [List.mem_singleton.mp hu]
      exact ⟨by decide, by decide, by decide, by decide, by decide⟩
    · rw [List.mem_singleton.mp hu]
      exact ⟨by decide, by decide, by decide, by decide, by decide⟩
  obtain ⟨minVruntime, r, hrun, hcall, hlead, -, -⟩ :=
    vtime_bounded_credit [sleptRecord] newRecord hsane
  exact ⟨hsane, minVruntime, r, hrun, hcall, hlead⟩

/-! ### The weight -/

/-- The task that `DrainQueuedTask` inserts for a record. -/
def scheduled (minVruntime : UInt64) (t : QueuedTask) : Option Task :=
  (updatedEnqueueTask minVruntime t).map fun r => ⟨r.1, r.2.1, 0⟩

/-- No operation of `updatedEnqueueTask` wraps. -/
structure NoWrap (minVruntime : UInt64) (t : QueuedTask) : Prop where
  interval : t.startTs ≤ t.stopTs
  product : (t.stopTs.toNat - t.startTs.toNat) * t.weight.toNat < 2 ^ 64
  sum : placed minVruntime t + charge t + latency t < 2 ^ 64

/-- The record with weight `w₂` gets a vtime and a deadline no larger than with
weight `w₁`; of the two tasks in one pool, the lighter is taken first only where
their keys are the same. -/
def NeverHurts (minVruntime : UInt64) (t : QueuedTask) (w₁ w₂ : UInt64) : Prop :=
  ∃ light heavy, scheduled minVruntime { t with weight := w₁ } = some light ∧
    scheduled minVruntime { t with weight := w₂ } = some heavy ∧
    heavy.queuedTask.vtime ≤ light.queuedTask.vtime ∧ heavy.deadline ≤ light.deadline ∧
    ∀ p held, PoolInv p held → light ∈ held → heavy ∈ held → p.slots p.head = light →
      taskKey heavy = taskKey light

/-- What the heavier task is charged more for its last interval is covered by
what a new task is credited less: nothing, unless the task is new. -/
def ChargeCovered (t : QueuedTask) (w₁ w₂ : UInt64) : Prop :=
  (t.stopTs.toNat - t.startTs.toNat) * w₂.toNat / 100 ≤
    (t.stopTs.toNat - t.startTs.toNat) * w₁.toNat / 100 +
      if t.vtime = 0 then 500000000 / w₁.toNat - 500000000 / w₂.toNat else 0

/-- Where nothing wraps, the charge is the weighted length of the interval. -/
theorem NoWrap.charge_eq {minVruntime : UInt64} {t : QueuedTask} (h : NoWrap minVruntime t) :
    charge t = (t.stopTs.toNat - t.startTs.toNat) * t.weight.toNat / 100 := by
  rw [charge, UInt64.toNat_sub_of_le _ _ h.interval, Nat.mod_eq_of_lt h.product]

theorem NoWrap.scheduled {minVruntime : UInt64} {t : QueuedTask} (h : NoWrap minVruntime t)
    (hweight : t.weight ≠ 0) :
    ∃ task, scheduled minVruntime t = some task ∧ task.timestamp = 0 ∧
      task.queuedTask.pid = t.pid ∧
      task.queuedTask.vtime.toNat = placed minVruntime t + charge t ∧
      task.deadline.toNat = placed minVruntime t + charge t + latency t := by
  obtain ⟨vtime, deadline, lead, hcall, hv, hd, -⟩ :=
    updatedEnqueueTask_spec (fun _ => hweight) h.sum
  exact ⟨⟨{ t with vtime := vtime }, deadline, 0⟩, by rw [ScxGoland.scheduled, hcall]; rfl, rfl,
    rfl, hv, hd⟩

/-- Of two tasks in the pool, the one with the larger key is not taken first. -/
theorem taskKey_eq_of_taken {p : Pool} {held : List Task} {light heavy : Task}
    (h : PoolInv p held) (hheavy : heavy ∈ held) (hhead : p.slots p.head = light)
    (hle : taskKey heavy ≤ taskKey light) : taskKey heavy = taskKey light := by
  rcases getTaskFromPool_spec h with ⟨hnil, -⟩ | ⟨-, hleast, -, -⟩
  · rw [hnil] at hheavy
    exact absurd hheavy (by simp)
  · have hge := hleast heavy hheavy
    rw [hhead] at hge
    exact le_antisymm hle hge

/-- **A larger weight helps exactly where the charge is covered.**  For every
`minVruntime`, every record and every two positive weights. -/
theorem heavier_never_hurts_iff (minVruntime : UInt64) (t : QueuedTask) (w₁ w₂ : UInt64)
    (hpos : 1 ≤ w₁) (hle : w₁ ≤ w₂)
    (hfit₁ : NoWrap minVruntime { t with weight := w₁ })
    (hfit₂ : NoWrap minVruntime { t with weight := w₂ }) :
    NeverHurts minVruntime t w₁ w₂ ↔ ChargeCovered t w₁ w₂ := by
  have hne₁ : w₁ ≠ 0 := by
    rintro rfl
    exact absurd hpos (by decide)
  have hne₂ : w₂ ≠ 0 := by
    rintro rfl
    exact absurd (UInt64.le_trans hpos hle) (by decide)
  obtain ⟨light, hlight, hstamp₁, hpid₁, hv₁, hd₁⟩ := hfit₁.scheduled hne₁
  obtain ⟨heavy, hheavy, hstamp₂, hpid₂, hv₂, hd₂⟩ := hfit₂.scheduled hne₂
  rw [hfit₁.charge_eq] at hv₁ hd₁
  rw [hfit₂.charge_eq] at hv₂ hd₂
  -- the two vtimes differ by the two weighted terms
  have hiff : heavy.queuedTask.vtime.toNat ≤ light.queuedTask.vtime.toNat ↔
      ChargeCovered t w₁ w₂ := by
    have hcredit : 500000000 / w₂.toNat ≤ 500000000 / w₁.toNat :=
      Nat.div_le_div_left (UInt64.le_iff_toNat_le.mp hle) (UInt64.le_iff_toNat_le.mp hpos)
    rw [hv₁, hv₂, ChargeCovered, placed, placed]
    dsimp only [leadVtime]
    split_ifs
    · omega
    · omega
  have hdeadline : heavy.queuedTask.vtime.toNat ≤ light.queuedTask.vtime.toNat →
      heavy.deadline.toNat ≤ light.deadline.toNat := by
    intro h
    have hlatency : latency { t with weight := w₁ } = latency { t with weight := w₂ } := rfl
    omega
  constructor
  · rintro ⟨light', heavy', hl, hh, hvtime, -⟩
    rw [hlight, Option.some_inj] at hl
    rw [hheavy, Option.some_inj] at hh
    subst hl hh
    exact hiff.mp (UInt64.le_iff_toNat_le.mp hvtime)
  · intro hcovered
    have hvtime := hiff.mpr hcovered
    have hdead := hdeadline hvtime
    refine ⟨light, heavy, hlight, hheavy, UInt64.le_iff_toNat_le.mpr hvtime,
      UInt64.le_iff_toNat_le.mpr hdead, ?_⟩
    intro p held hinv _ hmem hhead
    refine taskKey_eq_of_taken hinv hmem hhead ?_
    rw [taskKey, taskKey, hstamp₁, hstamp₂, hpid₁, hpid₂, Prod.Lex.toLex_le_toLex]
    rcases Nat.lt_or_eq_of_le hdead with hlt | heq
    · exact Or.inl hlt
    · exact Or.inr ⟨heq, le_refl _⟩

/-- A task that ran for two milliseconds is charged two with weight 100 and four
with weight 200. -/
theorem heavier_task_hurt :
    (NoWrap 0 { sleptRecord with weight := 100 } ∧ NoWrap 0 { sleptRecord with weight := 200 }) ∧
    ¬ NeverHurts 0 sleptRecord 100 200 := by
  refine ⟨⟨⟨by decide, by decide, by decide⟩, ⟨by decide, by decide, by decide⟩⟩, ?_⟩
  rintro ⟨light, heavy, hlight, hheavy, hvtime, -⟩
  have hl : (scheduled 0 { sleptRecord with weight := 100 }).map (fun t => t.queuedTask.vtime) =
      some 11000000 := by decide
  have hh : (scheduled 0 { sleptRecord with weight := 200 }).map (fun t => t.queuedTask.vtime) =
      some 13000000 := by decide
  rw [hlight, Option.map_some, Option.some_inj] at hl
  rw [hheavy, Option.map_some, Option.some_inj] at hh
  rw [hl, hh] at hvtime
  exact absurd hvtime (by decide)

theorem heavier_never_hurts_iff_new :
    ChargeCovered newRecord 100 200 ∧ NeverHurts 0 newRecord 100 200 := by
  have hcovered : ChargeCovered newRecord 100 200 := by
    rw [ChargeCovered]
    decide
  exact ⟨hcovered, (heavier_never_hurts_iff 0 newRecord 100 200 (by decide) (by decide)
    ⟨by decide, by decide, by decide⟩ ⟨by decide, by decide, by decide⟩).mpr hcovered⟩

end ScxGoland
