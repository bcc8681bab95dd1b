/-
Execution intervals and the virtual time that is charged for them.

`updatedEnqueueTask` charges the interval that a record reports to the vtime
that the record carries, `dispatch_task` stores the result as the vtime of the
task, and the next record carries it again.  `ChargeState` follows the kernel
in its order, the records on their way to user space, and the charged tasks on
their way back; records are charged, and tasks dispatched or dropped, in any
order.  A `Ledger` says what a vtime is made of.  The charges are counted over the
whole run: `goland_enable` starts a vtime anew, but forgets no charge.

* `updatedEnqueueTask_eq` — a record is placed on the time line and then charged
  the weighted length of its interval;
* `charged_once_of_reportsNew` — in every run in which no record is submitted for an
  interval that has been charged, or that another record on its way reports, no
  interval is charged twice, and the vtime of every task is what its placement
  granted plus the weighted lengths of charged intervals;
* `interval_charged_twice` — without that, an interval may be charged again.
-/
import Mathlib.Data.UInt
import ScxGoland.Runtime
import ScxGoland.SchedLoop

namespace ScxGoland

variable {m : Machine}

/-! ### Ledgers -/

/-- An interval, charged to a task of this weight. -/
structure Charge where
  interval : Interval
  weight : UInt64
deriving DecidableEq

/-- The weighted length of the interval. -/
def Charge.amount (c : Charge) : UInt64 := (c.interval.stop - c.interval.start) * c.weight / 100

/-- What a vtime is made of: what it was granted by its placement on the time
line, and the charges, newest first. -/
structure Ledger where
  credit : UInt64
  charges : List Charge

namespace Ledger

def value (l : Ledger) : UInt64 := l.credit + (l.charges.map Charge.amount).sum

/-- The intervals that were charged. -/
def ids (l : Ledger) : List ℕ := l.charges.map fun c => c.interval.id

/-- A vtime that no record has set. -/
def granted (vtime : UInt64) : Ledger := ⟨vtime, []⟩

/-- A task is placed at `v`, and then charged for an interval, if it has completed
one. -/
def charge (l : Ledger) (v : UInt64) (t : QueuedTask) (interval : Option Interval) : Ledger where
  credit := l.credit + (v - t.vtime)
  charges := (interval.map fun i => ⟨i, t.weight⟩).toList ++ l.charges

theorem value_granted (vtime : UInt64) : (granted vtime).value = vtime := UInt64.add_zero vtime

theorem ids_charge (l : Ledger) (v : UInt64) (t : QueuedTask) (interval : Option Interval) :
    (l.charge v t interval).ids = (interval.map Interval.id).toList ++ l.ids := by
  rcases interval with _ | i
  · rfl
  · rfl

end Ledger

/-- The vtime at which `updatedEnqueueTask` places a task, before the charge. -/
def placement (minVruntime : UInt64) (t : QueuedTask) : Option UInt64 :=
  let minVruntimeLocal :=
    saturatingSub (if minVruntime < t.vtime then t.vtime else minVruntime) sliceNsDefault
  if t.vtime = 0 then
    if t.weight = 0 then none else some (minVruntimeLocal + sliceNsDefault * 100 / t.weight)
  else if t.vtime < minVruntimeLocal then some minVruntimeLocal
  else some t.vtime

/-- Each call of `updatedEnqueueTask` charges one interval, the one of its record. -/
theorem updatedEnqueueTask_eq {minVruntime : UInt64} {t : QueuedTask}
    {u : QueuedTask × UInt64 × UInt64} (h : updatedEnqueueTask minVruntime t = some u) :
    ∃ v, placement minVruntime t = some v ∧
      u.1 = { t with vtime := v + (t.stopTs - t.startTs) * t.weight / 100 } := by
  obtain ⟨v, hv, rfl⟩ := Option.map_eq_some_iff.mp h
  exact ⟨v, hv, rfl⟩

/-! ### The kernel, the records and the charged tasks -/

/-- A record on its way to user space, and then the task that is made of it. -/
structure Report where
  task : QueuedTask
  -- the last interval that the task had completed
  interval : Option Interval
  -- of the vtime that the record carries
  ledger : Ledger

def Report.id (r : Report) : Option ℕ := r.interval.map Interval.id

structure ChargeState (m : Machine) where
  kernel : Ordered m
  minVruntime : UInt64
  -- of `p->scx.dsq_vtime`
  ledger : Int32 → Ledger
  queued : List Report
  -- those that have been charged and not yet dispatched
  pooled : List Report
  -- the intervals of the whole run whose charge has been stored, newest first
  charged : List ℕ

inductive ChargeLabel (m : Machine) where
  | sys (l : Label m)
  -- `updatedEnqueueTask` for the `n`-th record on its way
  | charge (n : ℕ)
  -- `dispatch_task` for the `n`-th charged task
  | handle (n : ℕ) (env : Env m) (race : Option (CpuMask m)) (nrQueued nrScheduled : UInt64)
      (ret : Option UInt32)
  -- `DispatchTask` fails for the `n`-th charged task
  | drop (n : ℕ)

namespace ChargeState

/-- The intervals reported by records that are on their way, charged or not. -/
def inFlight (s : ChargeState m) : List ℕ := (s.queued ++ s.pooled).filterMap Report.id

/-- The records that the step from `s` to `k` submits. -/
def reports (s : ChargeState m) (k : Ordered m) : Label m → List Report
  | .enqueue _ _ _ => (newEvents s.kernel.world k.world).filterMap fun
    | .submitted r => some ⟨r.decoded, (s.kernel.history r.pid).head?, s.ledger r.pid⟩
    | _ => none
  | _ => []

/-- The ledgers after a step of the kernel. -/
def relabel (s : ChargeState m) (l : Label m) : Int32 → Ledger :=
  match l.setsVtime with
  | none => s.ledger
  | some (pid, vtime) => Function.update s.ledger pid (.granted vtime)

def init (w : World m) : ChargeState m where
  kernel := .init w
  minVruntime := 0
  ledger pid := .granted ((w.vtime pid).getD 0)
  queued := []
  pooled := []
  charged := []

end ChargeState

def chargeStep (ro : Rodata) (s : ChargeState m) : ChargeLabel m → Option (ChargeState m)
  | .sys l =>
    if l.leavesVtimes s.kernel.world then
      (orderedStep ro s.kernel l).map fun k =>
        { s with kernel := k, ledger := s.relabel l, queued := s.queued ++ s.reports k l }
    else none
  | .charge n =>
    s.queued[n]?.bind fun r =>
      (placement s.minVruntime r.task).bind fun v =>
        (updatedEnqueueTask s.minVruntime r.task).map fun u =>
          { s with
            minVruntime := u.2.2
            queued := s.queued.eraseIdx n
            pooled := s.pooled ++ [⟨u.1, r.interval, r.ledger.charge v r.task r.interval⟩] }
  | .handle n env race nrQueued nrScheduled ret =>
    s.pooled[n]?.bind fun r =>
      (dispatchRecord nrQueued nrScheduled ret r.task).map fun d =>
        if storesVtime d.ctx s.kernel.world then
          { s with
            kernel := { s.kernel with world := dispatchTask env race d.ctx s.kernel.world }
            ledger := Function.update s.ledger d.pid r.ledger
            pooled := s.pooled.eraseIdx n
            charged := r.id.toList ++ s.charged }
        else
          { s with
            kernel := { s.kernel with world := dispatchTask env race d.ctx s.kernel.world }
            pooled := s.pooled.eraseIdx n }
  | .drop n => s.pooled[n]?.map fun _ => { s with pooled := s.pooled.eraseIdx n }

/-- No interval was charged twice in the whole run; and the vtime of every task is what
its placement granted plus the weighted lengths of intervals that were charged, each
of them once. -/
structure ChargeState.ChargedOnce (s : ChargeState m) : Prop where
  once : s.charged.Nodup
  vtimes : ∀ pid p, s.kernel.world.tasks.find pid = some p → p.dsqVtime = (s.ledger pid).value
  ledgers : ∀ pid, (s.ledger pid).ids.Nodup ∧ (s.ledger pid).ids ⊆ s.charged

/-- If the step submits a record for a task that has completed an interval, this has
not been charged, and no record on its way reports it. -/
def reportsNew (ro : Rodata) (s : ChargeState m) : ChargeLabel m → Bool
  | .sys (.enqueue env pid enqFlags) =>
    ((orderedStep ro s.kernel (.enqueue env pid enqFlags)).all fun k =>
      (s.reports k (.enqueue env pid enqFlags)).isEmpty) ||
    (s.kernel.history pid).head?.all fun i => decide (i.id ∉ s.inFlight ∧ i.id ∉ s.charged)
  | _ => true

/-! ### The accounts balance -/

/-- A record that has not been charged: its interval is new to its vtime. -/
structure ReportSound (charged : List ℕ) (r : Report) : Prop where
  vtime : r.task.vtime = r.ledger.value
  times : (r.task.startTs, r.task.stopTs) = (r.interval.map fun i => (i.start, i.stop)).getD (0, 0)
  nodup : (r.id.toList ++ r.ledger.ids).Nodup
  past : r.ledger.ids ⊆ charged

/-- A task that has been charged. -/
structure TaskSound (charged : List ℕ) (r : Report) : Prop where
  vtime : r.task.vtime = r.ledger.value
  nodup : r.ledger.ids.Nodup
  past : r.ledger.ids ⊆ r.id.toList ++ charged

structure LedgersKept (ro : Rodata) (s : ChargeState m) : Prop where
  times : TimesKept ro s.kernel
  vtimes : ∀ pid v, s.kernel.world.vtime pid = some v → v = (s.ledger pid).value
  ledgers : ∀ pid, (s.ledger pid).ids.Nodup ∧ (s.ledger pid).ids ⊆ s.charged
  -- every interval that was reported is charged, or on its way, or dropped
  once : (s.inFlight ++ s.charged).Nodup
  reports : ∀ r ∈ s.queued, ReportSound s.charged r
  pooled : ∀ r ∈ s.pooled, TaskSound s.charged r

theorem ReportSound.mono {charged charged' : List ℕ} {r : Report} (h : ReportSound charged r)
    (hsub : charged ⊆ charged') : ReportSound charged' r :=
  ⟨h.vtime, h.times, h.nodup, List.Subset.trans h.past hsub⟩

theorem TaskSound.mono {charged charged' : List ℕ} {r : Report} (h : TaskSound charged r)
    (hsub : charged ⊆ charged') : TaskSound charged' r :=
  ⟨h.vtime, h.nodup, List.Subset.trans h.past (List.append_subset.mpr
    ⟨List.subset_append_left _ _, List.Subset.trans hsub (List.subset_append_right _ _)⟩)⟩

theorem LedgersKept.chargedOnce {ro : Rodata} {s : ChargeState m} (h : LedgersKept ro s) :
    s.ChargedOnce where
  once := (List.nodup_append.mp h.once).2.1
  vtimes pid p hp := h.vtimes pid p.dsqVtime (by rw [World.vtime, hp]; rfl)
  ledgers := h.ledgers

theorem ledgersKept_init (ro : Rodata) {w₀ : World m} (hstart : Started w₀) :
    LedgersKept ro (ChargeState.init w₀) := by
  refine ⟨timesKept_init ro hstart, ?_, fun pid => ⟨List.nodup_nil, List.nil_subset _⟩,
    List.nodup_nil, ?_, ?_⟩
  · intro pid v hv
    change w₀.vtime pid = some v at hv
    show v = (Ledger.granted ((w₀.vtime pid).getD 0)).value
    rw [Ledger.value_granted, hv]
    rfl
  · exact fun r hr => absurd hr (by simp [ChargeState.init])
  · exact fun r hr => absurd hr (by simp [ChargeState.init])

/-- A step of the kernel changes the ledger of a task whose vtime it sets. -/
theorem relabel_cases (s : ChargeState m) (l : Label m) (pid : Int32) :
    (∃ v, l.setsVtime = some (pid, v) ∧ s.relabel l pid = .granted v) ∨
      ((∀ v, l.setsVtime ≠ some (pid, v)) ∧ s.relabel l pid = s.ledger pid) := by
  rw [ChargeState.relabel]
  rcases l.setsVtime with _ | ⟨q, v⟩
  · exact Or.inr ⟨by simp, rfl⟩
  · by_cases hq : pid = q
    · subst hq
      exact Or.inl ⟨v, rfl, Function.update_self _ _ _⟩
    · refine Or.inr ⟨fun v' h => hq ?_, Function.update_of_ne hq _ _⟩
      exact (congrArg Prod.fst (Option.some_inj.mp h)).symm

/-- An enqueue submits one record at most. -/
theorem reports_length_le {ro : Rodata} {s : ChargeState m} {l : Label m} {k : Ordered m}
    (hk : orderedStep ro s.kernel l = some k) : (s.reports k l).length ≤ 1 := by
  cases l with
  | enqueue env pid enqFlags =>
    obtain ⟨-, w, hw, rfl⟩ := orderedStep_eq_some.mp hk
    obtain ⟨p, hp, rfl⟩ := Option.map_eq_some_iff.mp hw
    obtain rfl : p.pid = pid := s.kernel.world.tasks.find_pid hp
    obtain ⟨ins, sub, hsub, heff⟩ :=
      golandEnqueue_effect ro env p enqFlags (s.kernel.world.emit (.enqueueCalled p.pid))
    obtain ⟨es, hes, hall, -, hcount⟩ := heff.log
    rw [ChargeState.reports, newEvents_enqueue_eq hes, List.length_filterMap_eq_countP]
    refine le_trans ?_ (hcount.trans_le hsub)
    rw [List.cons_append, List.countP_cons_of_neg (by simp), List.countP_append,
      List.countP_singleton, if_neg (by simp), Nat.add_zero]
    refine List.countP_mono_left fun e he hsome => ?_
    cases e with
    | submitted r => simpa [Event.quiet, Event.inserts] using hall _ he
    | _ => exact absurd hsome (by simp)
  | _ => exact Nat.zero_le 1

section Steps

variable {ro : Rodata} {s s' : ChargeState m} (hs : LedgersKept ro s)
include hs

/-- The record that a step submits: its interval is new to the run. -/
theorem report_of_step {l : Label m} {k : Ordered m} (hk : orderedStep ro s.kernel l = some k)
    (hnew : reportsNew ro s (.sys l) = true) {r : Report} (hr : r ∈ s.reports k l) :
    ReportSound s.charged r ∧ ∀ id ∈ r.id, id ∉ s.inFlight ++ s.charged := by
  cases l with
  | enqueue env pid enqFlags =>
    have hr' := hr
    rw [ChargeState.reports] at hr
    obtain ⟨e, he, hre⟩ := List.mem_filterMap.mp hr
    cases e with
    | submitted r₀ =>
      obtain rfl := Option.some_inj.mp hre
      obtain ⟨rfl, hvtime, htimes, -⟩ := hs.times.report hk he
      rw [reportsNew, hk, Option.all_some, List.isEmpty_eq_false_iff.mpr (List.ne_nil_of_mem hr'),
        Bool.false_or] at hnew
      obtain ⟨hnodup, hpast⟩ := hs.ledgers r₀.pid
      have hfresh : ∀ id ∈ (s.kernel.history r₀.pid).head?.map Interval.id,
          id ∉ s.inFlight ++ s.charged := by
        intro id hid
        obtain ⟨i, hi, rfl⟩ := Option.map_eq_some_iff.mp hid
        rw [hi, Option.all_some, decide_eq_true_eq] at hnew
        rw [List.mem_append]
        exact not_or.mpr hnew
      refine ⟨⟨hs.vtimes _ _ hvtime, htimes, ?_, hpast⟩, hfresh⟩
      rcases hlast : (s.kernel.history r₀.pid).head? with _ | i
      · exact hnodup
      · rw [hlast] at hfresh
        refine List.nodup_cons.mpr ⟨fun hmem => hfresh i.id rfl ?_, hnodup⟩
        exact List.mem_append_right _ (hpast hmem)
    | _ => exact absurd hre (by simp)
  | _ => exact absurd hr (by simp [ChargeState.reports])

/-- The intervals that are on their way or charged stay different when a step submits a
record. -/
theorem once_sys {l : Label m} {k : Ordered m} (hk : orderedStep ro s.kernel l = some k)
    (hnew : reportsNew ro s (.sys l) = true) :
    (((s.queued ++ s.reports k l) ++ s.pooled).filterMap Report.id ++ s.charged).Nodup := by
  have honce := hs.once
  rw [ChargeState.inFlight] at honce
  rcases hreports : s.reports k l with _ | ⟨r, rest⟩
  · rwa [List.append_nil]
  · obtain rfl : rest = [] := by
      have hle := reports_length_le hk
      rw [hreports, List.length_cons] at hle
      exact List.length_eq_zero_iff.mp (by omega)
    have hfresh := (report_of_step hs hk hnew (r := r) (by simp [hreports])).2
    have hperm : ((s.queued ++ [r]) ++ s.pooled).Perm (r :: (s.queued ++ s.pooled)) := by
      rw [List.append_assoc]
      exact List.perm_middle
    rw [((hperm.filterMap Report.id).append_right _).nodup_iff]
    rcases hid : r.id with _ | id
    · rwa [List.filterMap_cons_none hid]
    · rw [List.filterMap_cons_some hid]
      exact List.nodup_cons.mpr ⟨hfresh id hid, honce⟩

theorem ledgersKept_sys {l : Label m} (hnew : reportsNew ro s (.sys l) = true)
    (h : chargeStep ro s (.sys l) = some s') : LedgersKept ro s' := by
  rw [chargeStep] at h
  split_ifs at h with hl
  obtain ⟨k, hk, rfl⟩ := Option.map_eq_some_iff.mp h
  obtain ⟨-, w, hw, hkw⟩ := orderedStep_eq_some.mp hk
  have hworld : k.world = w := by rw [← hkw]
  refine ⟨timesKept_step hs.times hk, fun pid v hv => ?_, fun pid => ?_, once_sys hs hk hnew,
    fun r hr => ?_, hs.pooled⟩
  · change k.world.vtime pid = some v at hv
    show v = (s.relabel l pid).value
    rw [hworld] at hv
    obtain ⟨p, hp, rfl⟩ := Option.map_eq_some_iff.mp hv
    rcases step_vtime hl hw hp with ⟨v, hset, hpv⟩ | ⟨hset, hold⟩
    · rcases relabel_cases s l pid with ⟨v', hset', hrel⟩ | ⟨hset', -⟩
      · rw [hset, Option.some_inj, Prod.mk.injEq] at hset'
        rw [hrel, Ledger.value_granted, hpv, hset'.2]
      · exact absurd hset (hset' v)
    · rcases relabel_cases s l pid with ⟨v', hset', -⟩ | ⟨-, hrel⟩
      · exact absurd hset' (hset v')
      · rw [hrel]
        exact hs.vtimes pid _ hold
  · show (s.relabel l pid).ids.Nodup ∧ (s.relabel l pid).ids ⊆ s.charged
    rcases relabel_cases s l pid with ⟨v, -, hrel⟩ | ⟨-, hrel⟩
    · rw [hrel]
      exact ⟨List.nodup_nil, List.nil_subset _⟩
    · rw [hrel]
      exact hs.ledgers pid
  · rcases List.mem_append.mp hr with hold | hrep
    · exact hs.reports r hold
    · exact (report_of_step hs hk hnew hrep).1

omit hs in
/-- Charging a record keeps its account balanced. -/
theorem ReportSound.charge {charged : List ℕ} {r : Report} (hr : ReportSound charged r)
    (v : UInt64) : v + (r.task.stopTs - r.task.startTs) * r.task.weight / 100 =
      (r.ledger.charge v r.task r.interval).value := by
  have hvtime := hr.vtime
  have htimes := hr.times
  rw [Ledger.value] at hvtime ⊢
  rw [Ledger.charge]
  rcases hi : r.interval with _ | i
  · -- nothing has run: the times are zero, and nothing is charged
    rw [hi] at htimes
    obtain ⟨hstart, hstop⟩ := Prod.mk.inj htimes
    have hzero : (r.task.stopTs - r.task.startTs) * r.task.weight / 100 = 0 := by
      rw [hstart, hstop, UInt64.sub_self, UInt64.zero_mul]
      rfl
    rw [hzero]
    simp only [Option.map_none, Option.toList_none, List.nil_append]
    rw [hvtime]
    grind
  · rw [hi] at htimes
    obtain ⟨hstart, hstop⟩ := Prod.mk.inj htimes
    simp only [Option.map_some, Option.toList_some, List.singleton_append, List.map_cons,
      List.sum_cons, Charge.amount]
    rw [hstart, hstop, hvtime]
    grind

omit hs in
theorem perm_of_getElem? {l : List Report} {n : ℕ} {r : Report} (h : l[n]? = some r) :
    l.Perm (r :: l.eraseIdx n) := by
  obtain ⟨hn, rfl⟩ := List.getElem?_eq_some_iff.mp h
  exact (List.getElem_cons_eraseIdx_perm hn).symm

theorem ledgersKept_charge {n : ℕ} (h : chargeStep ro s (.charge n) = some s') :
    LedgersKept ro s' := by
  obtain ⟨r, hr, h⟩ := Option.bind_eq_some_iff.mp h
  obtain ⟨v, hv, h⟩ := Option.bind_eq_some_iff.mp h
  obtain ⟨u, hu, rfl⟩ := Option.map_eq_some_iff.mp h
  have hsound := hs.reports r (List.mem_of_getElem? hr)
  obtain ⟨v', hv', hu'⟩ := updatedEnqueueTask_eq hu
  obtain rfl : v = v' := Option.some_inj.mp (hv.symm.trans hv')
  set t : Report := ⟨u.1, r.interval, r.ledger.charge v r.task r.interval⟩ with ht
  refine ⟨hs.times, hs.vtimes, hs.ledgers, ?_,
    fun r hr => hs.reports r (List.mem_of_mem_eraseIdx hr), fun e he => ?_⟩
  · -- the record leaves the queue and its task enters the pool
    have hmove : ((s.queued.eraseIdx n ++ (s.pooled ++ [t])).filterMap Report.id).Perm
        s.inFlight := by
      have hleave := ((perm_of_getElem? hr).append_right s.pooled).filterMap Report.id
      have henter := (@List.perm_append_comm _ (s.queued.eraseIdx n ++ s.pooled) [t]).filterMap
        Report.id
      rw [← List.append_assoc]
      refine henter.trans (List.Perm.trans (List.Perm.of_eq ?_) hleave.symm)
      rw [List.singleton_append, List.cons_append, List.filterMap_cons, List.filterMap_cons]
      rfl
    exact (hmove.append_right s.charged).nodup_iff.mpr hs.once
  · rcases List.mem_append.mp he with hold | hnew
    · exact hs.pooled e hold
    · obtain rfl := List.mem_singleton.mp hnew
      refine ⟨?_, ?_, ?_⟩
      · rw [ht, hu']
        exact hsound.charge v
      · rw [ht, Ledger.ids_charge]
        exact hsound.nodup
      · rw [ht, Ledger.ids_charge]
        exact List.append_subset.mpr ⟨List.subset_append_left _ _,
          List.Subset.trans hsound.past (List.subset_append_right _ _)⟩

omit hs in
/-- The kernel after a record: its times stay, and a vtime changes where it is stored. -/
theorem vtime_of_stores {env : Env m} {race : Option (CpuMask m)} {task : DispatchedTaskCtx}
    {w : World m} {ledger : Int32 → Ledger}
    (hw : ∀ pid v, w.vtime pid = some v → v = (ledger pid).value)
    {l : Ledger} (hl : task.vtime = l.value) {pid : Int32} {v : UInt64}
    (hv : (dispatchTask env race task w).vtime pid = some v) :
    v = ((if storesVtime task w then Function.update ledger task.pid l else ledger) pid).value := by
  rw [dispatchTask_vtime] at hv
  by_cases hstore : storesVtime task w = true
  · rw [if_pos hstore]
    by_cases hp : pid = task.pid
    · rw [if_pos ⟨hp, hstore⟩, Option.some_inj] at hv
      rw [hp, Function.update_self, ← hv, ← hl]
    · rw [if_neg fun hc => hp hc.1] at hv
      rw [Function.update_of_ne hp]
      exact hw pid v hv
  · rw [if_neg fun hc => hstore hc.2] at hv
    rw [if_neg hstore]
    exact hw pid v hv

theorem ledgersKept_handle {n : ℕ} {env : Env m} {race : Option (CpuMask m)}
    {nrQueued nrScheduled : UInt64} {ret : Option UInt32}
    (h : chargeStep ro s (.handle n env race nrQueued nrScheduled ret) = some s') :
    LedgersKept ro s' := by
  obtain ⟨r, hr, h⟩ := Option.bind_eq_some_iff.mp h
  obtain ⟨d, hd, rfl⟩ := Option.map_eq_some_iff.mp h
  have hdv : d.vtime = r.task.vtime := by
    rw [dispatchRecord] at hd
    dsimp only at hd
    split_ifs at hd
    obtain rfl := Option.some_inj.mp hd
    rfl
  obtain ⟨hvalue, hnodup, hpast⟩ := hs.pooled r (List.mem_of_getElem? hr)
  have hsteady := (dispatching_dispatchTask env race d.ctx s.kernel.world).untouched.steady
  have htimes := hs.times.of_times hsteady.times
  have hvtimes : ∀ pid v, (dispatchTask env race d.ctx s.kernel.world).vtime pid = some v →
      v = ((if storesVtime d.ctx s.kernel.world then Function.update s.ledger d.pid r.ledger
        else s.ledger) pid).value :=
    fun pid v hv => vtime_of_stores hs.vtimes
      (show d.ctx.vtime = r.ledger.value from hdv.trans hvalue) hv
  -- the interval of the record leaves those on their way
  have hleave : s.inFlight.Perm
      (r.id.toList ++ (s.queued ++ s.pooled.eraseIdx n).filterMap Report.id) := by
    have hperm : (s.queued ++ s.pooled).Perm (r :: (s.queued ++ s.pooled.eraseIdx n)) :=
      ((perm_of_getElem? hr).append_left s.queued).trans List.perm_middle
    refine (hperm.filterMap Report.id).trans (List.Perm.of_eq ?_)
    rw [List.filterMap_cons]
    cases r.id with
    | none => rfl
    | some id => rfl
  have honce := (hleave.append_right s.charged).nodup_iff.mp hs.once
  by_cases hstore : storesVtime d.ctx s.kernel.world = true
  · simp only [if_pos hstore] at hvtimes ⊢
    have hgrow : s.charged ⊆ r.id.toList ++ s.charged := List.subset_append_right _ _
    refine ⟨htimes, hvtimes, fun pid => ?_, ?_, fun e he => (hs.reports e he).mono hgrow,
      fun e he => (hs.pooled e (List.mem_of_mem_eraseIdx he)).mono hgrow⟩
    · by_cases hp : pid = d.pid
      · dsimp only
        rw [hp, Function.update_self]
        exact ⟨hnodup, hpast⟩
      · dsimp only
        rw [Function.update_of_ne hp]
        exact ⟨(hs.ledgers pid).1, List.Subset.trans (hs.ledgers pid).2 hgrow⟩
    · refine List.Perm.nodup ?_ honce
      rw [ChargeState.inFlight, ← List.append_assoc]
      exact List.perm_append_comm.append_right _
  · simp only [if_neg hstore] at hvtimes ⊢
    refine ⟨htimes, hvtimes, hs.ledgers, ?_, hs.reports,
      fun e he => hs.pooled e (List.mem_of_mem_eraseIdx he)⟩
    rw [List.append_assoc] at honce
    exact (List.nodup_append.mp honce).2.1

/-- A dropped task takes its charge with it. -/
theorem ledgersKept_drop {n : ℕ} (h : chargeStep ro s (.drop n) = some s') :
    LedgersKept ro s' := by
  obtain ⟨r, -, rfl⟩ := Option.map_eq_some_iff.mp h
  refine ⟨hs.times, hs.vtimes, hs.ledgers, ?_, hs.reports,
    fun e he => hs.pooled e (List.mem_of_mem_eraseIdx he)⟩
  have hsub : ((s.queued ++ s.pooled.eraseIdx n).filterMap Report.id).Sublist s.inFlight :=
    ((List.Sublist.refl _).append (List.eraseIdx_sublist _ _)).filterMap _
  exact (hsub.append (List.Sublist.refl _)).nodup hs.once

end Steps

/-- **No interval is charged twice** in every run in which no record is submitted for an
interval that has been charged, or that another record on its way reports: with any
number of dequeues, re-enqueues and changes of class, records charged, dispatched and
dropped in any order, and pids used again. -/
theorem charged_once_of_reportsNew (ro : Rodata) (w₀ : World m) (hstart : Started w₀)
    (ls : List (ChargeLabel m))
    (hnew : ∀ s l, Runs.Takes (chargeStep ro) (.init w₀) ls s l → reportsNew ro s l = true) :
    ∀ s, Runs.Visits (chargeStep ro) (.init w₀) ls s → s.ChargedOnce := by
  intro s hs
  refine (Runs.invariant_of_guarded (I := LedgersKept ro) (ledgersKept_init ro hstart)
    (fun s l s' hI hC h => ?_) hnew s hs).chargedOnce
  cases l with
  | sys l => exact ledgersKept_sys hI hC h
  | charge n => exact ledgersKept_charge hI h
  | handle n env race nrQueued nrScheduled ret => exact ledgersKept_handle hI h
  | drop n => exact ledgersKept_drop hI h

/-- Task 7 runs from 100 to 250 and is enqueued; user space charges the interval and
dispatches the task to CPU 0. -/
def charges7 : List (ChargeLabel twoCpus) :=
  [.sys (.initTask ⟨true, true, true⟩ 7), .sys (.runnable 7), .sys (.running (cpu0At 100) 7),
    .sys (.stopping (cpu0At 250) 7), .sys (.enqueue (cpu0At 250) 7 0), .charge 0,
    .handle 0 (cpu0At 250) none 0 0 (some 0)]

/-- Before it runs again its affinity changes, and it is enqueued, charged and
dispatched once more. -/
def charges7Again : List (ChargeLabel twoCpus) :=
  charges7 ++ [.sys (.setAffinity 7 {cpu0}), .sys (.enqueue (cpu0At 250) 7 0), .charge 0,
    .handle 0 (cpu0At 250) none 0 0 (some 0)]

/-- It runs from 300 to 330 and changes its class before it is enqueued, charged and
dispatched again. -/
def runs7Again : List (ChargeLabel twoCpus) :=
  charges7 ++ [.sys (.running (cpu0At 300) 7), .sys (.stopping (cpu0At 330) 7), .sys (.enable 7),
    .sys (.enqueue (cpu0At 330) 7 0), .charge 0, .handle 0 (cpu0At 330) none 0 0 (some 0)]

def start7 : ChargeState twoCpus :=
  .init (startedWorld ((TaskTable.empty twoCpus).set (plainTask 7)))

/-- The vtime of task 7 after a run, and the intervals charged in the run. -/
def charged7 (ls : List (ChargeLabel twoCpus)) : Option (Option UInt64 × List ℕ) :=
  (Runs.run (chargeStep plainRodata) start7 ls).map fun s => (s.kernel.world.vtime 7, s.charged)

theorem charged7_eq_some {ls : List (ChargeLabel twoCpus)} {v : UInt64} {ids : List ℕ}
    (h : charged7 ls = some (some v, ids)) :
    ∃ s, Runs.run (chargeStep plainRodata) start7 ls = some s ∧
      s.kernel.world.vtime 7 = some v ∧ s.charged = ids := by
  obtain ⟨s, hs, h⟩ := Option.map_eq_some_iff.mp h
  exact ⟨s, hs, Prod.mk.inj h⟩

/-- The interval from 100 to 250 is charged twice: 150 each time. -/
theorem interval_charged_twice :
    Started start7.kernel.world ∧
      ∃ s, Runs.Visits (chargeStep plainRodata) start7 charges7Again s ∧
        s.kernel.world.vtime 7 = some (5000000 + 150 + 150) ∧ s.charged = [1, 1] ∧
        ¬ s.ChargedOnce := by
  refine ⟨started_startedWorld _, ?_⟩
  have hrun : charged7 charges7Again = some (some (5000000 + 150 + 150), [1, 1]) := by
    decide +kernel
  obtain ⟨s, hs, hv, hcharged⟩ := charged7_eq_some hrun
  refine ⟨s, Runs.visits_of_run hs, hv, hcharged, fun honce => ?_⟩
  have hnodup := honce.once
  rw [hcharged] at hnodup
  exact absurd hnodup (by decide)

/-- Two intervals, each charged once. -/
theorem charged_once_of_reportsNew_two_intervals :
    ∃ s, Runs.Visits (chargeStep plainRodata) start7 runs7Again s ∧ s.charged = [2, 1] ∧
      s.ChargedOnce := by
  have hrun : (charged7 runs7Again).map Prod.snd = some [2, 1] := by decide +kernel
  obtain ⟨⟨v, ids⟩, hcharged7, rfl⟩ := Option.map_eq_some_iff.mp hrun
  have hnew : ∀ s l, Runs.Takes (chargeStep plainRodata) start7 runs7Again s l →
      reportsNew plainRodata s l = true := Runs.guard_of_check (by decide +kernel)
  obtain ⟨s, hs, h⟩ := Option.map_eq_some_iff.mp hcharged7
  exact ⟨s, Runs.visits_of_run hs, (Prod.mk.inj h).2, charged_once_of_reportsNew plainRodata _
    (started_startedWorld _) runs7Again hnew s (Runs.visits_of_run hs)⟩

end ScxGoland
