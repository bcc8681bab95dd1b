/-
The runtime that the kernel side reports to user space.

A record carries the times of the task's last execution interval and the
execution time since it last became runnable.  `goland_running`,
`goland_stopping` and `goland_runnable` keep these fields in the task context;
`TimesKept` compares them with the intervals that the task has completed.

* `runtime_report_exact` — every record that `goland_enqueue` submits reports the
  last completed interval, which does not end before it starts, and the sum of
  the intervals since the last `goland_runnable`.
-/
import ScxGoland.KernelOrder
import ScxGoland.StoredVtime

namespace ScxGoland

variable {m : Machine}

namespace Ordered

/-- Start and end of the last completed interval, or zeros. -/
def lastInterval (s : Ordered m) (pid : Int32) : UInt64 × UInt64 :=
  ((s.history pid).head?.map fun i => (i.start, i.stop)).getD (0, 0)

/-- The execution time since the last `goland_runnable`. -/
def total (s : Ordered m) (pid : Int32) : ℕ := ((s.recent pid).map Interval.length).sum

end Ordered

/-! ### The times of a task -/

/-- A change of the times of one task. -/
theorem times_updTaskCtx (w : World m) (pid : Int32) {f : TaskCtx m → TaskCtx m}
    {g : UInt64 × UInt64 × UInt64 → UInt64 × UInt64 × UInt64}
    (hf : ∀ t, ((f t).startTs, (f t).stopTs, (f t).execRuntime) =
      g (t.startTs, t.stopTs, t.execRuntime)) (q : Int32) :
    (w.updTaskCtx pid f).times q = if q = pid then (w.times q).map g else w.times q := by
  rw [World.times, World.times, World.updTaskCtx]
  dsimp only
  by_cases hq : q = pid
  · subst hq
    rw [if_pos rfl, Function.update_self, Option.map_map, Option.map_map]
    exact congrArg (Option.map · (w.taskCtx q)) (funext hf)
  · rw [if_neg hq, Function.update_of_ne hq]

section Callbacks

variable {ro : Rodata} {p : TaskStruct m} (w : World m)

theorem times_golandRunnable (hus : p.pid.toUInt32 ≠ ro.userschedPid) (q : Int32) :
    (golandRunnable ro p w).times q =
      if q = p.pid then (w.times q).map fun t => (t.1, t.2.1, 0) else w.times q := by
  rw [golandRunnable, isUserschedTask, if_neg (by simpa using hus)]
  exact times_updTaskCtx w p.pid (fun t => rfl) q

theorem times_golandRunning (env : Env m) (hus : p.pid.toUInt32 ≠ ro.userschedPid) (q : Int32) :
    (golandRunning ro env p w).times q =
      if q = p.pid then (w.times q).map fun t => (env.now, t.2.1, t.2.2) else w.times q := by
  rw [golandRunning, isUserschedTask, if_neg (by simpa using hus)]
  exact times_updTaskCtx _ p.pid (g := fun t => (env.now, t.2.1, t.2.2)) (fun t => rfl) q

theorem times_golandStopping (env : Env m) (hus : p.pid.toUInt32 ≠ ro.userschedPid) (q : Int32) :
    (golandStopping ro env p w).times q =
      if q = p.pid then (w.times q).map fun t => (t.1, env.now, t.2.2 + (env.now - t.1))
      else w.times q := by
  rw [golandStopping, isUserschedTask, if_neg (by simpa using hus)]
  exact times_updTaskCtx _ p.pid (g := fun t => (t.1, env.now, t.2.2 + (env.now - t.1)))
    (fun t => rfl) q

/-- For the scheduler's main thread none of the three keeps times. -/
theorem times_usersched (env : Env m) (hus : p.pid.toUInt32 = ro.userschedPid) :
    (golandRunnable ro p w).times = w.times ∧ (golandRunning ro env p w).times = w.times ∧
      (golandStopping ro env p w).times = w.times := by
  rw [golandRunnable, golandRunning, golandStopping, isUserschedTask, if_pos (by simpa using hus),
    if_pos (by simpa using hus), if_pos (by simpa using hus)]
  exact ⟨rfl, rfl, rfl⟩

/-- `goland_init_task` creates zeroed times, and keeps those that are there; if it
returns an error it may also have done nothing. -/
theorem times_golandInitTask (allocs : Allocs) :
    ((golandInitTask allocs p w).1 ≠ 0 ∧ (golandInitTask allocs p w).2 = w) ∨
      ∀ q, (golandInitTask allocs p w).2.times q =
        if q = p.pid then some ((w.times q).getD (0, 0, 0)) else w.times q := by
  have hstore : ∀ t : TaskCtx m,
      (t.startTs, t.stopTs, t.execRuntime) = (w.times p.pid).getD (0, 0, 0) → ∀ q,
      World.times { w with taskCtx := Function.update w.taskCtx p.pid (some t) } q =
        if q = p.pid then some ((w.times q).getD (0, 0, 0)) else w.times q := by
    intro t ht q
    rw [World.times]
    dsimp only
    by_cases hq : q = p.pid
    · subst hq
      rw [if_pos rfl, Function.update_self, Option.map_some, ht]
    · rw [if_neg hq, Function.update_of_ne hq]
      rfl
  rw [golandInitTask]
  split
  · exact Or.inl ⟨show -eNOMEM ≠ 0 by decide, rfl⟩
  · rename_i t ht
    have htimes : (t.startTs, t.stopTs, t.execRuntime) = (w.times p.pid).getD (0, 0, 0) := by
      rw [World.times]
      rcases hctx : w.taskCtx p.pid with _ | t'
      · rw [hctx] at ht
        split_ifs at ht
        · obtain rfl := Option.some_inj.mp ht
          rfl
        · exact absurd ht (by simp)
      · rw [hctx] at ht
        obtain rfl := Option.some_inj.mp ht
        rfl
    refine Or.inr ?_
    dsimp only
    split_ifs
    · exact hstore t htimes
    · exact hstore { t with l2Cpumask := some ∅ } htimes
    · exact hstore { t with l2Cpumask := some ∅, l3Cpumask := some ∅ } htimes

end Callbacks

/-! ### The account of every task -/

/-- The times that a task should have while it is admitted: those of its last
interval, or of the interval it is in. -/
def TimesRight (s : Ordered m) (pid : Int32) : Prop :=
  ∃ start, s.world.times pid = some (start, (s.lastInterval pid).2, UInt64.ofNat (s.total pid)) ∧
    (∀ c r, s.current c = some r → r.pid = pid → start = r.since) ∧
    (s.isRunning pid = false → start = (s.lastInterval pid).1)

/-- A task that is not admitted has not run; the times of one that is are right. -/
structure AccountOf (ro : Rodata) (s : Ordered m) (pid : Int32) : Prop where
  fresh : s.ready pid = false → s.history pid = [] ∧ s.recent pid = [] ∧
    (s.world.times pid).getD (0, 0, 0) = (0, 0, 0) ∧ s.isRunning pid = false
  times : s.ready pid = true → pid.toUInt32 ≠ ro.userschedPid → TimesRight s pid

structure TimesKept (ro : Rodata) (s : Ordered m) : Prop where
  account : ∀ pid, AccountOf ro s pid
  since : ∀ c r, s.current c = some r → r.since ≤ s.clock c
  ordered : ∀ pid, ∀ i ∈ s.history pid, i.start ≤ i.stop

/-- Nothing that concerns the task has changed. -/
structure SameFor (s s' : Ordered m) (pid : Int32) : Prop where
  ready : s'.ready pid = s.ready pid
  history : s'.history pid = s.history pid
  recent : s'.recent pid = s.recent pid
  times : s'.world.times pid = s.world.times pid
  current : ∀ c r, r.pid = pid → (s'.current c = some r ↔ s.current c = some r)

theorem SameFor.isRunning {s s' : Ordered m} {pid : Int32} (h : SameFor s s' pid) :
    s'.isRunning pid = s.isRunning pid := by
  rw [Bool.eq_iff_iff, isRunning_iff, isRunning_iff]
  constructor
  · rintro ⟨c, r, hr, hpid⟩
    exact ⟨c, r, (h.current c r hpid).mp hr, hpid⟩
  · rintro ⟨c, r, hr, hpid⟩
    exact ⟨c, r, (h.current c r hpid).mpr hr, hpid⟩

theorem AccountOf.of_same {ro : Rodata} {s s' : Ordered m} {pid : Int32}
    (hs : AccountOf ro s pid) (h : SameFor s s' pid) : AccountOf ro s' pid := by
  have hlast : s'.lastInterval pid = s.lastInterval pid := by
    rw [Ordered.lastInterval, Ordered.lastInterval, h.history]
  have htotal : s'.total pid = s.total pid := by rw [Ordered.total, Ordered.total, h.recent]
  refine ⟨fun hready => ?_, fun hready hus => ?_⟩
  · rw [h.ready] at hready
    obtain ⟨hhist, hrec, hzero, hidle⟩ := hs.fresh hready
    exact ⟨h.history.trans hhist, h.recent.trans hrec, (by rw [h.times]; exact hzero),
      h.isRunning.trans hidle⟩
  · rw [h.ready] at hready
    obtain ⟨start, ht, hrun, hidle⟩ := hs.times hready hus
    refine ⟨start, ?_, fun c r hr hpid => hrun c r ((h.current c r hpid).mp hr) hpid, fun hi => ?_⟩
    · rw [h.times, hlast, htotal, ht]
    · rw [hlast]
      exact hidle (h.isRunning.symm.trans hi)

section Steps

variable {ro : Rodata} {s : Ordered m} (hs : TimesKept ro s) {p : TaskStruct m}
include hs

/-- A step that changes no times and nothing that the kernel remembers. -/
theorem TimesKept.of_times {w : World m} (htimes : ∀ pid, w.times pid = s.world.times pid) :
    TimesKept ro { s with world := w } :=
  ⟨fun pid => (hs.account pid).of_same ⟨rfl, rfl, rfl, htimes pid, fun _ _ _ => Iff.rfl⟩, hs.since,
    hs.ordered⟩

/-- A task is admitted. -/
theorem TimesKept.initTask {allocs : Allocs} (hp : s.world.tasks.find p.pid = some p)
    (hready : s.ready p.pid = false) :
    TimesKept ro { s.observe (.initTask allocs p.pid) with
      world := (golandInitTask allocs p s.world).2 } := by
  obtain ⟨hhist, hrec, hzero, hidle⟩ := (hs.account p.pid).fresh hready
  rcases times_golandInitTask (p := p) s.world allocs with ⟨herr, hsame⟩ | htimes
  · -- refused before anything was stored
    rw [Ordered.observe, hp, Option.any_some, if_neg (by simpa using herr)]
    exact hs.of_times fun pid => by rw [hsame]
  have hother : ∀ q, q ≠ p.pid →
      (golandInitTask allocs p s.world).2.times q = s.world.times q :=
    fun q hq => by rw [htimes q, if_neg hq]
  have hown : (golandInitTask allocs p s.world).2.times p.pid = some (0, 0, 0) := by
    rw [htimes, if_pos rfl, hzero]
  rw [Ordered.observe, hp, Option.any_some]
  split_ifs with hok
  · refine ⟨fun q => ?_, hs.since, hs.ordered⟩
    by_cases hq : q = p.pid
    · subst hq
      refine ⟨fun h => absurd h (by simp), fun _ _ => ⟨0, ?_, fun c r hr hrp => ?_, fun _ => ?_⟩⟩
      · rw [Ordered.lastInterval, Ordered.total]
        dsimp only
        rw [hhist, hrec, hown]
        rfl
      · have hrun : s.isRunning p.pid = true := isRunning_iff.mpr ⟨c, r, hr, hrp⟩
        rw [hidle] at hrun
        exact absurd hrun (by simp)
      · rw [Ordered.lastInterval]
        dsimp only
        rw [hhist]
        rfl
    · exact (hs.account q).of_same ⟨Function.update_of_ne hq _ _, rfl, rfl, hother q hq,
        fun _ _ _ => Iff.rfl⟩
  · refine ⟨fun q => ?_, hs.since, hs.ordered⟩
    by_cases hq : q = p.pid
    · subst hq
      refine ⟨fun _ => ⟨hhist, hrec, by rw [hown]; rfl, hidle⟩, fun h => ?_⟩
      exact absurd (hready.symm.trans h) (by simp)
    · exact (hs.account q).of_same ⟨rfl, rfl, rfl, hother q hq, fun _ _ _ => Iff.rfl⟩

/-- A task exits; its context is freed. -/
theorem TimesKept.exitTask {w : World m} (hidle : s.isRunning p.pid = false)
    (hw : ∀ q, w.times q = if q = p.pid then none else s.world.times q) :
    TimesKept ro { s.observe (.exitTask p.pid) with world := w } := by
  refine ⟨fun q => ?_, hs.since, fun q i hi => ?_⟩
  · by_cases hq : q = p.pid
    · subst hq
      refine ⟨fun _ => ⟨Function.update_self _ _ _, Function.update_self _ _ _, ?_, hidle⟩,
        fun h => ?_⟩
      · show (w.times p.pid).getD (0, 0, 0) = _
        rw [hw, if_pos rfl]
        rfl
      · change Function.update s.ready p.pid false p.pid = true at h
        rw [Function.update_self] at h
        exact absurd h (by simp)
    · refine (hs.account q).of_same ⟨Function.update_of_ne hq _ _, Function.update_of_ne hq _ _,
        Function.update_of_ne hq _ _, ?_, fun _ _ _ => Iff.rfl⟩
      show w.times q = _
      rw [hw, if_neg hq]
  · change i ∈ Function.update s.history p.pid [] q at hi
    by_cases hq : q = p.pid
    · rw [hq, Function.update_self] at hi
      exact absurd hi (by simp)
    · rw [Function.update_of_ne hq] at hi
      exact hs.ordered q i hi

/-- A task becomes runnable: its execution time is counted anew. -/
theorem TimesKept.runnable (hready : s.ready p.pid = true) :
    TimesKept ro { s.observe (.runnable p.pid) with world := golandRunnable ro p s.world } := by
  refine ⟨fun q => ?_, hs.since, hs.ordered⟩
  by_cases hq : q = p.pid
  · subst hq
    refine ⟨fun h => absurd (hready.symm.trans h) (by simp), fun _ hus => ?_⟩
    obtain ⟨start, ht, hrun, hlast⟩ := (hs.account p.pid).times hready hus
    refine ⟨start, ?_, hrun, hlast⟩
    show (golandRunnable ro p s.world).times p.pid = _
    rw [times_golandRunnable s.world hus, if_pos rfl, ht]
    show _ = some (start, (s.lastInterval p.pid).2, UInt64.ofNat (Ordered.total _ p.pid))
    rw [Ordered.total]
    show _ = some (_, _, UInt64.ofNat (List.map Interval.length
      (Function.update s.recent p.pid [] p.pid)).sum)
    rw [Function.update_self]
    rfl
  · refine (hs.account q).of_same ⟨rfl, rfl, Function.update_of_ne hq _ _, ?_, fun _ _ _ => Iff.rfl⟩
    show (golandRunnable ro p s.world).times q = _
    by_cases hus : p.pid.toUInt32 = ro.userschedPid
    · rw [(times_usersched s.world (Env.lowest p.cpu) hus).1]
    · rw [times_golandRunnable s.world hus, if_neg hq]

/-- A task starts on its CPU, which is free. -/
theorem TimesKept.running {env : Env m} (hp : s.world.tasks.find p.pid = some p)
    (hready : s.ready p.pid = true) (hidle : s.isRunning p.pid = false)
    (hfree : s.current p.cpu = none) :
    TimesKept ro { s.observe (.running env p.pid) with
      world := golandRunning ro env p s.world } := by
  rw [Ordered.observe, hp]
  dsimp only [Ordered.start]
  refine ⟨fun q => ?_, fun c r hr => ?_, hs.ordered⟩
  · by_cases hq : q = p.pid
    · subst hq
      refine ⟨fun h => absurd (hready.symm.trans h) (by simp), fun _ hus => ?_⟩
      obtain ⟨start, ht, -, -⟩ := (hs.account p.pid).times hready hus
      refine ⟨env.now, ?_, fun c r hr hrp => ?_, fun hnot => ?_⟩
      · show (golandRunning ro env p s.world).times p.pid = _
        rw [times_golandRunning s.world env hus, if_pos rfl, ht]
        rfl
      · by_cases hc : c = p.cpu
        · subst hc
          dsimp only at hr
          rw [Function.update_self, Option.some_inj] at hr
          rw [← hr]
        · dsimp only at hr
          rw [Function.update_of_ne hc] at hr
          have hrun : s.isRunning p.pid = true := isRunning_iff.mpr ⟨c, r, hr, hrp⟩
          rw [hidle] at hrun
          exact absurd hrun (by simp)
      · refine absurd (isRunning_iff.mpr ⟨p.cpu, ⟨p.pid, env.now⟩, ?_, rfl⟩) (by rw [hnot]; simp)
        exact Function.update_self _ _ _
    · refine (hs.account q).of_same ⟨rfl, rfl, rfl, ?_, fun c r hrq => ?_⟩
      · show (golandRunning ro env p s.world).times q = _
        by_cases hus : p.pid.toUInt32 = ro.userschedPid
        · rw [(times_usersched s.world env hus).2.1]
        · rw [times_golandRunning s.world env hus, if_neg hq]
      · -- the CPU that is taken was free, and is now another task's
        dsimp only
        by_cases hc : c = p.cpu
        · subst hc
          rw [Function.update_self, hfree, Option.some_inj]
          refine ⟨fun h => absurd (hrq.symm.trans (congrArg Running.pid h).symm) hq, fun h => ?_⟩
          exact absurd h (by simp)
        · rw [Function.update_of_ne hc]
  · dsimp only at hr ⊢
    by_cases hc : c = p.cpu
    · subst hc
      rw [Function.update_self, Option.some_inj] at hr
      rw [Function.update_self, ← hr]
      exact UInt64.le_refl env.now
    · rw [Function.update_of_ne hc] at hr ⊢
      exact hs.since c r hr

omit hs in
/-- The running total, in 64 bits. -/
theorem ofNat_total_add {total : ℕ} {since now : UInt64} (h : since ≤ now) :
    UInt64.ofNat total + (now - since) =
      UInt64.ofNat (now.toNat - since.toNat + total) := by
  apply UInt64.toNat_inj.mp
  rw [UInt64.toNat_add, UInt64.toNat_sub_of_le now since h, UInt64.toNat_ofNat',
    UInt64.toNat_ofNat']
  omega

/-- A task stops: the interval since it was started is over. -/
theorem TimesKept.stopping {env : Env m} {r : Running} (hp : s.world.tasks.find p.pid = some p)
    (hready : s.ready p.pid = true) (hr : s.current p.cpu = some r) (hrp : r.pid = p.pid)
    (hclock : s.clock p.cpu ≤ env.now) :
    TimesKept ro { s.observe (.stopping env p.pid) with
      world := golandStopping ro env p s.world } := by
  have hsince : r.since ≤ env.now := UInt64.le_trans (hs.since p.cpu r hr) hclock
  rw [Ordered.observe, hp]
  dsimp only
  rw [hr]
  dsimp only [Ordered.stop]
  rw [hrp]
  refine ⟨fun q => ?_, fun c r' hr' => ?_, fun q i hi => ?_⟩
  · by_cases hq : q = p.pid
    · subst hq
      refine ⟨fun h => absurd (hready.symm.trans h) (by simp), fun _ hus => ?_⟩
      obtain ⟨start, ht, hrun, -⟩ := (hs.account p.pid).times hready hus
      obtain rfl : start = r.since := hrun p.cpu r hr hrp
      refine ⟨r.since, ?_, fun c r' hr' hrp' => ?_, fun _ => ?_⟩
      · show (golandStopping ro env p s.world).times p.pid = _
        rw [times_golandStopping s.world env hus, if_pos rfl, ht]
        dsimp only [Ordered.lastInterval, Ordered.total]
        rw [Function.update_self, Function.update_self, List.map_cons, List.sum_cons,
          Option.map_some, ofNat_total_add hsince]
        rfl
      · dsimp only at hr'
        by_cases hc : c = p.cpu
        · subst hc
          rw [Function.update_self] at hr'
          exact absurd hr' (by simp)
        · rw [Function.update_of_ne hc] at hr'
          exact hrun c r' hr' hrp'
      · rw [Ordered.lastInterval]
        dsimp only
        rw [Function.update_self]
        rfl
    · refine (hs.account q).of_same ⟨rfl, Function.update_of_ne hq _ _,
        Function.update_of_ne hq _ _, ?_, fun c r' hrq => ?_⟩
      · show (golandStopping ro env p s.world).times q = _
        by_cases hus : p.pid.toUInt32 = ro.userschedPid
        · rw [(times_usersched s.world env hus).2.2]
        · rw [times_golandStopping s.world env hus, if_neg hq]
      · -- the CPU that is given up was not the other task's
        dsimp only
        by_cases hc : c = p.cpu
        · subst hc
          rw [Function.update_self, hr, Option.some_inj]
          refine ⟨fun h => absurd h (by simp), fun h => ?_⟩
          exact absurd (hrq.symm.trans ((congrArg Running.pid h).symm.trans hrp)) hq
        · rw [Function.update_of_ne hc]
  · dsimp only at hr' ⊢
    by_cases hc : c = p.cpu
    · subst hc
      rw [Function.update_self] at hr'
      exact absurd hr' (by simp)
    · rw [Function.update_of_ne hc] at hr' ⊢
      exact hs.since c r' hr'
  · dsimp only at hi
    by_cases hq : q = p.pid
    · subst hq
      rw [Function.update_self] at hi
      rcases List.mem_cons.mp hi with rfl | hi
      · exact hsince
      · exact hs.ordered p.pid i hi
    · rw [Function.update_of_ne hq] at hi
      exact hs.ordered q i hi

end Steps

theorem observe_of_keepsTimes {s : Ordered m} {l : Label m} (hl : l.keepsTimes = true) :
    s.observe l = s := by
  cases l with
  | fork p => exact absurd hl (by simp [Label.keepsTimes])
  | exitTask pid => exact absurd hl (by simp [Label.keepsTimes])
  | initTask allocs pid => exact absurd hl (by simp [Label.keepsTimes])
  | runnable pid => exact absurd hl (by simp [Label.keepsTimes])
  | running env pid => exact absurd hl (by simp [Label.keepsTimes])
  | stopping env pid => exact absurd hl (by simp [Label.keepsTimes])
  | _ => rfl

theorem timesKept_step {ro : Rodata} {s s' : Ordered m} {l : Label m} (hs : TimesKept ro s)
    (h : orderedStep ro s l = some s') : TimesKept ro s' := by
  obtain ⟨horder, w, hw, rfl⟩ := orderedStep_eq_some.mp h
  by_cases hl : l.keepsTimes = true
  · rw [observe_of_keepsTimes hl]
    exact hs.of_times (step_steady hl hw).times
  cases l with
  | fork p =>
    rw [step] at hw
    split_ifs at hw
    obtain rfl := Option.some_inj.mp hw
    exact hs.of_times fun pid => rfl
  | initTask allocs pid =>
    obtain ⟨p, hp, rfl⟩ := Option.map_eq_some_iff.mp hw
    obtain rfl : p.pid = pid := s.world.tasks.find_pid hp
    exact hs.initTask hp (by simpa [Ordered.inOrder] using horder)
  | exitTask pid =>
    obtain ⟨p, hp, rfl⟩ := Option.map_eq_some_iff.mp hw
    obtain rfl : p.pid = pid := s.world.tasks.find_pid hp
    refine hs.exitTask (by simpa [Ordered.inOrder] using horder) fun q => ?_
    show (Function.update s.world.taskCtx p.pid none q).map _ = _
    by_cases hq : q = p.pid
    · rw [if_pos hq, hq, Function.update_self]
      rfl
    · rw [if_neg hq, Function.update_of_ne hq]
      rfl
  | runnable pid =>
    obtain ⟨p, hp, rfl⟩ := Option.map_eq_some_iff.mp hw
    obtain rfl : p.pid = pid := s.world.tasks.find_pid hp
    rw [Ordered.inOrder, Bool.and_eq_true] at horder
    exact hs.runnable horder.1
  | running env pid =>
    obtain ⟨p, hp, rfl⟩ := Option.map_eq_some_iff.mp hw
    obtain rfl : p.pid = pid := s.world.tasks.find_pid hp
    rw [Ordered.inOrder, hp] at horder
    simp only [Bool.and_eq_true, Bool.not_eq_true', Option.all_some, Option.isNone_iff_eq_none]
      at horder
    exact hs.running hp horder.1.1 horder.1.2 horder.2.1
  | stopping env pid =>
    obtain ⟨p, hp, rfl⟩ := Option.map_eq_some_iff.mp hw
    obtain rfl : p.pid = pid := s.world.tasks.find_pid hp
    rw [Ordered.inOrder, hp] at horder
    simp only [Bool.and_eq_true, Option.all_some, Option.any_eq_true, decide_eq_true_eq] at horder
    obtain ⟨⟨r, hr, hrp⟩, hclock⟩ := horder
    refine hs.stopping hp ?_ hr hrp hclock
    -- a task that runs has been admitted
    by_contra hready
    have hidle := ((hs.account p.pid).fresh (by simpa using hready)).2.2.2
    rw [isRunning_iff.mpr ⟨p.cpu, r, hr, hrp⟩] at hidle
    exact absurd hidle (by simp)
  | _ => exact absurd rfl hl

/-- When the scheduler has just been started, nothing has run. -/
theorem timesKept_init (ro : Rodata) {w₀ : World m} (hstart : Started w₀) :
    TimesKept ro (Ordered.init w₀) := by
  refine ⟨fun pid => ⟨fun _ => ⟨rfl, rfl, ?_, ?_⟩, fun h => absurd h (by simp [Ordered.init])⟩,
    fun c r hr => absurd hr (by simp [Ordered.init]),
    fun pid i hi => absurd hi (by simp [Ordered.init])⟩
  · show (Option.map _ (w₀.taskCtx pid)).getD (0, 0, 0) = _
    rw [hstart.atLoad.taskCtx]
    rfl
  · rw [Bool.eq_false_iff]
    intro h
    obtain ⟨c, r, hr, -⟩ := isRunning_iff.mp h
    exact absurd hr (by simp [Ordered.init])

/-! ### The report -/

/-- The record of an enqueue is the one of `get_task_info`. -/
theorem enqueue_submitted {ro : Rodata} {env : Env m} {p : TaskStruct m} {enqFlags : UInt64}
    {w : World m} {r : QueuedTaskCtx} {es : List Event}
    (hes : (golandEnqueue ro env p enqFlags w).log = es ++ w.log) (hr : .submitted r ∈ es) :
    ∃ w', Steady w w' ∧ r = getTaskInfo p enqFlags w' := by
  obtain ⟨es', hes', hQ⟩ := (enqueueing_golandEnqueue ro env p enqFlags w).emits
    (Q := fun e => ∀ r, e = .submitted r → ∃ w', Steady w w' ∧ r = getTaskInfo p enqFlags w')
    (by rintro e hq r rfl; exact absurd hq (by simp [Event.quiet]))
    (fun i id _ r h => absurd h (by simp))
    (fun w' _ slice c _ r h => absurd h (by simp))
    (fun w' hw' r h => ⟨w', hw', (Event.submitted.inj h).symm⟩)
  obtain rfl : es = es' := List.append_cancel_right (hes.symm.trans hes')
  exact hQ _ hr r rfl

/-- The record of an enqueue carries the times of the task. -/
theorem enqueue_submitted_times {ro : Rodata} {env : Env m} {p : TaskStruct m}
    {enqFlags : UInt64} {w : World m} {r : QueuedTaskCtx} {es : List Event}
    (hes : (golandEnqueue ro env p enqFlags w).log = es ++ w.log) (hr : .submitted r ∈ es) :
    p.pid.toUInt32 ≠ ro.userschedPid ∧ r.pid = p.pid ∧
      (r.startTs, r.stopTs, r.execRuntime) = (w.times p.pid).getD (0, 0, 0) := by
  have hus : p.pid.toUInt32 ≠ ro.userschedPid := by
    intro h
    rw [golandEnqueue, isUserschedTask, if_pos (decide_eq_true h)] at hes
    rw [List.self_eq_append_left.mp hes] at hr
    exact absurd hr (by simp)
  obtain ⟨w', hw', rfl⟩ := enqueue_submitted hes hr
  refine ⟨hus, rfl, ?_⟩
  rw [← hw'.times p.pid, World.times, getTaskInfo]
  rcases w'.taskCtx p.pid with _ | t
  · rfl
  · rfl

/-- The record of an enqueue step: the task is admitted and not running, so its
times are those of its last interval. -/
theorem TimesKept.report {ro : Rodata} {s s' : Ordered m} {env : Env m} {pid : Int32}
    {enqFlags : UInt64} {r : QueuedTaskCtx} (hs : TimesKept ro s)
    (hstep : orderedStep ro s (.enqueue env pid enqFlags) = some s')
    (hr : .submitted r ∈ newEvents s.world s'.world) :
    r.pid = pid ∧ s.world.vtime pid = some r.vtime ∧ (r.startTs, r.stopTs) = s.lastInterval pid ∧
      r.execRuntime = UInt64.ofNat (s.total pid) := by
  obtain ⟨horder, w, hw, rfl⟩ := orderedStep_eq_some.mp hstep
  obtain ⟨p, hp, rfl⟩ := Option.map_eq_some_iff.mp hw
  obtain rfl : p.pid = pid := s.world.tasks.find_pid hp
  obtain ⟨es, hes, hmem⟩ := newEvents_enqueue ro env p enqFlags s.world
  have hr := (hmem _ (by simp) (by simp)).mp hr
  obtain ⟨hus, hpid, htimes⟩ := enqueue_submitted_times hes hr
  have hvtime : s.world.vtime p.pid = some r.vtime := by
    obtain ⟨w', -, rfl⟩ := enqueue_submitted hes hr
    rw [World.vtime, hp]
    rfl
  rw [Ordered.inOrder, Bool.and_eq_true, Bool.not_eq_true'] at horder
  obtain ⟨start, ht, -, hidle⟩ := (hs.account p.pid).times horder.1 hus
  change (r.startTs, r.stopTs, r.execRuntime) = (s.world.times p.pid).getD (0, 0, 0) at htimes
  rw [ht, Option.getD_some, Prod.mk.injEq, Prod.mk.injEq, hidle horder.2] at htimes
  obtain ⟨hstartTs, hstopTs, hexec⟩ := htimes
  exact ⟨hpid, hvtime, by rw [hstartTs, hstopTs], hexec⟩

/-- **Every record reports the last completed interval and the execution time since
the task became runnable, exactly.**  For every run of the callbacks in the order
the kernel guarantees, with any number of preemptions, sleeps and re-enqueues; so
the difference that `updatedEnqueueTask` takes does not wrap. -/
theorem runtime_report_exact (ro : Rodata) (w₀ : World m) (hstart : Started w₀)
    (ls : List (Label m)) (s s' : Ordered m) (env : Env m) (pid : Int32) (enqFlags : UInt64)
    (htake : Runs.Takes (orderedStep ro) (.init w₀) ls s (.enqueue env pid enqFlags))
    (hstep : orderedStep ro s (.enqueue env pid enqFlags) = some s')
    (r : QueuedTaskCtx) (hr : .submitted r ∈ newEvents s.world s'.world) :
    r.pid = pid ∧ (r.startTs, r.stopTs) = s.lastInterval pid ∧ r.startTs ≤ r.stopTs ∧
      r.execRuntime.toNat = s.total pid % 2 ^ 64 ∧
      (r.stopTs - r.startTs).toNat = r.stopTs.toNat - r.startTs.toNat := by
  obtain ⟨pre, -, hrun, -⟩ := htake
  have hs : TimesKept ro s := Runs.invariant (timesKept_init ro hstart)
    (fun _ _ _ ht hstep => timesKept_step ht hstep) pre s (Runs.visits_of_run hrun)
  obtain ⟨hpid, -, hinterval, hexec⟩ := hs.report hstep hr
  have hle : r.startTs ≤ r.stopTs := by
    rw [Ordered.lastInterval] at hinterval
    rcases hhist : s.history pid with _ | ⟨i, rest⟩
    · rw [hhist] at hinterval
      obtain ⟨hstartTs, hstopTs⟩ := Prod.mk.inj hinterval
      rw [hstartTs, hstopTs]
      exact UInt64.le_refl 0
    · rw [hhist] at hinterval
      obtain ⟨hstartTs, hstopTs⟩ := Prod.mk.inj hinterval
      rw [hstartTs, hstopTs]
      exact hs.ordered pid i (by rw [hhist]; exact List.mem_cons_self)
  refine ⟨hpid, hinterval, hle, ?_, UInt64.toNat_sub_of_le _ _ hle⟩
  rw [hexec, UInt64.toNat_ofNat']

/-- What the kernel decides on CPU 0 at a given time. -/
def cpu0At (now : UInt64) : Env twoCpus := { Env.lowest cpu0 with now := now }

/-- Task 7 runs from 100 to 250 and from 300 to 330. -/
def runs7Twice : List (Label twoCpus) :=
  [.initTask ⟨true, true, true⟩ 7, .runnable 7, .running (cpu0At 100) 7, .stopping (cpu0At 250) 7,
    .running (cpu0At 300) 7, .stopping (cpu0At 330) 7]

/-- The record of task 7 after its two intervals. -/
theorem runtime_report_exact_two_intervals :
    let s₀ := Ordered.init (startedWorld ((TaskTable.empty twoCpus).set (plainTask 7)))
    let ls := runs7Twice ++ [.enqueue (cpu0At 330) 7 0]
    ∃ s s' r, Runs.Takes (orderedStep plainRodata) s₀ ls s (.enqueue (cpu0At 330) 7 0) ∧
      orderedStep plainRodata s (.enqueue (cpu0At 330) 7 0) = some s' ∧
      .submitted r ∈ newEvents s.world s'.world ∧ (r.startTs, r.stopTs) = (300, 330) ∧
      r.execRuntime.toNat = 180 := by
  intro s₀ ls
  have hrun : ((Runs.run (orderedStep plainRodata) s₀ runs7Twice).bind fun s =>
      (orderedStep plainRodata s (.enqueue (cpu0At 330) 7 0)).map fun s' =>
        ((newEvents s.world s'.world).any fun e => e.submits 7, s.lastInterval 7, s.total 7)) =
      some (true, (300, 330), 180) := by decide +kernel
  obtain ⟨s, hs, h⟩ := Option.bind_eq_some_iff.mp hrun
  obtain ⟨s', hs', h⟩ := Option.map_eq_some_iff.mp h
  rw [Prod.mk.injEq, Prod.mk.injEq, List.any_eq_true] at h
  obtain ⟨⟨e, he, hsub⟩, hlast, htotal⟩ := h
  have htake : Runs.Takes (orderedStep plainRodata) s₀ ls s (.enqueue (cpu0At 330) 7 0) :=
    ⟨runs7Twice, List.prefix_refl _, hs, by rw [hs']; rfl⟩
  cases e with
  | submitted r =>
    obtain ⟨-, hinterval, -, hexec, -⟩ := runtime_report_exact plainRodata _
      (started_startedWorld _) ls s s' (cpu0At 330) 7 0 htake hs' r he
    rw [hlast] at hinterval
    rw [htotal] at hexec
    exact ⟨s, s', r, htake, hs', he, hinterval, hexec⟩
  | _ => exact absurd hsub (by simp [Event.submits])

end ScxGoland
