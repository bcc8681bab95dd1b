/-
How busy the machine is, and how long the scheduler has been silent.

`goland_running` and `goland_stopping` count the running tasks in `nr_running`, the
scheduler's main thread excepted; for that one `goland_running` keeps the time in
`usersched_last_run_at`, which the heartbeat timer reads.  User space writes into the
same section, but only `nr_queued` and `nr_scheduled`.

* `step_resident` — only these two callbacks and user space write what is counted here;
* `nr_running_exact` — with the callbacks in the kernel's order, `nr_running` is the
  number of CPUs that run a task other than the scheduler;
* `heartbeat_exact` — the timer asks for the scheduler exactly when its last start
  lies at least `USERSCHED_TIMER_NS` back.
-/
import ScxGoland.Footprint
import ScxGoland.KernelOrder

open Runs

namespace ScxGoland

variable {m : Machine}

/-! ### Who writes the counters -/

/-- `notify_complete` and `sub_nr_queued` write `nr_scheduled` and `nr_queued`. -/
def UserWrites (w : World m) : Label m → Prop
  | .setCounters b => ∃ nrQueued nrScheduled,
    b = { w.bss with nrQueued := nrQueued, nrScheduled := nrScheduled }
  | _ => True

/-- The two counters of this module. -/
def Bss.occupancy (b : Bss) : UInt64 × UInt64 := (b.nrRunning, b.userschedLastRunAt)

theorem Bss.occupancy_of_resident {b b' : Bss} (h : b'.resident = b.resident) :
    b'.occupancy = b.occupancy :=
  congrArg (fun r : UInt64 × UInt64 × UInt64 × UInt64 => (r.2.2.1, r.1)) h

theorem step_resident {ro : Rodata} {w w' : World m} {l : Label m}
    (hrun : ∀ env pid, l ≠ .running env pid) (hstop : ∀ env pid, l ≠ .stopping env pid)
    (hwrites : UserWrites w l) (h : step ro w l = some w') :
    w'.bss.occupancy = w.bss.occupancy := by
  by_cases hl : l.isScheduling = true
  · obtain ⟨queued, needed, hu, -⟩ := step_untouched hl h
    exact Bss.occupancy_of_resident hu.bss
  by_cases hset : ∀ b, l ≠ .setCounters b
  · rw [(step_tended hl h).bss hrun hstop hset]
  · push Not at hset
    obtain ⟨b, rfl⟩ := hset
    obtain rfl := Option.some_inj.mp h
    obtain ⟨nrQueued, nrScheduled, rfl⟩ := hwrites
    rfl

theorem golandRunning_occupancy (ro : Rodata) (env : Env m) (p : TaskStruct m) (w : World m) :
    (golandRunning ro env p w).bss.occupancy =
      if p.pid.toUInt32 = ro.userschedPid then (w.bss.nrRunning, env.now)
      else (w.bss.nrRunning + 1, w.bss.userschedLastRunAt) := by
  rw [golandRunning, isUserschedTask]
  by_cases h : p.pid.toUInt32 = ro.userschedPid
  · rw [if_pos (decide_eq_true h), if_pos h]
    rfl
  · rw [if_neg (by simpa using h), if_neg h]
    rfl

theorem golandStopping_occupancy (ro : Rodata) (env : Env m) (p : TaskStruct m) (w : World m) :
    (golandStopping ro env p w).bss.occupancy =
      if p.pid.toUInt32 = ro.userschedPid then w.bss.occupancy
      else (w.bss.nrRunning - 1, w.bss.userschedLastRunAt) := by
  rw [golandStopping, isUserschedTask]
  by_cases h : p.pid.toUInt32 = ro.userschedPid
  · rw [if_pos (decide_eq_true h), if_pos h]
  · rw [if_neg (by simpa using h), if_neg h]
    rfl

/-! ### The CPUs that run a task -/

/-- The CPUs that run a task other than the scheduler's main thread. -/
def Ordered.busyCpus (ro : Rodata) (s : Ordered m) : Finset (Cpu m) :=
  Finset.univ.filter fun c => ((s.current c).any fun r => r.pid.toUInt32 ≠ ro.userschedPid) = true

theorem mem_busyCpus {ro : Rodata} {s : Ordered m} {c : Cpu m} :
    c ∈ s.busyCpus ro ↔ ∃ r, s.current c = some r ∧ r.pid.toUInt32 ≠ ro.userschedPid := by
  rw [Ordered.busyCpus, Finset.mem_filter, Option.any_eq_true]
  exact ⟨fun ⟨_, r, hr, hne⟩ => ⟨r, hr, of_decide_eq_true hne⟩,
    fun ⟨r, hr, hne⟩ => ⟨Finset.mem_univ c, r, hr, decide_eq_true hne⟩⟩

theorem busyCpus_congr (ro : Rodata) {s s' : Ordered m} (h : s'.current = s.current) :
    s'.busyCpus ro = s.busyCpus ro := by
  rw [Ordered.busyCpus, h]
  rfl

/-- A task starts on a CPU that ran none. -/
theorem busyCpus_start (ro : Rodata) {s s' : Ordered m} {c : Cpu m} {r : Running}
    (hnone : s.current c = none) (h : s'.current = Function.update s.current c (some r)) :
    (s'.busyCpus ro).card =
      (s.busyCpus ro).card + if r.pid.toUInt32 = ro.userschedPid then 0 else 1 := by
  have hc : c ∉ s.busyCpus ro := by
    intro hmem
    obtain ⟨r', hr', -⟩ := mem_busyCpus.mp hmem
    rw [hnone] at hr'
    exact absurd hr' (by simp)
  have hmem : ∀ c', c' ∈ s'.busyCpus ro ↔
      c' ∈ s.busyCpus ro ∨ (c' = c ∧ r.pid.toUInt32 ≠ ro.userschedPid) := by
    intro c'
    rw [mem_busyCpus, mem_busyCpus, h]
    by_cases hcc : c' = c
    · subst hcc
      rw [Function.update_self, hnone]
      simp
    · rw [Function.update_of_ne hcc]
      simp [hcc]
  split_ifs with hus
  · have hsame : s'.busyCpus ro = s.busyCpus ro := by
      ext c'
      rw [hmem c']
      simp [hus]
    rw [hsame, Nat.add_zero]
  · rw [← Finset.card_insert_of_notMem hc]
    congr 1
    ext c'
    rw [hmem c', Finset.mem_insert, or_comm]
    simp [hus]

/-- The task that runs on a CPU stops. -/
theorem busyCpus_stop (ro : Rodata) {s s' : Ordered m} {c : Cpu m} {r : Running}
    (hr : s.current c = some r) (h : s'.current = Function.update s.current c none) :
    (s.busyCpus ro).card =
      (s'.busyCpus ro).card + if r.pid.toUInt32 = ro.userschedPid then 0 else 1 := by
  have hnone : s'.current c = none := by rw [h, Function.update_self]
  refine busyCpus_start ro hnone ?_
  rw [h, Function.update_idem, ← hr, Function.update_eq_self]

/-- The counter is right. -/
def CountsRunning (ro : Rodata) (s : Ordered m) : Prop :=
  s.world.bss.nrRunning.toNat = (s.busyCpus ro).card

theorem card_busyCpus_le (ro : Rodata) (s : Ordered m) : (s.busyCpus ro).card ≤ m.nrCpuIds := by
  have hle := Finset.card_le_univ (s.busyCpus ro)
  rwa [Fintype.card_fin] at hle

theorem countsRunning_step (hm : m.nrCpuIds ≤ maxCpus) {ro : Rodata} {s s' : Ordered m}
    {l : Label m} (hs : CountsRunning ro s) (hwrites : UserWrites s.world l)
    (h : orderedStep ro s l = some s') : CountsRunning ro s' := by
  obtain ⟨horder, w, hw, rfl⟩ := orderedStep_eq_some.mp h
  have hmax : maxCpus = 1024 := rfl
  have hle := card_busyCpus_le ro s
  rw [CountsRunning] at hs ⊢
  by_cases hrun : ∃ env pid, l = .running env pid
  · obtain ⟨env, pid, rfl⟩ := hrun
    obtain ⟨p, hp, rfl⟩ := Option.map_eq_some_iff.mp hw
    have hpid : p.pid = pid := s.world.tasks.find_pid hp
    simp only [Ordered.inOrder, hp, Option.all_some, Bool.and_eq_true, Option.isNone_iff_eq_none]
      at horder
    have hcurrent : (s.observe (.running env pid)).current =
        Function.update s.current p.cpu (some ⟨pid, env.now⟩) := by
      rw [Ordered.observe, hp]
      rfl
    have hcard := busyCpus_start ro horder.2.1 hcurrent
    have hocc := congrArg Prod.fst (golandRunning_occupancy ro env p s.world)
    rw [hpid] at hocc
    change (golandRunning ro env p s.world).bss.nrRunning = _ at hocc
    change (golandRunning ro env p s.world).bss.nrRunning.toNat =
      ((s.observe (.running env pid)).busyCpus ro).card
    rw [hcard, hocc]
    dsimp only
    split_ifs with hus
    · exact hs
    · rw [← hs]
      have hone : (1 : UInt64).toNat = 1 := rfl
      rw [UInt64.toNat_add, hone]
      exact Nat.mod_eq_of_lt (by omega)
  by_cases hstop : ∃ env pid, l = .stopping env pid
  · obtain ⟨env, pid, rfl⟩ := hstop
    obtain ⟨p, hp, rfl⟩ := Option.map_eq_some_iff.mp hw
    have hpid : p.pid = pid := s.world.tasks.find_pid hp
    simp only [Ordered.inOrder, hp, Option.all_some, Bool.and_eq_true] at horder
    obtain ⟨r, hr, hrpid⟩ := (Option.any_eq_true _ _).mp horder.1
    have hcurrent : (s.observe (.stopping env pid)).current =
        Function.update s.current p.cpu none := by
      simp only [Ordered.observe, hp, hr]
      rfl
    have hcard := busyCpus_stop ro hr hcurrent
    have hocc := congrArg Prod.fst (golandStopping_occupancy ro env p s.world)
    rw [hpid] at hocc
    change (golandStopping ro env p s.world).bss.nrRunning = _ at hocc
    change (golandStopping ro env p s.world).bss.nrRunning.toNat =
      ((s.observe (.stopping env pid)).busyCpus ro).card
    rw [of_decide_eq_true hrpid] at hcard
    rw [hocc]
    split_ifs at hcard ⊢ with hus
    · exact hs.trans hcard
    · have hpos : (1 : UInt64) ≤ s.world.bss.nrRunning :=
        UInt64.le_iff_toNat_le.mpr (by rw [hs, hcard]; exact Nat.le_add_left _ _)
      have hone : (1 : UInt64).toNat = 1 := rfl
      rw [UInt64.toNat_sub_of_le _ _ hpos, hs, hcard, hone, Nat.add_sub_cancel]
  · have hrun' : ∀ env pid, l ≠ .running env pid := fun env pid hl => hrun ⟨env, pid, hl⟩
    have hstop' : ∀ env pid, l ≠ .stopping env pid := fun env pid hl => hstop ⟨env, pid, hl⟩
    have hocc := congrArg Prod.fst (step_resident hrun' hstop' hwrites hw)
    change w.bss.nrRunning = s.world.bss.nrRunning at hocc
    change w.bss.nrRunning.toNat = ((s.observe l).busyCpus ro).card
    rw [hocc, hs, busyCpus_congr ro (observe_current hrun' hstop')]

/-- **`nr_running` is exact.**  In every run in which the kernel calls `ops.running()` and
`ops.stopping()` in pairs and user space writes the counters that are its own, with
every other callback in between in any order: `nr_running` is the number of CPUs that
run a task other than the scheduler's main thread. -/
theorem nr_running_exact (ro : Rodata) (w₀ : World m) (hstart : Started w₀)
    (hzero : w₀.bss.nrRunning = 0) (ls : List (Label m))
    (hwrites : ∀ s l, Takes (orderedStep ro) (.init w₀) ls s l → UserWrites s.world l) :
    ∀ s, Visits (orderedStep ro) (.init w₀) ls s →
      s.world.bss.nrRunning.toNat = (s.busyCpus ro).card := by
  have hinit : CountsRunning ro (Ordered.init w₀) := by
    have hnone : (Ordered.init w₀).busyCpus ro = ∅ := by
      refine Finset.eq_empty_of_forall_notMem fun c hc => ?_
      obtain ⟨r, hr, -⟩ := mem_busyCpus.mp hc
      exact absurd hr (by simp [Ordered.init])
    rw [CountsRunning, hnone, Finset.card_empty]
    exact congrArg UInt64.toNat hzero
  exact invariant_of_guarded hinit
    (fun s l s' hs hl h => countsRunning_step hstart.nrCpuIds_le hs hl h) hwrites

theorem userWrites_of_ne {w : World m} {l : Label m} (h : ∀ b, l ≠ .setCounters b) :
    UserWrites w l := by
  cases l with
  | setCounters b => exact absurd rfl (h b)
  | _ => trivial

/-- Task 8 runs on CPU 0, task 7 on CPU 1, and then the scheduler on CPU 0. -/
def twoBusy : List (Label twoCpus) :=
  [.initTask ⟨true, true, true⟩ 1, .initTask ⟨true, true, true⟩ 7, .initTask ⟨true, true, true⟩ 8,
    .change { plainTask 7 with cpu := cpu1 }, .running (Env.lowest cpu0) 8,
    .running (Env.lowest cpu1) 7, .stopping (Env.lowest cpu0) 8, .running (Env.lowest cpu0) 1]

theorem nr_running_exact_two_busy :
    ∃ s, Visits (orderedStep plainRodata) (.init (startedWorld threeTasks)) twoBusy s ∧
      s.current cpu0 = some ⟨1, 0⟩ ∧ s.current cpu1 = some ⟨7, 0⟩ ∧
      s.world.bss.nrRunning.toNat = (s.busyCpus plainRodata).card ∧ s.world.bss.nrRunning = 1 := by
  have hrun : (run (orderedStep plainRodata) (.init (startedWorld threeTasks)) twoBusy).map
      (fun s => (s.current cpu0, s.current cpu1, s.world.bss.nrRunning)) =
      some (some ⟨1, 0⟩, some ⟨7, 0⟩, 1) := by decide +kernel
  obtain ⟨s, hs, h⟩ := Option.map_eq_some_iff.mp hrun
  obtain ⟨h0, h⟩ := Prod.mk.inj h
  obtain ⟨h1, hone⟩ := Prod.mk.inj h
  refine ⟨s, visits_of_run hs, h0, h1, ?_, hone⟩
  refine nr_running_exact plainRodata _ (started_startedWorld _) rfl twoBusy
    (fun t l htake => userWrites_of_ne fun b hl => ?_) s (visits_of_run hs)
  have hmem := htake.mem
  rw [hl] at hmem
  simp [twoBusy] at hmem

/-! ### The heartbeat -/

/-- The time at which the scheduler's main thread starts to run. -/
def Label.schedStart (ro : Rodata) : Label m → Option UInt64
  | .running env pid => if pid.toUInt32 = ro.userschedPid then some env.now else none
  | _ => none

/-- The time of the last start in a run, `0` if there was none. -/
def lastStart (ro : Rodata) (ls : List (Label m)) : UInt64 :=
  (ls.filterMap (Label.schedStart ro)).getLast?.getD 0

theorem lastStart_concat (ro : Rodata) (ls : List (Label m)) (l : Label m) :
    lastStart ro (ls ++ [l]) = (l.schedStart ro).getD (lastStart ro ls) := by
  rw [lastStart, lastStart, List.filterMap_append, List.filterMap_cons, List.filterMap_nil]
  rcases l.schedStart ro with _ | t
  · rw [List.append_nil]
    rfl
  · rw [List.getLast?_concat]
    rfl

theorem step_userschedLastRunAt {ro : Rodata} {w w' : World m} {l : Label m}
    (hwrites : UserWrites w l) (h : step ro w l = some w') :
    w'.bss.userschedLastRunAt = (l.schedStart ro).getD w.bss.userschedLastRunAt := by
  by_cases hrun : ∃ env pid, l = .running env pid
  · obtain ⟨env, pid, rfl⟩ := hrun
    obtain ⟨p, hp, rfl⟩ := Option.map_eq_some_iff.mp h
    have hpid : p.pid = pid := w.tasks.find_pid hp
    have hocc := congrArg Prod.snd (golandRunning_occupancy ro env p w)
    rw [hpid] at hocc
    refine Eq.trans (show _ = _ from hocc) ?_
    rw [Label.schedStart]
    split_ifs <;> rfl
  by_cases hstop : ∃ env pid, l = .stopping env pid
  · obtain ⟨env, pid, rfl⟩ := hstop
    obtain ⟨p, hp, rfl⟩ := Option.map_eq_some_iff.mp h
    refine Eq.trans (show _ = _ from congrArg Prod.snd (golandStopping_occupancy ro env p w)) ?_
    split_ifs <;> rfl
  · have hrun' : ∀ env pid, l ≠ .running env pid := fun env pid hl => hrun ⟨env, pid, hl⟩
    have hstop' : ∀ env pid, l ≠ .stopping env pid := fun env pid hl => hstop ⟨env, pid, hl⟩
    have hnone : l.schedStart ro = none := by
      cases l with
      | running env pid => exact absurd rfl (hrun' env pid)
      | _ => rfl
    rw [hnone]
    exact congrArg Prod.snd (step_resident hrun' hstop' hwrites h)

theorem userschedLastRunAt_of_run {ro : Rodata} {w₀ w : World m} {ls : List (Label m)}
    (hzero : w₀.bss.userschedLastRunAt = 0)
    (hwrites : ∀ w l, Takes (step ro) w₀ ls w l → UserWrites w l)
    (hrun : run (step ro) w₀ ls = some w) : w.bss.userschedLastRunAt = lastStart ro ls := by
  induction ls using List.reverseRecOn generalizing w with
  | nil =>
    rw [run_nil, Option.some_inj] at hrun
    rw [← hrun, hzero]
    rfl
  | append_singleton ls l ih =>
    obtain ⟨u, hu, hl⟩ := run_concat_eq_some.mp hrun
    have htake : Takes (step ro) w₀ (ls ++ [l]) u l := ⟨ls, List.prefix_refl _, hu, by rw [hl]; rfl⟩
    rw [step_userschedLastRunAt (hwrites u l htake) hl, lastStart_concat,
      ih (fun v k hv => hwrites v k (hv.mono (List.prefix_append ls [l]))) hu]

/-- `time_delta` is the signed difference of two times, or zero if that is negative. -/
def ScxHeaders.TakesTimeDelta (headers : ScxHeaders) : Prop :=
  ∀ after before, (headers.timeDelta after before).toInt = max 0 (after - before).toInt64.toInt

/-- **The heartbeat fires on time.**  After every run in which user space writes the
counters that are its own, the timer requests the scheduler exactly when a request is
pending already, or the scheduler is alive and its last start lies at least
`USERSCHED_TIMER_NS` back. -/
theorem heartbeat_exact (ro : Rodata) (hdelta : ro.TakesTimeDelta) (w₀ : World m)
    (hzero : w₀.bss.userschedLastRunAt = 0) (ls : List (Label m))
    (hwrites : ∀ w l, Takes (step ro) w₀ ls w l → UserWrites w l)
    (w w' : World m) (hrun : run (step ro) w₀ ls = some w) (env : Env m) (armed : Bool)
    (hstep : step ro w (.timer env armed) = some w') :
    w'.userschedNeeded = true ↔
      w.userschedNeeded = true ∨ ((w.tasks.find ro.userschedPid.toInt32).isSome = true ∧
        userschedTimerNs.toInt ≤ (env.now - lastStart ro ls).toInt64.toInt) := by
  obtain rfl := Option.some_inj.mp hstep
  -- the period is positive, so a negative difference is no matter
  have hdue : userschedTimerNs ≤ ro.timeDelta env.now (lastStart ro ls) ↔
      userschedTimerNs.toInt ≤ (env.now - lastStart ro ls).toInt64.toInt := by
    have hpos : ¬ userschedTimerNs.toInt ≤ 0 := by decide
    rw [Int64.le_iff_toInt_le, hdelta, le_max_iff, or_iff_right hpos]
  rw [(timer_untouched ro env armed w).userschedNeeded, ← hdue,
    ← userschedLastRunAt_of_run hzero hwrites hrun]
  show (heartbeatDue ro env w || w.userschedNeeded) = true ↔ _
  rw [Bool.or_eq_true, heartbeatDue, Bool.and_eq_true, decide_eq_true_iff]
  tauto

theorem takesTimeDelta_plainRodata : plainRodata.TakesTimeDelta := by
  intro after before
  simp only [plainRodata]
  split_ifs with hpos
  · exact (max_eq_right (Int64.lt_iff_toInt_lt.mp hpos).le).symm
  · exact (max_eq_left (not_lt.mp fun h => hpos (Int64.lt_iff_toInt_lt.mpr h))).symm

/-- The scheduler starts at 20 ms; the timer fires at 120 ms. -/
theorem heartbeat_exact_after_start :
    let ls : List (Label twoCpus) := [.running { Env.lowest cpu0 with now := 20000000 } 1]
    ∃ w w', run (step plainRodata) (startedWorld threeTasks) ls = some w ∧
      step plainRodata w (.timer { Env.lowest cpu0 with now := 120000000 } true) = some w' ∧
      w.userschedNeeded = false ∧ w'.userschedNeeded = true := by
  intro ls
  obtain ⟨w, hw⟩ : ∃ w, run (step plainRodata) (startedWorld threeTasks) ls = some w := ⟨_, rfl⟩
  obtain ⟨w', hw'⟩ : ∃ w', step plainRodata w
      (.timer { Env.lowest cpu0 with now := 120000000 } true) = some w' := ⟨_, rfl⟩
  refine ⟨w, w', hw, hw', ?_, ?_⟩
  · obtain rfl := Option.some_inj.mp hw
    rfl
  · refine (heartbeat_exact plainRodata takesTimeDelta_plainRodata _ rfl ls
      (fun t l htake => userWrites_of_ne fun b hl => ?_) w w' hw _ true hw').mpr
        (Or.inr ⟨?_, by decide⟩)
    · have hmem := htake.mem
      rw [hl] at hmem
      simp [ls] at hmem
    · obtain rfl := Option.some_inj.mp hw
      rfl

end ScxGoland
