/-
When the user-space scheduler sleeps.

The refill loop of the goroutine calls `BlockTilReadyForDequeue` whenever
`DrainQueuedTask` returns zero: because it found nothing, or because it filled
the pool.

* `blocks_with_empty_pool_iff` — the goroutine blocks with an empty pool only, in
  exactly the runs in which no drain fills the pool and every drain that starts
  with tasks in the pool finds another one.
-/
import ScxGoland.SchedLoop

open Runs

namespace ScxGoland

/-- The step is not an iteration of `DrainQueuedTask` that finds the pool full,
or that ends a drain without any task while tasks are held. -/
def DrainsInTime (s : SchedState) (l : SchedLabel) : Prop :=
  ∀ o count, l = .go o → s.pc = .drain count → s.user.pool.hasRoom ∧
    (count = 0 → s.user.pool.live ≠ [] → (dequeueTask s.q).1.pid ≠ -1)

/-- In `BlockTilReadyForDequeue`, no task is held. -/
def SchedState.SleepsIdle (s : SchedState) : Prop := s.pc = .blocking → s.user.pool.live = []

theorem sleepsIdle_step {size : RingSize} {s s' : SchedState} {l : SchedLabel}
    (h : s.SleepsIdle) (hC : DrainsInTime s l) (hmove : SchedMove size s l s') :
    s'.SleepsIdle := by
  cases hmove with
  | submit hq => exact h
  | count hq => exact h
  | deliver hq => exact h
  | receive hd => exact h
  | peek hpc hq => exact h
  | @drainEmpty o count hpc hroom hpid =>
    -- an empty drain blocks, and then nothing was held
    rw [afterDrain]
    split_ifs with hcount
    · intro _
      by_contra hne
      exact (hC o count rfl hpc).2 hcount hne hpid
    · intro hblock
      exact absurd hblock (by simp)
  | @drainFull o count hpc hroom => exact absurd (hC o count rfl hpc).1 hroom
  | refill hpc hto =>
    intro hblock
    rcases hto with rfl | rfl
    · exact absurd hblock (by simp)
    · exact absurd hblock (by simp)
  | _ =>
    intro hblock
    exact absurd hblock (by simp)

/-- A full pool, or a drain that finds nothing while tasks are held, leads
straight into `BlockTilReadyForDequeue`. -/
theorem late_drain_sleeps {size : RingSize} {s s' : SchedState} {l : SchedLabel}
    {held : List Task} (h : Pooled s.user.pool held) (hC : ¬ DrainsInTime s l)
    (hstep : schedStep size s l = some s') : ¬ s'.SleepsIdle := by
  simp only [DrainsInTime, not_forall] at hC
  obtain ⟨o, count, rfl, hpc, hC⟩ := hC
  have hs' : s' = drainStep count s := by
    simp only [schedStep, goStep, hpc, Option.some_inj] at hstep
    exact hstep.symm
  by_cases hroom : s.user.pool.hasRoom
  · simp only [hroom, true_and, not_forall, not_not] at hC
    obtain ⟨rfl, hlive, hpid⟩ := hC
    rw [hs', drainStep, if_pos hroom]
    dsimp only
    rw [if_pos hpid, afterDrain, if_pos rfl]
    exact fun hsleep => hlive (hsleep rfl)
  · rw [hs', drainStep, if_neg hroom, afterDrain, if_pos rfl]
    intro hsleep
    have hnil : held = [] := h.live_eq_nil_iff.mp (hsleep rfl)
    rw [h.inv.hasRoom_iff, hnil, not_not] at hroom
    exact absurd hroom (by decide)

/-- **The goroutine sleeps with an empty pool only, in exactly the runs in which
every drain is in time.**  For every arrival pattern: no drain fills the pool,
and every drain that starts while tasks are held finds a task in the queue. -/
theorem blocks_with_empty_pool_iff (size : RingSize) (ls : List SchedLabel) :
    (∀ s, Visits (schedStep size) .init ls s → s.SleepsIdle) ↔
      ∀ s l, Takes (schedStep size) .init ls s l → DrainsInTime s l := by
  refine visits_iff_takes
    (I := fun s => (∃ held, Pooled s.user.pool held) ∧ s.SleepsIdle) ?_ ?_ ?_ ?_
  · exact ⟨⟨[], PoolInv.empty, by simp⟩, fun hblock => absurd hblock (by simp [SchedState.init])⟩
  · exact fun s h => h.2
  · rintro s l s' ⟨⟨held, hpool⟩, hsleep⟩ hC hstep
    have hmove := schedMove_of_step hstep
    exact ⟨pooled_step hpool hmove, sleepsIdle_step hsleep hC hmove⟩
  · rintro s l s' ⟨⟨held, hpool⟩, -⟩ hC hstep
    exact late_drain_sleeps hpool hC hstep

/-- A single task is drained into the pool, and the goroutine blocks. -/
theorem blocks_with_held_task :
    ∃ s, run (schedStep ringSize) .init
        ([.submit 0 (recordCtx 7) zeroPad, .count 0, .deliver] ++
          List.replicate 6 (.go ⟨none, false⟩)) = some s ∧
      s.pc = .blocking ∧ s.user.pool.live.length = 1 ∧ ¬ s.SleepsIdle := by
  have hfacts : (run (schedStep ringSize) .init
      ([.submit 0 (recordCtx 7) zeroPad, .count 0, .deliver] ++
        List.replicate 6 (.go ⟨none, false⟩))).map
      (fun s => (s.pc, s.user.pool.live.length)) = some (.blocking, 1) := by decide +kernel
  obtain ⟨s, hs, heq⟩ := Option.map_eq_some_iff.mp hfacts
  simp only [Prod.mk.injEq] at heq
  refine ⟨s, hs, heq.1, heq.2, fun hsleep => ?_⟩
  rw [hsleep heq.1] at heq
  exact absurd heq.2 (by decide)

end ScxGoland
