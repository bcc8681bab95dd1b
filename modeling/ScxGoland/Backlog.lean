/-
What the BPF program sees of the backlog in user space.

`usersched_has_pending_tasks` looks at `nr_scheduled` and at the ring; records
also wait in the channel and in the pool, and the size of the pool is published
after a dispatch only.

* `backlog_visible_iff` — every backlog is seen in exactly the runs in which no
  poll and no `NotifyComplete` hides one.
-/
import ScxGoland.SchedLoop
import ScxGoland.World

open Runs

namespace ScxGoland

/-- What `usersched_has_pending_tasks` returns; every record in the ring takes 80
bytes. -/
def SchedState.hasPendingTasks (s : SchedState) : Bool :=
  World.userschedHasPendingTasks s.nrScheduled (s.q.ring.length * 80)

/-- A record in the ring, in the channel or in the pool is seen by the BPF
program. -/
def SchedState.BacklogVisible (s : SchedState) : Prop :=
  s.q.ring ≠ [] ∨ s.q.queue ≠ [] ∨ s.user.pool.live ≠ [] → s.hasPendingTasks = true

/-- The poller does not take the last record of the ring while `nr_scheduled` is
zero, and `NotifyComplete(0)` is not called while records are in the channel and
the ring is empty. -/
def NothingHidden (s : SchedState) (l : SchedLabel) : Prop :=
  (l = .deliver → s.nrScheduled ≠ 0 ∨ 1 < s.q.ring.length) ∧
    ∀ o, l = .go o → s.pc = .notify → s.user.pool.live ≠ [] ∨ s.q.queue = [] ∨ s.q.ring ≠ []

theorem hasPendingTasks_iff (s : SchedState) :
    s.hasPendingTasks = true ↔ s.nrScheduled ≠ 0 ∨ s.q.ring ≠ [] := by
  rw [SchedState.hasPendingTasks, World.userschedHasPendingTasks]
  split_ifs with h
  · simp [h]
  · have hring : 0 < s.q.ring.length * 80 ↔ s.q.ring ≠ [] := by
      rw [← List.length_pos_iff]
      omega
    simp [h, hring]

/-- Records in user space are visible; a peeked record counts as well, as it goes
back to the channel. -/
structure VisibleInv (s : SchedState) : Prop where
  pooled : ∃ held, Pooled s.user.pool held
  hand : s.pc ≠ .blocking → s.q.hand = []
  visible : s.q.queue ≠ [] ∨ s.user.pool.live ≠ [] ∨ s.q.hand ≠ [] →
    s.nrScheduled ≠ 0 ∨ s.q.ring ≠ []

theorem visibleInv_init : VisibleInv .init := by
  refine ⟨⟨[], PoolInv.empty, by simp⟩, fun _ => rfl, fun h => ?_⟩
  rcases h with h | h | h
  · exact absurd rfl h
  · exact absurd rfl h
  · exact absurd rfl h

/-- `DequeueTask` takes a record out of the channel and leaves the ring alone. -/
theorem dequeueTask_frame (q : QueueState) (hhand : q.hand = []) :
    (dequeueTask q).2.ring = q.ring ∧ (dequeueTask q).2.hand = [] ∧
      ((dequeueTask q).2.queue ≠ [] → q.queue ≠ []) ∧
      ((dequeueTask q).1.pid ≠ -1 → q.queue ≠ []) := by
  rw [dequeueTask]
  split
  · rename_i hq
    exact ⟨rfl, hhand, fun h => h, fun h => absurd rfl h⟩
  · rename_i r queue hq
    split
    · exact ⟨rfl, hand_receive queue, fun _ => by simp [hq], fun _ => by simp [hq]⟩
    · exact ⟨rfl, rfl, fun _ => by simp [hq], fun _ => by simp [hq]⟩

/-- A step of the goroutine after which the pool and the channel hold no record
that was not visible before. -/
theorem VisibleInv.of_subset {s s' : SchedState} (h : VisibleInv s)
    (hpooled : ∃ held, Pooled s'.user.pool held)
    (hhand : s'.pc ≠ .blocking → s'.q.hand = [])
    (hsub : s'.q.queue ≠ [] ∨ s'.user.pool.live ≠ [] ∨ s'.q.hand ≠ [] →
      s.q.queue ≠ [] ∨ s.user.pool.live ≠ [] ∨ s.q.hand ≠ [])
    (hring : s'.q.ring = s.q.ring) (hsched : s'.nrScheduled = s.nrScheduled) : VisibleInv s' := by
  refine ⟨hpooled, hhand, fun hne => ?_⟩
  rw [hring, hsched]
  exact h.visible (hsub hne)

/-- A step of the goroutine that takes records out of the channel only, with none
in its hand. -/
theorem VisibleInv.of_queue {s s' : SchedState} (h : VisibleInv s) (huser : s'.user = s.user)
    (hhand : s'.q.hand = []) (hqueue : s'.q.queue ≠ [] → s.q.queue ≠ [])
    (hring : s'.q.ring = s.q.ring) (hsched : s'.nrScheduled = s.nrScheduled) : VisibleInv s' := by
  refine h.of_subset (huser ▸ h.pooled) (fun _ => hhand) (fun hne => ?_) hring hsched
  rcases hne with hne | hne | hne
  · exact Or.inl (hqueue hne)
  · exact Or.inr (Or.inl (huser ▸ hne))
  · exact absurd hhand hne

theorem visibleInv_step {size : RingSize} {s s' : SchedState} {l : SchedLabel}
    (h : VisibleInv s) (hC : NothingHidden s l) (hmove : SchedMove size s l s') :
    VisibleInv s' := by
  obtain ⟨held, hpool⟩ := h.pooled
  have hpool' := pooled_step hpool hmove
  cases hmove with
  | submit hq =>
    -- the new record is in the ring
    cases queueMove_of_step hq with
    | submit hcpu hroom => exact ⟨hpool', h.hand, fun _ => Or.inr (by simp)⟩
    | stay hl hfrom hto => simp at hl
    | peek hl hfrom hqueue => simp at hl
  | count hq =>
    cases queueMove_of_step hq with
    | count hcpu => exact h.of_subset hpool' h.hand id rfl rfl
    | stay hl hfrom hto => simp at hl
    | peek hl hfrom hqueue => simp at hl
  | deliver hq =>
    cases queueMove_of_step hq with
    | deliver hring hroom =>
      refine ⟨hpool', h.hand, fun _ => ?_⟩
      rcases hC.1 rfl with hsched | hlong
      · exact Or.inl hsched
      · rw [hring, List.length_cons] at hlong
        exact Or.inr (List.ne_nil_of_length_pos (Nat.lt_of_succ_lt_succ hlong))
    | stay hl hfrom hto => simp at hl
    | peek hl hfrom hqueue => simp at hl
  | receive hd => exact h.of_subset hpool' h.hand id rfl rfl
  | getNil hpc hget => exact h.of_subset hpool' (fun _ => h.hand (by simp [hpc])) id rfl rfl
  | get hpc hget hpid =>
    -- the pool was not empty before
    have hlive : s.user.pool.live ≠ [] := by
      rw [Ne, hpool.live_eq_nil_iff]
      exact List.ne_nil_of_mem (hpool.get hget).2.1
    exact h.of_subset hpool' (fun _ => h.hand (by simp [hpc])) (fun _ => Or.inr (Or.inl hlive))
      rfl rfl
  | getInvalid hpc hget hpid => exact absurd hpid (hpool.get hget).1
  | refill hpc hto => exact h.of_subset hpool' (fun _ => h.hand (by simp [hpc])) id rfl rfl
  | drained hpc hroom hpid hone =>
    obtain ⟨hring, hhand, -, hqueue⟩ := dequeueTask_frame s.q (h.hand (by simp [hpc]))
    exact h.of_subset hpool' (fun _ => hhand) (fun _ => Or.inl (hqueue hpid)) hring rfl
  | drainPanics hpc =>
    obtain ⟨hring, hhand, hqueue, -⟩ := dequeueTask_frame s.q (h.hand (by simp [hpc]))
    exact h.of_queue rfl hhand hqueue hring rfl
  | @drainEmpty o count hpc hroom hpid =>
    obtain ⟨hring, hhand, hqueue, -⟩ := dequeueTask_frame s.q (h.hand (by simp [hpc]))
    rw [afterDrain]
    split_ifs
    · exact h.of_queue rfl rfl hqueue hring rfl
    · exact h.of_queue rfl hhand hqueue hring rfl
  | drainFull hpc hroom => exact h.of_queue rfl rfl id rfl rfl
  | peek hpc hq =>
    -- the peeked record was in the channel
    cases queueMove_of_step hq with
    | stay hl hfrom hto => simp at hl
    | peek hl hfrom hqueue =>
      exact h.of_subset hpool' (fun hne => absurd hpc hne) (fun _ => Or.inl (by simp [hqueue]))
        rfl rfl
  | resend hpc hq =>
    -- the record sent back was in the hand
    cases queueMove_of_step hq with
    | stay hl hfrom hto => simp at hl
    | peek hl hfrom hqueue => simp at hl
    | resend hfrom hroom =>
      refine h.of_subset hpool' (fun _ => rfl) (fun _ => Or.inr (Or.inr ?_)) rfl rfl
      rw [hand_of_resend hfrom]
      simp
  | select hpc hpid => exact h.of_subset hpool' (fun _ => h.hand (by simp [hpc])) id rfl rfl
  | selectPanics hpc => exact h.of_subset hpool' (fun _ => h.hand (by simp [hpc])) id rfl rfl
  | dispatch hpc hok => exact h.of_subset hpool' (fun _ => h.hand (by simp [hpc])) id rfl rfl
  | dispatchFails hpc herr => exact h.of_subset hpool' (fun _ => h.hand (by simp [hpc])) id rfl rfl
  | send hpc => exact h.of_subset hpool' (fun _ => h.hand (by simp [hpc])) id rfl rfl
  | @notify o hpc =>
    refine ⟨hpool', fun _ => h.hand (by simp [hpc]), fun hne => ?_⟩
    have hhand := h.hand (by simp [hpc])
    -- an empty pool is reported only when the channel is empty or the ring is not
    by_cases hlive : s.user.pool.live = []
    · rcases hC.2 o rfl hpc with h1 | h1 | h1
      · exact absurd hlive h1
      · rcases hne with hne | hne | hne
        · exact absurd h1 hne
        · exact absurd hlive hne
        · exact absurd hhand hne
      · exact Or.inr h1
    · exact Or.inl (hpool.ofInt_count_ne_zero hlive)

/-- A step that hides the backlog does so at once. -/
theorem hidden_breaks {size : RingSize} {s s' : SchedState} {l : SchedLabel}
    (h : VisibleInv s) (hC : ¬ NothingHidden s l) (hstep : schedStep size s l = some s') :
    ¬ s'.BacklogVisible := by
  obtain ⟨held, hpool⟩ := h.pooled
  rw [SchedState.BacklogVisible, hasPendingTasks_iff]
  rw [NothingHidden, not_and_or] at hC
  rcases hC with hC | hC
  · -- the last record of the ring goes to the channel
    simp only [not_forall, not_or, not_not] at hC
    obtain ⟨rfl, hsched, hshort⟩ := hC
    cases schedMove_of_step hstep with
    | deliver hq =>
      cases queueMove_of_step hq with
      | @deliver data ring hring hroom =>
        rw [hring, List.length_cons] at hshort
        have hnil : ring = [] := List.length_eq_zero_iff.mp (by omega)
        intro hvis
        rcases hvis (Or.inr (Or.inl (by simp))) with h | h
        · exact h hsched
        · exact h hnil
      | stay hl hfrom hto => simp at hl
      | peek hl hfrom hqueue => simp at hl
  · -- `NotifyComplete(0)` with records in the channel
    simp only [not_forall, not_or, not_not] at hC
    obtain ⟨o, rfl, hpc, hlive, hqueue, hring⟩ := hC
    have hs' : s' = { s with nrScheduled := UInt64.ofInt s.user.pool.count, pc := .head } := by
      simp only [schedStep, goStep, hpc, Option.some_inj] at hstep
      exact hstep.symm
    have hzero : UInt64.ofInt s.user.pool.count = 0 := by
      rw [hpool.inv.count_eq, hpool.live_eq_nil_iff.mp hlive]
      rfl
    rw [hs']
    intro hvis
    rcases hvis (Or.inr (Or.inl hqueue)) with h | h
    · exact h hzero
    · exact h hring

/-- **The backlog is visible in exactly the runs in which nothing is hidden.**
For every interleaving of the kernel, the poller and the goroutine. -/
theorem backlog_visible_iff (size : RingSize) (ls : List SchedLabel) :
    (∀ s, Visits (schedStep size) .init ls s → s.BacklogVisible) ↔
      ∀ s l, Takes (schedStep size) .init ls s l → NothingHidden s l := by
  refine visits_iff_takes visibleInv_init ?_ ?_ ?_
  · intro s h hne
    rw [hasPendingTasks_iff]
    rcases hne with hne | hne | hne
    · exact Or.inr hne
    · exact h.visible (Or.inl hne)
    · exact h.visible (Or.inr (Or.inl hne))
  · intro s l s' h hC hstep
    exact visibleInv_step h hC (schedMove_of_step hstep)
  · intro s l s' h hC hstep
    exact hidden_breaks h hC hstep

/-- The poller takes the only record of the ring: it waits in the channel, and
the BPF program sees no pending work. -/
theorem backlog_hidden :
    ∃ s, run (schedStep ringSize) .init [.submit 0 (recordCtx 7) zeroPad, .count 0, .deliver] =
        some s ∧
      s.q.queue.length = 1 ∧ s.hasPendingTasks = false ∧ ¬ s.BacklogVisible := by
  refine ⟨_, rfl, by decide, by decide, fun hvis => ?_⟩
  exact absurd (hvis (Or.inr (Or.inl (by decide)))) (by decide)

end ScxGoland
