/-
The counter `nr_queued`.

`goland_enqueue` publishes a record before it counts it, and `sub_nr_queued`
does not go below zero, so the consumer can be faster than the increment.

* `nrQueued_exact` — `nr_queued` is the number of records submitted and not yet
  taken, in every run in which no decrement finds it at zero;
* `nrQueued_drifts` — the shortest run in which one does.
-/
import ScxGoland.QueueChannel

open Runs

namespace ScxGoland

/-- Records are conserved, and `nr_queued` lags behind by the CPUs that have not
counted theirs yet. -/
structure Accounted (size : RingSize) (s : QueueState) : Prop where
  bounded : Bounded size s
  sized : Sized s
  conserved : s.submitted = s.taken.length + s.inFlight
  counted : s.nrQueued.toNat + s.enqueueing.card =
    s.inFlight + if s.consumer = .counting then 1 else 0

/-- The decrement is exact: it does not find the counter at zero. -/
def ExactSub (s : QueueState) (l : QueueLabel) : Prop := l = .sub → s.nrQueued ≠ 0

instance (s : QueueState) (l : QueueLabel) : Decidable (ExactSub s l) :=
  inferInstanceAs (Decidable (_ → _))

theorem accounted_init (size : RingSize) : Accounted size .init :=
  ⟨⟨Nat.zero_le _, Nat.zero_le _⟩,
    ⟨by simp [QueueState.init], by simp [QueueState.init, QueueState.hand]⟩, rfl, rfl⟩

/-- The records in flight are few, so `nr_queued` does not wrap around. -/
theorem Accounted.nrQueued_lt {size : RingSize} {s : QueueState} (h : Accounted size s) :
    s.nrQueued.toNat + 1 < 2 ^ 64 := by
  have hhand : s.hand.length ≤ 1 := by
    rw [QueueState.hand]
    split
    · exact Nat.le_refl 1
    · exact Nat.zero_le 1
  have hflag : (if s.consumer = .counting then 1 else 0) ≤ 1 := by split_ifs <;> omega
  have hring := h.bounded.ring_le
  have hqueue := h.bounded.queue_le
  have hcount := h.counted
  have hcap := size.cap_lt
  have hq : queueCap = 4096 := rfl
  rw [QueueState.inFlight] at hcount
  omega

theorem accounted_step {size : RingSize} (s : QueueState) (l : QueueLabel) (s' : QueueState)
    (h : Accounted size s) (hC : ExactSub s l) (hstep : queueStep size s l = some s') :
    Accounted size s' := by
  have hmove := queueMove_of_step hstep
  have hflight := inFlight_step hmove
  have hcons := h.conserved
  refine ⟨bounded_step h.bounded hmove, sized_step h.sized hmove, by omega, ?_⟩
  have hcount := h.counted
  -- only four kinds of step change one of the two sides
  cases hmove with
  | @submit cpu r pad hcpu hroom =>
    show s.nrQueued.toNat + (insert cpu s.enqueueing).card = _ + if s.consumer = .counting then 1 else 0
    rw [Finset.card_insert_of_notMem hcpu]
    dsimp only at hflight
    omega
  | @count cpu hcpu =>
    have hpos := Finset.card_pos.mpr ⟨cpu, hcpu⟩
    have hinc : (s.nrQueued + 1).toNat = s.nrQueued.toNat + 1 := by
      rw [UInt64.toNat_add]
      exact Nat.mod_eq_of_lt h.nrQueued_lt
    show (s.nrQueued + 1).toNat + (s.enqueueing.erase cpu).card =
      _ + if s.consumer = .counting then 1 else 0
    rw [hinc, Finset.card_erase_of_mem hcpu]
    dsimp only at hflight
    omega
  | deliver hr hroom =>
    dsimp only at hflight ⊢
    omega
  | stay hl hfrom hto =>
    have hflag : s.consumer ≠ .counting := by rcases hfrom with h | h <;> simp [h]
    rw [if_neg hflag] at hcount
    rw [if_neg (by rcases hto with h | h <;> simp [h])]
    dsimp only at hflight ⊢
    omega
  | peek hl hfrom hq =>
    have hflag : s.consumer ≠ .counting := by rcases hfrom with h | h <;> simp [h]
    rw [if_neg hflag] at hcount
    rw [if_neg (by simp)]
    dsimp only at hflight ⊢
    omega
  | resend hfrom hroom =>
    rw [if_neg (by simp [hfrom])] at hcount
    rw [if_neg (by simp)]
    dsimp only at hflight ⊢
    omega
  | @receive r queue hfrom hq =>
    rw [if_neg (by simp [hfrom])] at hcount
    rw [if_pos (receive_consumer queue (h.sized.queue r (by rw [hq]; simp)))]
    have htaken : (s.receive r queue).taken.length = s.taken.length + 1 := by
      simp [QueueState.receive]
    have hsame : (s.receive r queue).submitted = s.submitted := rfl
    show s.nrQueued.toNat + s.enqueueing.card = _
    omega
  | sub hfrom =>
    have hne : s.nrQueued ≠ 0 := hC rfl
    have hpos : 1 ≤ s.nrQueued.toNat := by
      rw [Nat.one_le_iff_ne_zero]
      exact fun h0 => hne (UInt64.toNat_inj.mp h0)
    have hdec : (subNrQueued s.nrQueued).toNat = s.nrQueued.toNat - 1 := by
      rw [subNrQueued, if_pos hne]
      exact UInt64.toNat_sub_of_le _ _ (UInt64.le_iff_toNat_le.mpr hpos)
    rw [if_pos hfrom] at hcount
    rw [if_neg (by simp)]
    show (subNrQueued s.nrQueued).toNat + s.enqueueing.card = _
    rw [hdec]
    dsimp only at hflight
    omega

/-- No `goland_enqueue` and no `DequeueTask` is in progress. -/
def QueueState.Quiescent (s : QueueState) : Prop :=
  s.enqueueing = ∅ ∧ s.consumer ≠ .counting

instance (s : QueueState) : Decidable s.Quiescent := inferInstanceAs (Decidable (_ ∧ _))

/-- **`nr_queued` does not drift in runs without a decrement at zero.**  For any
interleaving of the CPUs, the poller and the consumer, when neither
`goland_enqueue` nor `DequeueTask` is in progress. -/
theorem nrQueued_exact (size : RingSize) (ls : List QueueLabel)
    (hexact : ∀ s l, Takes (queueStep size) .init ls s l → ExactSub s l)
    (s : QueueState) (hs : Visits (queueStep size) .init ls s) (hq : s.Quiescent) :
    s.nrQueued.toNat = s.submitted - s.taken.length := by
  have hacc : Accounted size s :=
    invariant_of_guarded (accounted_init size) accounted_step hexact s hs
  have hcount := hacc.counted
  have hcons := hacc.conserved
  rw [hq.1, Finset.card_empty, if_neg hq.2] at hcount
  omega

/-- The record overtakes its own increment: nothing is outstanding at the end,
and `nr_queued` is 1. -/
theorem nrQueued_drifts :
    ∃ s, run (queueStep ringSize) .init
        [.submit 0 (recordCtx 7) zeroPad, .deliver, .dequeue, .sub, .count 0] = some s ∧
      s.Quiescent ∧ s.submitted - s.taken.length = 0 ∧ s.nrQueued.toNat = 1 :=
  ⟨_, rfl, by decide, by decide, by decide⟩

/-- With the increment before the decrement, the counter comes back to zero. -/
theorem nrQueued_exact_one_record :
    ∃ s, run (queueStep ringSize) .init (enqueueSteps 7 ++ [.deliver, .dequeue, .sub]) = some s ∧
      s.nrQueued.toNat = s.submitted - s.taken.length := by
  refine ⟨_, rfl, nrQueued_exact ringSize (enqueueSteps 7 ++ [.deliver, .dequeue, .sub]) ?_ _
    (visits_of_run rfl) (by decide)⟩
  intro s l htake
  have hcheck : check (queueStep ringSize) (fun s l => decide (ExactSub s l)) .init
      (enqueueSteps 7 ++ [.deliver, .dequeue, .sub]) = true := by decide
  exact of_decide_eq_true (guard_of_check hcheck s l htake)

end ScxGoland
