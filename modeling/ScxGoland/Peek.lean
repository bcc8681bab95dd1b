/-
Peeking at the queue.

`BlockTilReadyForDequeue` and `ReadyForDequeue` look whether there is a record
by receiving it and sending it back, on a bounded channel that the poller is
filling at the same time.

* `peek_transparent_iff` — peeking is transparent in exactly the runs in which
  every record is sent back to an empty channel and none is delivered into the
  last free place while a record is in the consumer's hand.
-/
import ScxGoland.QueueChannel

open Runs

namespace ScxGoland

/-- The records taken, the one in the consumer's hand and those in the channel
are the records delivered, in the order of their delivery. -/
def QueueState.InOrder (s : QueueState) : Prop := s.taken ++ s.hand ++ s.queue = s.delivered

/-- The consumer is in a re-send on a full channel; nobody else receives. -/
def QueueState.Stuck (s : QueueState) : Prop := s.hand ≠ [] ∧ queueCap ≤ s.queue.length

/-- A record is sent back to an empty channel only, and while it is in the
consumer's hand no delivery takes the last free place of the channel. -/
def SafePeek (s : QueueState) (l : QueueLabel) : Prop :=
  (l = .resend → s.queue = []) ∧
    (l = .deliver → s.hand ≠ [] → s.queue.length + 1 < queueCap)

/-- What peeking preserves as long as it is safe; deliveries are numbered, so
that no two records are the same. -/
structure PeekInv (size : RingSize) (s : QueueState) : Prop where
  bounded : Bounded size s
  inOrder : s.InOrder
  notStuck : ¬ s.Stuck
  serials : s.delivered.map Record.serial = List.range s.delivered.length

theorem peekInv_init (size : RingSize) : PeekInv size .init :=
  ⟨⟨Nat.zero_le _, Nat.zero_le _⟩, rfl, fun h => h.1 rfl, rfl⟩

/-- Deliveries are numbered in order, by every step. -/
theorem serials_step {size : RingSize} {s s' : QueueState} {l : QueueLabel}
    (h : s.delivered.map Record.serial = List.range s.delivered.length)
    (hmove : QueueMove size s l s') :
    s'.delivered.map Record.serial = List.range s'.delivered.length := by
  cases hmove with
  | deliver hr hroom =>
    show (s.delivered ++ [_]).map Record.serial = List.range (s.delivered ++ [_]).length
    rw [List.map_append, List.length_append, List.length_singleton, List.range_succ, h]
    rfl
  | _ => exact h

theorem peekInv_step {size : RingSize} (s : QueueState) (l : QueueLabel) (s' : QueueState)
    (h : PeekInv size s) (hC : SafePeek s l) (hstep : queueStep size s l = some s') :
    PeekInv size s' := by
  have hmove := queueMove_of_step hstep
  have horder : s.taken ++ s.hand ++ s.queue = s.delivered := h.inOrder
  have hqueue := h.bounded.queue_le
  -- a hand that is empty after the step cannot be stuck
  have hfree : s'.hand = [] → ¬ s'.Stuck := fun hnil hs => hs.1 hnil
  refine ⟨bounded_step h.bounded hmove, ?_, ?_, serials_step h.serials hmove⟩
  · show s'.taken ++ s'.hand ++ s'.queue = s'.delivered
    cases hmove with
    | submit hcpu hroom => exact horder
    | count hcpu => exact horder
    | deliver hr hroom =>
      show s.taken ++ s.hand ++ (s.queue ++ [_]) = s.delivered ++ [_]
      rw [← List.append_assoc, horder]
    | stay hl hfrom hto =>
      obtain ⟨hhand, hhand'⟩ := hand_of_stay hfrom hto
      rw [hhand] at horder
      rw [hhand']
      exact horder
    | @peek _ r queue hl hfrom hq =>
      rw [hand_eq_nil (by tauto), hq, List.append_nil] at horder
      show s.taken ++ [r] ++ queue = s.delivered
      rw [← horder, List.append_assoc, List.singleton_append]
    | @resend r hfrom hroom =>
      rw [hand_of_resend hfrom, hC.1 rfl, List.append_nil] at horder
      show s.taken ++ [] ++ (s.queue ++ [r]) = s.delivered
      rw [hC.1 rfl, List.append_nil, List.nil_append]
      exact horder
    | @receive r queue hfrom hq =>
      rw [hand_eq_nil (Or.inl hfrom), hq, List.append_nil] at horder
      rw [hand_receive]
      show s.taken ++ [r] ++ [] ++ queue = s.delivered
      rw [← horder, List.append_nil, List.append_assoc, List.singleton_append]
    | sub hfrom =>
      rw [hand_eq_nil (Or.inr (Or.inr hfrom))] at horder
      exact horder
  · cases hmove with
    | submit hcpu hroom => exact h.notStuck
    | count hcpu => exact h.notStuck
    | deliver hr hroom =>
      rintro ⟨hhand, hfull⟩
      have hlt := hC.2 rfl hhand
      rw [List.length_append, List.length_singleton] at hfull
      omega
    | stay hl hfrom hto => exact hfree (hand_of_stay hfrom hto).2
    | @peek _ r queue hl hfrom hq =>
      rintro ⟨-, hfull⟩
      rw [hq, List.length_cons] at hqueue
      have hfull : queueCap ≤ queue.length := hfull
      omega
    | resend hfrom hroom => exact hfree rfl
    | receive hfrom hq => exact hfree (hand_receive _)
    | sub hfrom => exact hfree rfl

/-- An unsafe step goes wrong at once: a record is put behind a later one, or the
consumer is stuck. -/
theorem unsafePeek_breaks {size : RingSize} (s : QueueState) (l : QueueLabel) (s' : QueueState)
    (h : PeekInv size s) (hC : ¬ SafePeek s l) (hstep : queueStep size s l = some s') :
    ¬ (s'.InOrder ∧ ¬ s'.Stuck) := by
  rintro ⟨horder', hnot⟩
  have horder : s.taken ++ s.hand ++ s.queue = s.delivered := h.inOrder
  have hmove := queueMove_of_step hstep
  refine hC ⟨?_, ?_⟩
  · rintro rfl
    cases hmove with
    | stay hl hfrom hto => simp at hl
    | peek hl hfrom hq => simp at hl
    | @resend r hfrom hroom =>
      have horder' : s.taken ++ [] ++ (s.queue ++ [r]) = s.delivered := horder'
      rw [hand_of_resend hfrom] at horder
      rw [← horder, List.append_nil, List.append_assoc, List.append_cancel_left_eq] at horder'
      -- `r` would be both in front of and behind the other records
      by_contra hne
      obtain ⟨x, queue, hq⟩ := List.exists_cons_of_ne_nil hne
      have hnodup : s.delivered.Nodup := List.Nodup.of_map Record.serial (by
        rw [h.serials]
        exact List.nodup_range)
      rw [hq, List.cons_append, List.singleton_append, List.cons.injEq] at horder'
      rw [← horder, hq, horder'.1, List.append_assoc] at hnodup
      have := List.Nodup.of_append_right hnodup
      simp at this
  · rintro rfl hhand
    cases hmove with
    | deliver hr hroom =>
      by_contra hlt
      refine hnot ⟨hhand, ?_⟩
      rw [List.length_append, List.length_singleton]
      omega
    | stay hl hfrom hto => simp at hl
    | peek hl hfrom hq => simp at hl

/-- **Peeking is transparent in exactly the runs of safe peeks.**  For every
interleaving of the poller and the consumer, in all states of the run: nothing
is lost, duplicated or out of order, and no re-send is stuck. -/
theorem peek_transparent_iff (size : RingSize) (ls : List QueueLabel) :
    (∀ s, Visits (queueStep size) .init ls s → s.InOrder ∧ ¬ s.Stuck) ↔
      ∀ s l, Takes (queueStep size) .init ls s l → SafePeek s l :=
  visits_iff_takes (peekInv_init size) (fun _ h => ⟨h.inOrder, h.notStuck⟩) peekInv_step
    unsafePeek_breaks

/-- `n` records are enqueued, counted and delivered. -/
def fillSteps : ℕ → List QueueLabel
  | 0 => []
  | n + 1 => fillSteps n ++ (enqueueSteps 7 ++ [.deliver])

/-- The channel after `n ≤ queueCap` deliveries. -/
theorem run_fillSteps {n : ℕ} (hn : n ≤ queueCap) :
    ∃ s, run (queueStep ringSize) .init (fillSteps n) = some s ∧ s.queue.length = n ∧
      s.ring = [] ∧ s.enqueueing = ∅ ∧ s.consumer = .idle := by
  induction n with
  | zero => exact ⟨_, rfl, rfl, rfl, rfl, rfl⟩
  | succ n ih =>
    obtain ⟨s, hs, hlen, hring, henq, hidle⟩ := ih (by omega)
    have hroom : s.queue.length < queueCap := by omega
    refine ⟨{ s with
      queue := s.queue ++ [⟨s.delivered.length, (recordCtx 7).bytes zeroPad⟩]
      nrQueued := s.nrQueued + 1
      submitted := s.submitted + 1
      delivered := s.delivered ++ [⟨s.delivered.length, (recordCtx 7).bytes zeroPad⟩] },
      ?_, ?_, hring, henq, hidle⟩
    · rw [fillSteps, run_append, hs]
      simp [enqueueSteps, run, queueStep, hring, henq, hroom, ringSize]
    · rw [List.length_append, List.length_singleton, hlen]

/-- Two records change places when the first one is peeked at; and with a full
channel and another record in the ring, the poller fills the place of the peeked
record before the re-send, which then never returns. -/
theorem peek_not_transparent :
    (∃ s, run (queueStep ringSize) .init
        (enqueueSteps 7 ++ enqueueSteps 8 ++ [.deliver, .deliver, .block, .peek, .resend,
          .dequeue, .sub, .dequeue, .sub]) = some s ∧
      s.taken.map Record.serial = [1, 0] ∧ s.delivered.map Record.serial = [0, 1]) ∧
    (∃ s, run (queueStep ringSize) .init
        (fillSteps queueCap ++ (enqueueSteps 8 ++ [.block, .peek, .deliver])) = some s ∧
      s.Stuck ∧ queueStep ringSize s .resend = none) := by
  refine ⟨⟨_, rfl, by decide, by decide⟩, ?_⟩
  obtain ⟨s, hs, hlen, hring, henq, hidle⟩ := run_fillSteps (Nat.le_refl queueCap)
  obtain ⟨r, queue, hq⟩ : ∃ r queue, s.queue = r :: queue := by
    apply List.exists_cons_of_ne_nil
    intro hnil
    rw [hnil] at hlen
    exact absurd hlen (by decide)
  have hshort : queue.length + 1 = queueCap := by rw [← hlen, hq, List.length_cons]
  refine ⟨{ s with
    ring := []
    queue := queue ++ [⟨s.delivered.length, (recordCtx 8).bytes zeroPad⟩]
    nrQueued := s.nrQueued + 1
    consumer := .resend r
    submitted := s.submitted + 1
    delivered := s.delivered ++ [⟨s.delivered.length, (recordCtx 8).bytes zeroPad⟩] }, ?_, ?_, ?_⟩
  · have hroom : queue.length < queueCap := by omega
    rw [run_append, hs]
    simp [enqueueSteps, run, queueStep, hring, henq, hidle, hq, hroom, ringSize]
  · refine ⟨by simp [QueueState.hand], ?_⟩
    rw [List.length_append, List.length_singleton, hshort]
  · simp [queueStep, hshort]

end ScxGoland
