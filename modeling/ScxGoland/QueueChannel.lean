/-
From `goland_enqueue` to `DequeueTask`: the `@queued` ring, the poller and the
channel `s.queue`.

A CPU in `goland_enqueue` submits its record and then increments `nr_queued`;
the poller moves records from the ring to the channel, which holds
`queueCap` of them; one consumer calls `BlockTilReadyForDequeue`,
`ReadyForDequeue` and `DequeueTask` in any order.  The first two look at a
record by receiving it and sending it back, the third decrements `nr_queued`
after it has received a record, but never below zero.

* `QueueMove` — every step of the system, with its guard and its effect;
* `bounded_step`, `sized_step`, `inFlight_step` — what no step changes: the
  capacities, the size of a record, and the balance of records submitted, in
  flight and taken.
-/
import ScxGoland.Records
import ScxGoland.Runs
import Mathlib.Data.Finset.Card

open Runs

namespace ScxGoland

/-! ### The system -/

/-- The capacity of `s.queue`. -/
def queueCap : ℕ := 4096

/-- How many records fit into the `@queued` ring; its size in bytes is a
`u32`. -/
structure RingSize where
  cap : ℕ
  cap_lt : cap < 2 ^ 32

/-- A record in the channel, with the number of its delivery. -/
structure Record where
  serial : ℕ
  data : Bytes
deriving DecidableEq

/-- Where the consumer stands. -/
inductive Consumer where
  | idle
  -- in the `select` of `BlockTilReadyForDequeue`
  | blocked
  -- in the re-send `s.queue <- t` of a peek
  | resend (r : Record)
  -- in `DequeueTask`, before `sub_nr_queued`
  | counting
deriving DecidableEq

structure QueueState where
  ring : List Bytes
  queue : List Record
  nrQueued : UInt64
  -- the CPUs between `bpf_ringbuf_submit` and the increment of `nr_queued`
  enqueueing : Finset ℕ
  consumer : Consumer
  -- the history: records submitted, delivered and taken by `DequeueTask`
  submitted : ℕ
  delivered : List Record
  taken : List Record

def QueueState.init : QueueState := ⟨[], [], 0, ∅, .idle, 0, [], []⟩

/-- The record that a peek has received and not yet sent back. -/
def QueueState.hand (s : QueueState) : List Record :=
  match s.consumer with
  | .resend r => [r]
  | _ => []

/-- `sub_nr_queued` -/
def subNrQueued (nrQueued : UInt64) : UInt64 := if nrQueued ≠ 0 then nrQueued - 1 else nrQueued

inductive QueueLabel where
  -- `goland_enqueue` on a CPU
  | submit (cpu : ℕ) (r : QueuedTaskCtx) (pad : Vector UInt8 4)
  | count (cpu : ℕ)
  -- the poller
  | deliver
  -- `BlockTilReadyForDequeue`: the call, `ctx.Done()`, the receive
  | block
  | cancel
  | peek
  -- `ReadyForDequeue`, up to its re-send
  | ready
  -- the re-send of either
  | resend
  -- `DequeueTask`: the receive, the decrement
  | dequeue
  | sub
deriving DecidableEq

/-- Receive the first record of the channel in `DequeueTask`; a record that does
not decode is not counted. -/
def QueueState.receive (s : QueueState) (r : Record) (queue : List Record) : QueueState :=
  { s with
    queue := queue
    taken := s.taken ++ [r]
    consumer := match fastDecode r.data default with
      | .ok _ => .counting
      | .error _ => .idle }

def queueStep (size : RingSize) (s : QueueState) : QueueLabel → Option QueueState
  | .submit cpu r pad =>
    if cpu ∉ s.enqueueing ∧ s.ring.length < size.cap then
      some { s with
        ring := s.ring ++ [r.bytes pad]
        enqueueing := insert cpu s.enqueueing
        submitted := s.submitted + 1 }
    else none
  | .count cpu =>
    if cpu ∈ s.enqueueing then
      some { s with nrQueued := s.nrQueued + 1, enqueueing := s.enqueueing.erase cpu }
    else none
  | .deliver =>
    match s.ring with
    | [] => none
    | data :: ring =>
      -- a blocking send: the record leaves the ring when the channel takes it
      if s.queue.length < queueCap then
        some { s with
          ring := ring
          queue := s.queue ++ [⟨s.delivered.length, data⟩]
          delivered := s.delivered ++ [⟨s.delivered.length, data⟩] }
      else none
  | .block => if s.consumer = .idle then some { s with consumer := .blocked } else none
  | .cancel => if s.consumer = .blocked then some { s with consumer := .idle } else none
  | .peek =>
    match s.consumer, s.queue with
    | .blocked, r :: queue => some { s with queue := queue, consumer := .resend r }
    | _, _ => none
  | .ready =>
    match s.consumer, s.queue with
    | .idle, r :: queue => some { s with queue := queue, consumer := .resend r }
    | .idle, [] => some s
    | _, _ => none
  | .resend =>
    match s.consumer with
    | .resend r =>
      if s.queue.length < queueCap then
        some { s with queue := s.queue ++ [r], consumer := .idle }
      else none
    | _ => none
  | .dequeue =>
    match s.consumer, s.queue with
    | .idle, r :: queue => some (s.receive r queue)
    | .idle, [] => some s
    | _, _ => none
  | .sub =>
    if s.consumer = .counting then
      some { s with nrQueued := subNrQueued s.nrQueued, consumer := .idle }
    else none

/-! ### What a step can do -/

/-- Every step, with its guard, by its effect on the records. -/
inductive QueueMove (size : RingSize) (s : QueueState) : QueueLabel → QueueState → Prop where
  | submit {cpu r pad} (hcpu : cpu ∉ s.enqueueing) (hroom : s.ring.length < size.cap) :
    QueueMove size s (.submit cpu r pad)
      { s with
        ring := s.ring ++ [r.bytes pad]
        enqueueing := insert cpu s.enqueueing
        submitted := s.submitted + 1 }
  | count {cpu} (hcpu : cpu ∈ s.enqueueing) :
    QueueMove size s (.count cpu)
      { s with nrQueued := s.nrQueued + 1, enqueueing := s.enqueueing.erase cpu }
  | deliver {data ring} (hring : s.ring = data :: ring) (hroom : s.queue.length < queueCap) :
    QueueMove size s .deliver
      { s with
        ring := ring
        queue := s.queue ++ [⟨s.delivered.length, data⟩]
        delivered := s.delivered ++ [⟨s.delivered.length, data⟩] }
  -- the calls and returns that move no record
  | stay {l consumer} (hl : l = .block ∨ l = .cancel ∨ l = .ready ∨ l = .dequeue)
      (hfrom : s.consumer = .idle ∨ s.consumer = .blocked)
      (hto : consumer = .idle ∨ consumer = .blocked) :
    QueueMove size s l { s with consumer := consumer }
  | peek {l r queue} (hl : l = .peek ∨ l = .ready)
      (hfrom : s.consumer = .idle ∨ s.consumer = .blocked) (hqueue : s.queue = r :: queue) :
    QueueMove size s l { s with queue := queue, consumer := .resend r }
  | resend {r} (hfrom : s.consumer = .resend r) (hroom : s.queue.length < queueCap) :
    QueueMove size s .resend { s with queue := s.queue ++ [r], consumer := .idle }
  | receive {r queue} (hfrom : s.consumer = .idle) (hqueue : s.queue = r :: queue) :
    QueueMove size s .dequeue (s.receive r queue)
  | sub (hfrom : s.consumer = .counting) :
    QueueMove size s .sub { s with nrQueued := subNrQueued s.nrQueued, consumer := .idle }

theorem queueMove_of_step {size : RingSize} {s s' : QueueState} {l : QueueLabel}
    (h : queueStep size s l = some s') : QueueMove size s l s' := by
  cases l with
  | submit cpu r pad =>
    simp only [queueStep] at h
    split_ifs at h with hguard
    obtain rfl := Option.some_inj.mp h
    exact .submit hguard.1 hguard.2
  | count cpu =>
    simp only [queueStep] at h
    split_ifs at h with hguard
    obtain rfl := Option.some_inj.mp h
    exact .count hguard
  | deliver =>
    simp only [queueStep] at h
    split at h
    · exact absurd h (by simp)
    · rename_i data ring hring
      split_ifs at h with hroom
      obtain rfl := Option.some_inj.mp h
      exact .deliver hring hroom
  | block =>
    simp only [queueStep] at h
    split_ifs at h with hguard
    obtain rfl := Option.some_inj.mp h
    exact .stay (by simp) (Or.inl hguard) (Or.inr rfl)
  | cancel =>
    simp only [queueStep] at h
    split_ifs at h with hguard
    obtain rfl := Option.some_inj.mp h
    exact .stay (by simp) (Or.inr hguard) (Or.inl rfl)
  | peek =>
    simp only [queueStep] at h
    split at h
    · rename_i r queue hfrom hqueue
      obtain rfl := Option.some_inj.mp h
      exact .peek (Or.inl rfl) (Or.inr hfrom) hqueue
    · exact absurd h (by simp)
  | ready =>
    simp only [queueStep] at h
    split at h
    · rename_i r queue hfrom hqueue
      obtain rfl := Option.some_inj.mp h
      exact .peek (Or.inr rfl) (Or.inl hfrom) hqueue
    · rename_i hfrom _
      obtain rfl := Option.some_inj.mp h
      have hstay : QueueMove size s .ready { s with consumer := s.consumer } :=
        .stay (by simp) (Or.inl hfrom) (Or.inl hfrom)
      exact hstay
    · exact absurd h (by simp)
  | resend =>
    simp only [queueStep] at h
    split at h
    · rename_i r hfrom
      split_ifs at h with hroom
      obtain rfl := Option.some_inj.mp h
      exact .resend hfrom hroom
    · exact absurd h (by simp)
  | dequeue =>
    simp only [queueStep] at h
    split at h
    · rename_i r queue hfrom hqueue
      obtain rfl := Option.some_inj.mp h
      exact .receive hfrom hqueue
    · rename_i hfrom _
      obtain rfl := Option.some_inj.mp h
      have hstay : QueueMove size s .dequeue { s with consumer := s.consumer } :=
        .stay (by simp) (Or.inl hfrom) (Or.inl hfrom)
      exact hstay
    · exact absurd h (by simp)
  | sub =>
    simp only [queueStep] at h
    split_ifs at h with hguard
    obtain rfl := Option.some_inj.mp h
    exact .sub hguard

/-! ### The records in flight -/

theorem QueuedTaskCtx.bytes_length (r : QueuedTaskCtx) (pad : Vector UInt8 4) :
    (r.bytes pad).length = sizeofQueuedTask := by
  simp [QueuedTaskCtx.bytes, s32Bytes_length, u64Bytes_length, sizeofQueuedTask]

section Hand

variable {s : QueueState}

theorem hand_eq_nil (h : s.consumer = .idle ∨ s.consumer = .blocked ∨ s.consumer = .counting) :
    s.hand = [] := by
  rw [QueueState.hand]
  rcases h with h | h | h
  · rw [h]
  · rw [h]
  · rw [h]

theorem hand_of_resend {r : Record} (h : s.consumer = .resend r) : s.hand = [r] := by
  rw [QueueState.hand, h]

/-- A record of the full size is decoded, and `DequeueTask` goes on to count
it. -/
theorem receive_consumer {r : Record} (queue : List Record)
    (hr : r.data.length = sizeofQueuedTask) : (s.receive r queue).consumer = .counting := by
  simp only [QueueState.receive, fastDecode, fastDecodeInto, if_neg (show ¬ r.data.length <
    sizeofQueuedTask by omega)]

end Hand

/-- The records submitted and not yet taken, wherever they are. -/
def QueueState.inFlight (s : QueueState) : ℕ :=
  s.ring.length + s.queue.length + s.hand.length

/-- Both buffers stay within their capacity. -/
structure Bounded (size : RingSize) (s : QueueState) : Prop where
  ring_le : s.ring.length ≤ size.cap
  queue_le : s.queue.length ≤ queueCap

/-- All records have the size of a `struct queued_task_ctx`. -/
structure Sized (s : QueueState) : Prop where
  ring : ∀ data ∈ s.ring, data.length = sizeofQueuedTask
  queue : ∀ r ∈ s.hand ++ s.queue, r.data.length = sizeofQueuedTask

/-- The consumer's hand before and after a step in which it peeks at nothing. -/
theorem hand_of_stay {s : QueueState} {consumer : Consumer}
    (hfrom : s.consumer = .idle ∨ s.consumer = .blocked)
    (hto : consumer = .idle ∨ consumer = .blocked) :
    s.hand = [] ∧ QueueState.hand { s with consumer := consumer } = [] :=
  ⟨hand_eq_nil (by tauto), hand_eq_nil (by tauto)⟩

theorem hand_receive {s : QueueState} {r : Record} (queue : List Record) :
    (s.receive r queue).hand = [] := by
  refine hand_eq_nil ?_
  simp only [QueueState.receive]
  split
  · exact Or.inr (Or.inr rfl)
  · exact Or.inl rfl

theorem bounded_step {size : RingSize} {s s' : QueueState} {l : QueueLabel}
    (h : Bounded size s) (hmove : QueueMove size s l s') : Bounded size s' := by
  obtain ⟨hring, hqueue⟩ := h
  cases hmove with
  | submit hcpu hroom => exact ⟨by rw [List.length_append, List.length_singleton]; omega, hqueue⟩
  | count hcpu => exact ⟨hring, hqueue⟩
  | deliver hr hroom =>
    rw [hr, List.length_cons] at hring
    exact ⟨Nat.le_of_succ_le hring, by rw [List.length_append, List.length_singleton]; omega⟩
  | stay hl hfrom hto => exact ⟨hring, hqueue⟩
  | peek hl hfrom hq =>
    rw [hq, List.length_cons] at hqueue
    exact ⟨hring, Nat.le_of_succ_le hqueue⟩
  | resend hfrom hroom =>
    exact ⟨hring, by rw [List.length_append, List.length_singleton]; omega⟩
  | receive hfrom hq =>
    rw [hq, List.length_cons] at hqueue
    exact ⟨hring, Nat.le_of_succ_le hqueue⟩
  | sub hfrom => exact ⟨hring, hqueue⟩

theorem sized_step {size : RingSize} {s s' : QueueState} {l : QueueLabel} (h : Sized s)
    (hmove : QueueMove size s l s') : Sized s' := by
  obtain ⟨hring, hqueue⟩ := h
  cases hmove with
  | @submit cpu r pad hcpu hroom =>
    refine ⟨fun data hdata => ?_, hqueue⟩
    rcases List.mem_append.mp hdata with hdata | hdata
    · exact hring data hdata
    · rw [List.mem_singleton.mp hdata]
      exact r.bytes_length pad
  | count hcpu => exact ⟨hring, hqueue⟩
  | @deliver data ring hr hroom =>
    rw [hr] at hring
    refine ⟨fun d hd => hring d (List.mem_cons_of_mem _ hd), fun r hmem => ?_⟩
    rcases List.mem_append.mp hmem with hmem | hmem
    · exact hqueue r (List.mem_append_left _ hmem)
    · rcases List.mem_append.mp hmem with hmem | hmem
      · exact hqueue r (List.mem_append_right _ hmem)
      · rw [List.mem_singleton.mp hmem]
        exact hring data List.mem_cons_self
  | stay hl hfrom hto =>
    obtain ⟨hhand, hhand'⟩ := hand_of_stay hfrom hto
    rw [hhand] at hqueue
    exact ⟨hring, by rw [hhand']; exact hqueue⟩
  | peek hl hfrom hq =>
    rw [hand_eq_nil (by tauto), hq] at hqueue
    exact ⟨hring, hqueue⟩
  | @resend r hfrom hroom =>
    rw [hand_of_resend hfrom] at hqueue
    refine ⟨hring, fun r' hmem => ?_⟩
    rcases List.mem_append.mp (show r' ∈ s.queue ++ [r] from hmem) with hmem | hmem
    · exact hqueue r' (List.mem_append_right _ hmem)
    · exact hqueue r' (List.mem_append_left _ hmem)
  | receive hfrom hq =>
    rw [hand_eq_nil (Or.inl hfrom), hq] at hqueue
    refine ⟨hring, ?_⟩
    rw [hand_receive]
    exact fun r' hmem => hqueue r' (List.mem_cons_of_mem _ hmem)
  | sub hfrom =>
    rw [hand_eq_nil (Or.inr (Or.inr hfrom))] at hqueue
    exact ⟨hring, hqueue⟩

/-- A step submits a record, takes one, or moves them around. -/
theorem inFlight_step {size : RingSize} {s s' : QueueState} {l : QueueLabel}
    (hmove : QueueMove size s l s') :
    s'.submitted + s.taken.length + s.inFlight = s.submitted + s'.taken.length + s'.inFlight := by
  rw [QueueState.inFlight, QueueState.inFlight]
  cases hmove with
  | submit hcpu hroom =>
    show s.submitted + 1 + s.taken.length + (s.ring.length + s.queue.length + s.hand.length) =
      s.submitted + s.taken.length + ((s.ring ++ [_]).length + s.queue.length + s.hand.length)
    rw [List.length_append, List.length_singleton]
    omega
  | count hcpu => rfl
  | @deliver data ring hr hroom =>
    show s.submitted + s.taken.length + (s.ring.length + s.queue.length + s.hand.length) =
      s.submitted + s.taken.length + (ring.length + (s.queue ++ [_]).length + s.hand.length)
    rw [hr, List.length_cons, List.length_append, List.length_singleton]
    omega
  | stay hl hfrom hto =>
    obtain ⟨hhand, hhand'⟩ := hand_of_stay hfrom hto
    rw [hhand, hhand']
  | @peek _ r queue hl hfrom hq =>
    rw [hand_eq_nil (by tauto), hq]
    show s.submitted + s.taken.length + (s.ring.length + (queue.length + 1) + 0) =
      s.submitted + s.taken.length + (s.ring.length + queue.length + 1)
    omega
  | resend hfrom hroom =>
    rw [hand_of_resend hfrom]
    show s.submitted + s.taken.length + (s.ring.length + s.queue.length + 1) =
      s.submitted + s.taken.length + (s.ring.length + (s.queue ++ [_]).length + 0)
    rw [List.length_append, List.length_singleton]
    omega
  | @receive r queue hfrom hq =>
    rw [hand_eq_nil (Or.inl hfrom), hand_receive, hq]
    show s.submitted + s.taken.length + (s.ring.length + (queue.length + 1) + 0) =
      s.submitted + (s.taken ++ [r]).length + (s.ring.length + queue.length + 0)
    rw [List.length_append, List.length_singleton]
    omega
  | sub hfrom =>
    rw [hand_eq_nil (Or.inr (Or.inr hfrom))]
    rfl

/-! ### Concrete runs -/

/-- The ring of `main.bpf.c`: 512 KiB, 80 bytes a record. -/
def ringSize : RingSize := ⟨6553, by decide⟩

/-- A record of task `pid`. -/
def recordCtx (pid : Int32) : QueuedTaskCtx := ⟨pid, 0, 1, 0, 0, 0, 0, 100, 1, pid⟩

def zeroPad : Vector UInt8 4 := Vector.replicate 4 0

/-- `goland_enqueue` on CPU 0, in one go. -/
def enqueueSteps (pid : Int32) : List QueueLabel := [.submit 0 (recordCtx pid) zeroPad, .count 0]

end ScxGoland
