/-
The shipped policy, running against the BPF program.

`Coupled` puts the goroutine of `main` beside the world of the kernel: what the
goroutine sends on `s.dispatch` goes through the `Reader` of that channel, a part of
`libbpfgo`, into the user ring, and from there to `dispatch_task`.  The records that
reach the goroutine are arbitrary, as long as they are sane; so are the kernel's tasks
and its own copy of the counters.

* `saneUser_step` — with sane records the goroutine divides by zero nowhere, and
  holds, sends and has sent records of ordinary priority and of a slice between
  `SLICE_NS_MIN` and `SLICE_NS_DEFAULT` only;
* `unboosted_step` — with such records in the user ring `priority_tasks` stays
  empty;
* `policy_grants_no_priority` — both, in every run of the two halves.
-/
import ScxGoland.PriorityMap
import ScxGoland.TaskBalance
import ScxGoland.VirtualTime

open Runs

namespace ScxGoland

variable {m : Machine}

/-! ### The two halves -/

/-- What `libbpfgo` starts to read `s.dispatch`, and what it is between its steps. -/
structure Reader where
  Held : Type
  start : Held
  -- a record is received from the channel
  receive : Held → Bytes → Held
  -- with so many bytes free in the user ring, samples are written into it
  write : Held → ℕ → Held × List Bytes
  -- the records received and not yet written
  pending : Held → List Bytes

/-- The reader writes nothing but what it has received. -/
structure Reader.Relays (rd : Reader) : Prop where
  start : rd.pending rd.start = []
  receive : ∀ held data, rd.pending (rd.receive held data) ⊆ rd.pending held ++ [data]
  write : ∀ held free,
    (rd.write held free).2 ++ rd.pending (rd.write held free).1 ⊆ rd.pending held

/-- The reader is a queue: what it has received is written in order, and nothing is
left out. -/
structure Reader.Forwards (rd : Reader) : Prop where
  start : rd.pending rd.start = []
  receive : ∀ held data, rd.pending (rd.receive held data) = rd.pending held ++ [data]
  write : ∀ held free,
    (rd.write held free).2 ++ rd.pending (rd.write held free).1 = rd.pending held

structure Coupled (m : Machine) (rd : Reader) where
  user : SchedState
  held : rd.Held
  world : World m

def Coupled.init (rd : Reader) (w : World m) : Coupled m rd := ⟨.init, rd.start, w⟩

inductive CoupledLabel (m : Machine) where
  | user (l : SchedLabel)
  -- the reader of `s.dispatch` writes into the user ring
  | write (free : ℕ)
  | kernel (l : Label m)
  -- `sub_nr_queued` is not atomic: it may overwrite increments
  | lose (nrQueued : UInt64)

/-- Nobody but the reader of `s.dispatch` writes into the user ring. -/
def coupledStep (size : RingSize) (ro : Rodata) {rd : Reader} (s : Coupled m rd) :
    CoupledLabel m → Option (Coupled m rd)
  | .user .receive => s.user.dispatch.head?.bind fun data =>
    (schedStep size s.user .receive).map fun u =>
      { s with user := u, held := rd.receive s.held data }
  | .user l => (schedStep size s.user l).map fun u => { s with user := u }
  | .write free =>
    let r := rd.write s.held free
    some { s with
      held := r.1
      world := { s.world with dispatched := s.world.dispatched ++ r.2 } }
  | .kernel (.push _) => none
  | .kernel l => (step ro s.world l).map fun w => { s with world := w }
  | .lose n =>
    if n ≤ s.user.q.nrQueued then
      some { s with user := { s.user with q := { s.user.q with nrQueued := n } } }
    else none

/-- The records handed to `DispatchTask`: those sent, and the one it is called
with. -/
def SchedState.handed (s : SchedState) : List DispatchedTask :=
  s.sent.map Prod.snd ++ match s.pc with
    | .dispatch _ d | .send _ d => [d]
    | _ => []

/-- No priority by accident, a sane slice, no division by zero. -/
structure Coupled.Sane {rd : Reader} (s : Coupled m rd) : Prop where
  noPanic : s.user.pc ≠ .panicked
  nrWaiting : s.user.q.nrQueued + s.user.nrScheduled + 1 ≠ 0
  handed : ∀ d ∈ s.user.handed, d.vtime ≠ 0 ∧ 500000 ≤ d.sliceNs ∧ d.sliceNs ≤ 5000000
  unboosted : ∀ pid, s.world.priorityTasks.lookup pid = none

/-! ### The records on their way to the goroutine -/

/-- The bytes are a sane record. -/
def SaneBytes (data : Bytes) : Prop := ∃ t, fastDecode data default = .ok t ∧ SaneRecord t

/-- All records are sane, and `nr_queued` counts at most those submitted. -/
structure SaneQueue (q : QueueState) : Prop where
  ring : ∀ data ∈ q.ring, SaneBytes data
  queue : ∀ r ∈ q.queue, SaneBytes r.data
  hand : ∀ r, q.consumer = .resend r → SaneBytes r.data
  counted : q.nrQueued.toNat + q.enqueueing.card ≤ q.submitted
  few : q.submitted < 2 ^ 63

theorem toNat_subNrQueued_le (n : UInt64) : (subNrQueued n).toNat ≤ n.toNat := by
  rw [subNrQueued]
  split_ifs with hn
  · have hpos : 1 ≤ n.toNat := Nat.one_le_iff_ne_zero.mpr fun h => hn (UInt64.toNat_inj.mp h)
    have hsub := UInt64.toNat_sub_of_le n 1 (UInt64.le_iff_toNat_le.mpr hpos)
    omega
  · exact le_rfl

theorem saneQueue_step {size : RingSize} {q q' : QueueState} {l : QueueLabel} (h : SaneQueue q)
    (hsub : ∀ cpu r pad, l = .submit cpu r pad → SaneRecord r.decoded)
    (hfew : q'.submitted < 2 ^ 63) (hmove : QueueMove size q l q') : SaneQueue q' := by
  have hcount := h.counted
  cases hmove with
  | @submit cpu r pad hcpu hroom =>
    refine ⟨fun data hdata => ?_, h.queue, h.hand, ?_, hfew⟩
    · rcases List.mem_append.mp hdata with hold | hnew
      · exact h.ring data hold
      · rw [List.mem_singleton.mp hnew]
        exact ⟨r.decoded, fastDecode_decoded r pad default, hsub cpu r pad rfl⟩
    · show q.nrQueued.toNat + (insert cpu q.enqueueing).card ≤ q.submitted + 1
      rw [Finset.card_insert_of_notMem hcpu]
      omega
  | @count cpu hcpu =>
    refine ⟨h.ring, h.queue, h.hand, ?_, hfew⟩
    have hpos := Finset.card_pos.mpr ⟨cpu, hcpu⟩
    have hinc : (q.nrQueued + 1).toNat = q.nrQueued.toNat + 1 := by
      have hfew' := h.few
      exact toNat_add_of_lt (show q.nrQueued.toNat + 1 < 2 ^ 64 by omega)
    show (q.nrQueued + 1).toNat + (q.enqueueing.erase cpu).card ≤ q.submitted
    rw [hinc, Finset.card_erase_of_mem hcpu]
    omega
  | @deliver data ring hring hroom =>
    refine ⟨fun d hd => h.ring d (by rw [hring]; exact List.mem_cons_of_mem _ hd), fun r hr => ?_,
      h.hand, hcount, hfew⟩
    rcases List.mem_append.mp hr with hold | hnew
    · exact h.queue r hold
    · rw [List.mem_singleton.mp hnew]
      exact h.ring data (by rw [hring]; exact List.mem_cons_self)
  | stay hl hfrom hto =>
    refine ⟨h.ring, h.queue, fun r hr => ?_, hcount, hfew⟩
    rcases hto with rfl | rfl <;> exact absurd hr (by simp)
  | @peek _ r queue hl hfrom hqueue =>
    refine ⟨h.ring, fun r' hr' => h.queue r' (by rw [hqueue]; exact List.mem_cons_of_mem _ hr'),
      fun r' hr' => ?_, hcount, hfew⟩
    obtain rfl := Consumer.resend.inj hr'
    exact h.queue r (by rw [hqueue]; exact List.mem_cons_self)
  | @resend r hfrom hroom =>
    refine ⟨h.ring, fun r' hr' => ?_, fun r' hr' => absurd hr' (by simp), hcount, hfew⟩
    rcases List.mem_append.mp hr' with hold | hnew
    · exact h.queue r' hold
    · rw [List.mem_singleton.mp hnew]
      exact h.hand r hfrom
  | @receive r queue hfrom hqueue =>
    refine ⟨h.ring, fun r' hr' => h.queue r' (by rw [hqueue]; exact List.mem_cons_of_mem _ hr'),
      fun r' hr' => ?_, hcount, hfew⟩
    rcases hdec : fastDecode r.data default with err | t
    · simp only [QueueState.receive, hdec] at hr'
      exact absurd hr' (by simp)
    · simp only [QueueState.receive, hdec] at hr'
      exact absurd hr' (by simp)
  | sub hfrom =>
    refine ⟨h.ring, h.queue, fun r hr => absurd hr (by simp), ?_, hfew⟩
    have hle := toNat_subNrQueued_le q.nrQueued
    show (subNrQueued q.nrQueued).toNat + q.enqueueing.card ≤ q.submitted
    omega

/-- A consumer that holds no record. -/
theorem SaneQueue.of_consumer {q : QueueState} (h : SaneQueue q) {c : Consumer}
    (hc : ∀ r, c ≠ .resend r) : SaneQueue { q with consumer := c } :=
  ⟨h.ring, h.queue, fun r hr => absurd hr (hc r), h.counted, h.few⟩

/-- `DequeueTask` yields a sane record, or none. -/
theorem SaneQueue.dequeue {q : QueueState} (h : SaneQueue q) :
    SaneQueue (dequeueTask q).2 ∧
      ((dequeueTask q).1.pid ≠ -1 → SaneRecord (dequeueTask q).1) := by
  rw [dequeueTask]
  split
  · exact ⟨h, fun hpid => absurd rfl hpid⟩
  · rename_i r queue hqueue
    obtain ⟨t, ht, hsane⟩ := h.queue r (by rw [hqueue]; exact List.mem_cons_self)
    rw [ht]
    refine ⟨⟨h.ring, fun r' hr' => h.queue r' (by rw [hqueue]; exact List.mem_cons_of_mem _ hr'),
      fun r' hr' => absurd hr' (by simp), ?_, h.few⟩, fun _ => hsane⟩
    have hcount := h.counted
    have hle := toNat_subNrQueued_le q.nrQueued
    show (subNrQueued q.nrQueued).toNat + q.enqueueing.card ≤ q.submitted
    omega

/-! ### The goroutine -/

/-- A record of ordinary priority, with a slice of the policy. -/
structure Fit (d : DispatchedTask) : Prop where
  vtime : d.vtime ≠ 0
  slice_ge : 500000 ≤ d.sliceNs
  slice_le : d.sliceNs ≤ 5000000

/-- The goroutine divides by zero nowhere, and everything it holds is fit. -/
structure SaneUser (s : SchedState) : Prop where
  queue : SaneQueue s.q
  pool : ∃ held, Pooled s.user.pool held ∧ ∀ t ∈ held, t.queuedTask.vtime ≠ 0
  lead : s.user.minVruntime.toNat < 2 ^ 63
  scheduled : s.nrScheduled.toNat < taskPoolSize
  alive : s.pc ≠ .panicked
  hand : ∀ t ∈ s.pc.hand, t.vtime ≠ 0
  handed : ∀ d ∈ s.handed, Fit d
  dispatch : ∀ data ∈ s.dispatch, ∃ d, data = fastEncode d ∧ Fit d

theorem nrWaiting_toNat {s : SchedState} (h : SaneUser s) :
    (s.q.nrQueued + s.nrScheduled + 1).toNat = s.q.nrQueued.toNat + s.nrScheduled.toNat + 1 := by
  have hcount := h.queue.counted
  have hfew := h.queue.few
  have hsched : s.nrScheduled.toNat < 4096 := h.scheduled
  have hsum := toNat_add_of_lt (a := s.q.nrQueued) (b := s.nrScheduled) (by omega)
  have hone : (1 : UInt64).toNat = 1 := rfl
  rw [toNat_add_of_lt (by rw [hsum, hone]; omega), hsum, hone]

theorem nrWaiting_ne_zero {s : SchedState} (h : SaneUser s) :
    s.q.nrQueued + s.nrScheduled + 1 ≠ 0 := by
  intro hzero
  have hnat := nrWaiting_toNat h
  rw [hzero] at hnat
  exact absurd hnat (by show (0 : ℕ) ≠ _; omega)

/-- The slice of the policy, for any number of waiting tasks. -/
theorem slice_bounds (n : UInt64) :
    500000 ≤ max (sliceNsDefault / n) sliceNsMin ∧ max (sliceNsDefault / n) sliceNsMin ≤ 5000000 := by
  have hdiv : (sliceNsDefault / n).toNat ≤ 5000000 := by
    rw [UInt64.toNat_div]
    exact Nat.div_le_self _ _
  have hmax : max (sliceNsDefault / n) sliceNsMin =
      if sliceNsDefault / n ≤ sliceNsMin then sliceNsMin else sliceNsDefault / n := rfl
  have hmin : sliceNsMin = 500000 := rfl
  rw [hmax, hmin]
  split_ifs with hle
  · exact ⟨UInt64.le_refl _, by decide⟩
  · rw [UInt64.le_iff_toNat_le] at hle
    refine ⟨UInt64.le_iff_toNat_le.mpr (by omega), UInt64.le_iff_toNat_le.mpr hdiv⟩

/-- The program counter moves, and nothing else changes. -/
theorem SaneUser.of_pc {s : SchedState} (h : SaneUser s) {pc : Pc} (hpc : pc ≠ .panicked)
    (hhand : ∀ t ∈ pc.hand, t.vtime ≠ 0)
    (hnext : ∀ d ∈ ({ s with pc := pc } : SchedState).handed, Fit d) :
    SaneUser { s with pc := pc } :=
  ⟨h.queue, h.pool, h.lead, h.scheduled, hpc, hhand, hnext, h.dispatch⟩

/-- The records sent are those handed over, at a program counter without one. -/
theorem SaneUser.sent {s : SchedState} (h : SaneUser s) : ∀ d ∈ s.sent.map Prod.snd, Fit d :=
  fun d hd => h.handed d (List.mem_append_left _ hd)

theorem SaneUser.of_idle {s : SchedState} (h : SaneUser s) {pc : Pc}
    (hpc : pc = .head ∨ pc = .refill ∨ pc = .blocking ∨ pc = .notify ∨ ∃ n, pc = .drain n) :
    SaneUser { s with pc := pc } := by
  have hsent := h.sent
  rcases hpc with rfl | rfl | rfl | rfl | ⟨n, rfl⟩ <;>
    exact h.of_pc (by simp) (by simp [Pc.hand]) (by simpa [SchedState.handed] using hsent)

/-- The queue changes, and nothing else. -/
theorem SaneUser.of_queue {s : SchedState} (h : SaneUser s) {q : QueueState} (hq : SaneQueue q) :
    SaneUser { s with q := q } :=
  ⟨hq, h.pool, h.lead, h.scheduled, h.alive, h.hand, h.handed, h.dispatch⟩

theorem SaneUser.drained {s : SchedState} (h : SaneUser s) (num : ℕ) :
    SaneUser (afterDrain num s) := by
  rw [afterDrain]
  split_ifs
  · exact (h.of_queue (h.queue.of_consumer (by simp))).of_idle (by simp)
  · exact h.of_idle (by simp)

/-- A sane record is placed and charged without a panic, at a vtime that is not
`0`. -/
theorem SaneRecord.charged {minVruntime : UInt64} {t : QueuedTask} (h : SaneRecord t)
    (hlead : minVruntime.toNat < 2 ^ 63) :
    ∃ u deadline lead, updatedEnqueueTask minVruntime t = some (u, deadline, lead) ∧
      u.vtime ≠ 0 ∧ lead.toNat < 2 ^ 63 := by
  obtain ⟨vtime, deadline, lead, hu, hvtime, -, hlead'⟩ :=
    updatedEnqueueTask_spec (fun _ => h.weight_ne) (h.fits hlead)
  refine ⟨_, deadline, lead, hu, fun hzero => ?_, ?_⟩
  · have hpos : 0 < placed minVruntime t := h.placed_pos
    rw [show vtime = 0 from hzero] at hvtime
    have hnat : (0 : UInt64).toNat = 0 := rfl
    omega
  · have hv := h.vtime_lt
    rw [leadVtime] at hlead'
    omega

/-- One iteration of `DrainQueuedTask`. -/
theorem saneUser_drain {s : SchedState} (h : SaneUser s) (count : ℕ) :
    SaneUser (drainStep count s) := by
  obtain ⟨hq, hrecord⟩ := h.queue.dequeue
  rw [drainStep]
  by_cases hroom : s.user.pool.hasRoom
  · rw [if_pos hroom]
    dsimp only
    by_cases hpid : (dequeueTask s.q).1.pid = -1
    · rw [if_pos hpid]
      exact (h.of_queue hq).drained count
    · obtain ⟨held, hpooled, hvtimes⟩ := h.pool
      obtain ⟨u, deadline, lead, hu, hvtime, hlead⟩ := (hrecord hpid).charged h.lead
      have hone : drainOne (dequeueTask s.q).1 s.user = some (⟨u, deadline, 0⟩,
          (insertTaskToPool ⟨u, deadline, 0⟩ s.user.pool).1,
          ⟨(insertTaskToPool ⟨u, deadline, 0⟩ s.user.pool).2, lead⟩) := by
        rw [drainOne, hu]
        rfl
      have hpooled' := (hpooled.drainOne hroom hpid hone).2
      rw [if_neg hpid, hone]
      refine ⟨hq, ⟨_, hpooled', fun t ht => ?_⟩, hlead, h.scheduled, by simp, by simp [Pc.hand],
        by simpa [SchedState.handed] using h.sent, h.dispatch⟩
      rcases List.mem_append.mp ht with hold | hnew
      · exact hvtimes t hold
      · rw [List.mem_singleton.mp hnew]
        exact hvtime
  · rw [if_neg hroom]
    exact h.drained 0

/-- The record for a task from the pool. -/
theorem saneUser_select {size : RingSize} {s s' : SchedState} {o : Outcome} {t : QueuedTask}
    (h : SaneUser s) (hpc : s.pc = .select t) (hstep : goStep size o s = some s') :
    SaneUser s' := by
  have ht : t.vtime ≠ 0 := h.hand t (by rw [hpc]; exact List.mem_singleton_self t)
  rw [goStep, hpc] at hstep
  dsimp only at hstep
  rw [dispatchRecord] at hstep
  dsimp only at hstep
  rw [if_neg (nrWaiting_ne_zero h)] at hstep
  obtain rfl := Option.some_inj.mp hstep
  refine h.of_pc (by simp) (by simpa [Pc.hand] using ht) fun d hd => ?_
  rcases List.mem_append.mp hd with hold | hnew
  · exact h.sent d hold
  · rw [List.mem_singleton.mp hnew]
    obtain ⟨hge, hle⟩ := slice_bounds (s.q.nrQueued + s.nrScheduled + 1)
    exact ⟨ht, hge, hle⟩

theorem saneUser_step {size : RingSize} {s s' : SchedState} {l : SchedLabel} (h : SaneUser s)
    (hsub : ∀ cpu r pad, l = .submit cpu r pad → SaneRecord r.decoded)
    (hfew : s'.q.submitted < 2 ^ 63) (hstep : schedStep size s l = some s') : SaneUser s' := by
  -- the two steps that may panic need more than `SchedMove` says
  by_cases hsel : ∃ o t, l = .go o ∧ s.pc = .select t
  · obtain ⟨o, t, rfl, hpc⟩ := hsel
    exact saneUser_select h hpc hstep
  by_cases hdr : ∃ o count, l = .go o ∧ s.pc = .drain count
  · obtain ⟨o, count, rfl, hpc⟩ := hdr
    rw [schedStep, goStep, hpc] at hstep
    obtain rfl := Option.some_inj.mp hstep
    exact saneUser_drain h count
  cases schedMove_of_step hstep with
  | submit hq =>
    refine h.of_queue (saneQueue_step h.queue (fun cpu r pad heq => ?_) hfew (queueMove_of_step hq))
    obtain ⟨rfl, rfl, rfl⟩ := QueueLabel.submit.inj heq
    exact hsub _ _ _ rfl
  | count hq =>
    exact h.of_queue (saneQueue_step h.queue (by simp) hfew (queueMove_of_step hq))
  | deliver hq =>
    exact h.of_queue (saneQueue_step h.queue (by simp) hfew (queueMove_of_step hq))
  | receive hd =>
    exact ⟨h.queue, h.pool, h.lead, h.scheduled, h.alive, h.hand, h.handed,
      fun data hdata => h.dispatch data (by rw [hd]; exact List.mem_cons_of_mem _ hdata)⟩
  | getNil hpc hget => exact h.of_idle (by simp)
  | get hpc hget hpid =>
    obtain ⟨held, hpooled, hvtimes⟩ := h.pool
    obtain ⟨-, hmem, ht, hpooled'⟩ := hpooled.get hget
    refine ⟨h.queue, ⟨_, hpooled', fun t ht => hvtimes t (List.mem_of_mem_erase ht)⟩, h.lead,
      h.scheduled, by simp, ?_, by simpa [SchedState.handed] using h.sent, h.dispatch⟩
    intro t' ht'
    rw [List.mem_singleton.mp ht', ht]
    exact hvtimes _ hmem
  | getInvalid hpc hget hpid =>
    obtain ⟨held, hpooled, hvtimes⟩ := h.pool
    exact absurd hpid (hpooled.get hget).1
  | refill hpc hto =>
    rcases hto with rfl | rfl
    · exact h.of_idle (by simp)
    · exact h.of_idle (by simp)
  | drained hpc hroom hpid hone => exact absurd ⟨_, _, rfl, hpc⟩ hdr
  | drainPanics hpc => exact absurd ⟨_, _, rfl, hpc⟩ hdr
  | drainEmpty hpc hroom hpid => exact absurd ⟨_, _, rfl, hpc⟩ hdr
  | drainFull hpc hroom => exact absurd ⟨_, _, rfl, hpc⟩ hdr
  | peek hpc hq =>
    exact h.of_queue (saneQueue_step h.queue (by simp) hfew (queueMove_of_step hq))
  | resend hpc hq =>
    have hq' := h.of_queue (saneQueue_step h.queue (by simp) hfew (queueMove_of_step hq))
    exact hq'.of_idle (by simp)
  | select hpc hpid => exact absurd ⟨_, _, rfl, hpc⟩ hsel
  | selectPanics hpc => exact absurd ⟨_, _, rfl, hpc⟩ hsel
  | @dispatch _ t d hpc hok =>
    refine h.of_pc (by simp) ?_ fun d' hd' => h.handed d' ?_
    · intro t' ht'
      exact h.hand t' (by rw [hpc]; exact ht')
    · rw [SchedState.handed, hpc]
      exact hd'
  | dispatchFails hpc herr => exact h.of_idle (by simp)
  | @send _ t d hpc =>
    have hd : Fit d := h.handed d (by
      rw [SchedState.handed, hpc]
      exact List.mem_append_right _ (List.mem_singleton_self d))
    refine ⟨h.queue, h.pool, h.lead, h.scheduled, by simp, by simp [Pc.hand], fun d' hd' => ?_,
      fun data hdata => ?_⟩
    · rw [SchedState.handed, List.append_nil, List.map_append] at hd'
      rcases List.mem_append.mp hd' with hold | hnew
      · exact h.sent d' hold
      · rw [List.mem_singleton.mp hnew]
        exact hd
    · rcases List.mem_append.mp hdata with hold | hnew
      · exact h.dispatch data hold
      · exact ⟨d, List.mem_singleton.mp hnew, hd⟩
  | notify hpc =>
    obtain ⟨held, hpooled, hvtimes⟩ := h.pool
    have hsched : (UInt64.ofInt s.user.pool.count).toNat < taskPoolSize := by
      rw [hpooled.toNat_ofInt_count]
      exact hpooled.inv.length_lt
    exact ⟨h.queue, ⟨held, hpooled, hvtimes⟩, h.lead, hsched, by simp, by simp [Pc.hand],
      by simpa [SchedState.handed] using h.sent, h.dispatch⟩

theorem saneUser_init : SaneUser .init := by
  refine ⟨⟨by simp [SchedState.init, QueueState.init], by simp [SchedState.init, QueueState.init],
    by simp [SchedState.init, QueueState.init], by decide, by decide⟩,
    ⟨[], ⟨PoolInv.empty, by simp⟩, by simp⟩, by decide, by decide, by decide, ?_, ?_, ?_⟩
  · simp [SchedState.init, Pc.hand]
  · simp [SchedState.init, SchedState.handed]
  · simp [SchedState.init]

/-! ### The BPF program -/

/-- `priority_tasks` is empty, and no record in the user ring will change that. -/
structure Unboosted (w : World m) : Prop where
  map : ∀ pid, w.priorityTasks.lookup pid = none
  ring : ∀ data ∈ w.dispatched, ∀ task, dynptrData data = some task → task.vtime ≠ 0

theorem Unboosted.of_eq {w w' : World m} (h : Unboosted w)
    (hmap : w'.priorityTasks = w.priorityTasks) (hring : w'.dispatched = w.dispatched) :
    Unboosted w' := ⟨by rw [hmap]; exact h.map, by rw [hring]; exact h.ring⟩

theorem Unboosted.of_quiet {w w' : World m} (h : Unboosted w) (hq : Quiet w w') : Unboosted w' :=
  h.of_eq hq.priorityTasks hq.dispatched

/-- A record of ordinary priority takes its pid out of the map at most. -/
theorem lookup_dispatchTask (env : Env m) {task : DispatchedTaskCtx} (hv : task.vtime ≠ 0)
    {w : World m} (hw : ∀ pid, w.priorityTasks.lookup pid = none) (pid : UInt32) :
    (dispatchTask env none task w).priorityTasks.lookup pid = none := by
  rcases hp : w.tasks.find task.pid with _ | p
  · rw [dispatchTask_dead env task none hp]
    exact hw pid
  · rw [dispatchTask_priorityTasks env hp, if_neg hv]
    split_ifs
    · rw [BoundedMap.lookup_delete]
      split_ifs
      · rfl
      · exact hw pid
    · exact hw pid

/-- A drain leaves the map empty. -/
theorem lookup_drain (env : Env m) {records : List (Sample m)}
    (hrecords : ∀ s ∈ records, s.race = none ∧ ∀ task, dynptrData s.data = some task →
      task.vtime ≠ 0) {w : World m} (hw : ∀ pid, w.priorityTasks.lookup pid = none) (pid : UInt32) :
    (bpfUserRingbufDrain (handleDispatchedTask env) records w).world.priorityTasks.lookup pid =
      none := by
  refine drain_rule (P := fun w => ∀ pid, w.priorityTasks.lookup pid = none)
    (fun s hs w hw => ?_) hw pid
  obtain ⟨hrace, hvtime⟩ := hrecords s hs
  rw [handleDispatchedTask]
  split
  · exact hw
  · rename_i task htask
    rw [hrace]
    exact lookup_dispatchTask env (hvtime task htask) hw

theorem Unboosted.drainDispatched {w : World m} (h : Unboosted w) (env : Env m) :
    Unboosted (drainDispatched env (fun _ => none) w) := by
  have hrecords : ∀ s ∈ w.dispatched.mapIdx fun _ data => (⟨data, none⟩ : Sample m),
      s.race = none ∧ ∀ task, dynptrData s.data = some task → task.vtime ≠ 0 := by
    intro s hs
    obtain ⟨i, hi, rfl⟩ := List.mem_mapIdx.mp hs
    exact ⟨rfl, h.ring _ (List.getElem_mem hi)⟩
  exact ⟨lookup_drain env hrecords h.map, fun data hdata => h.ring data
    (mem_of_mem_drainDispatched hdata)⟩

theorem unboosted_dispatch (ro : Rodata) (env : Env m) (cpu : Cpu m) (prev : Option Int32)
    {w : World m} (h : Unboosted w) :
    Unboosted (golandDispatch ro env (fun _ => none) cpu prev w) := by
  refine golandDispatch_keeps (fun w h => ?_) (fun w h => h.drainDispatched env)
    (fun w h => h.of_quiet (Quiet.cpuToDsq w _)) (fun w dsq h => h.of_eq rfl rfl)
    (fun w h => ?_) h
  · rw [dispatchUserScheduler]
    split
    · exact h.of_eq rfl rfl
    · refine h.of_eq (insert_priorityTasks _ _ _) ?_
      rw [World.scxBpfDsqInsert, World.insert]
      dsimp only
      split_ifs <;> rfl
  · rw [keepRunning]
    split_ifs
    · exact h.of_eq rfl rfl
    · split
      · exact h
      · split_ifs
        · exact h.of_eq rfl rfl
        · exact h

theorem unboosted_step {ro : Rodata} {w w' : World m} {l : Label m} (h : Unboosted w)
    (hpush : ∀ data, l ≠ .push data) (hstep : step ro w l = some w') : Unboosted w' := by
  by_cases hl : l.keepsPriority = true
  · have hnot : ∀ env cpu prev, l ≠ .dispatch env cpu prev := by
      rintro env cpu prev rfl
      exact absurd hl (by simp [Label.keepsPriority])
    exact h.of_eq (step_priorityTasks hl hstep) (step_dispatched hpush hnot hstep)
  · cases l with
    | dispatch env cpu prev =>
      obtain rfl := Option.some_inj.mp hstep
      exact unboosted_dispatch ro env cpu prev h
    | exitTask pid =>
      obtain ⟨p, -, rfl⟩ := Option.map_eq_some_iff.mp hstep
      refine ⟨fun q => ?_, h.ring⟩
      show (w.priorityTasks.delete p.pid.toUInt32).lookup q = none
      rw [BoundedMap.lookup_delete]
      split_ifs
      · rfl
      · exact h.map q
    | _ => exact absurd rfl hl

/-! ### Both halves -/

/-- The step is an enqueue that submits a record. -/
def CoupledLabel.isSubmit : CoupledLabel m → Bool
  | .user (.submit _ _ _) => true
  | _ => false

theorem submitted_queueStep {size : RingSize} {q q' : QueueState} {l : QueueLabel}
    (hl : ∀ cpu r pad, l ≠ .submit cpu r pad) (h : queueStep size q l = some q') :
    q'.submitted = q.submitted := by
  cases queueMove_of_step h with
  | submit hcpu hroom => exact absurd rfl (hl _ _ _)
  | _ => rfl

theorem submitted_dequeueTask (q : QueueState) : (dequeueTask q).2.submitted = q.submitted := by
  rw [dequeueTask]
  split
  · rfl
  · split <;> rfl

theorem submitted_afterDrain (num : ℕ) (s : SchedState) :
    (afterDrain num s).q.submitted = s.q.submitted := by
  rw [afterDrain]
  split_ifs <;> rfl

theorem submitted_schedStep {size : RingSize} {s s' : SchedState} {l : SchedLabel}
    (hl : ∀ cpu r pad, l ≠ .submit cpu r pad) (h : schedStep size s l = some s') :
    s'.q.submitted = s.q.submitted := by
  cases schedMove_of_step h with
  | submit hq => exact absurd rfl (hl _ _ _)
  | count hq => exact submitted_queueStep (by simp) hq
  | deliver hq => exact submitted_queueStep (by simp) hq
  | peek hpc hq => exact submitted_queueStep (by simp) hq
  | resend hpc hq => exact submitted_queueStep (by simp) hq
  | drained hpc hroom hpid hone => exact submitted_dequeueTask s.q
  | drainPanics hpc => exact submitted_dequeueTask s.q
  | drainEmpty hpc hroom hpid =>
    exact (submitted_afterDrain _ _).trans (submitted_dequeueTask s.q)
  | drainFull hpc hroom => exact submitted_afterDrain _ _
  | _ => rfl

section Runs

variable {size : RingSize} {ro : Rodata} {rd : Reader} {s s' : Coupled m rd}

/-- The reader receives what the channel has first. -/
theorem coupledStep_receive (h : coupledStep size ro s (.user .receive) = some s') :
    ∃ data u, schedStep size s.user .receive = some u ∧ s.user.dispatch = data :: u.dispatch ∧
      { s with user := u, held := rd.receive s.held data } = s' := by
  obtain ⟨data, hdata, h⟩ := Option.bind_eq_some_iff.mp h
  obtain ⟨u, hu, rfl⟩ := Option.map_eq_some_iff.mp h
  refine ⟨data, u, hu, ?_, rfl⟩
  cases schedMove_of_step hu with
  | receive hd =>
    rw [hd, List.head?_cons, Option.some_inj] at hdata
    rw [hd, hdata]

/-- The other steps of user space leave the reader alone. -/
theorem coupledStep_user {l : SchedLabel} (hl : l ≠ .receive)
    (h : coupledStep size ro s (.user l) = some s') :
    ∃ u, schedStep size s.user l = some u ∧ { s with user := u } = s' := by
  cases l with
  | receive => exact absurd rfl hl
  | _ => exact Option.map_eq_some_iff.mp h

/-- A step of the kernel does not write into the user ring. -/
theorem coupledStep_kernel {l : Label m} (h : coupledStep size ro s (.kernel l) = some s') :
    (∀ data, l ≠ .push data) ∧ ∃ w, step ro s.world l = some w ∧ { s with world := w } = s' := by
  cases l with
  | push data => exact absurd h (by simp [coupledStep])
  | _ => exact ⟨by simp, Option.map_eq_some_iff.mp (by simpa only [coupledStep] using h)⟩

theorem coupledStep_lose {n : UInt64} (h : coupledStep size ro s (.lose n) = some s') :
    n ≤ s.user.q.nrQueued ∧
      { s with user := { s.user with q := { s.user.q with nrQueued := n } } } = s' := by
  rw [coupledStep] at h
  split_ifs at h with hn
  exact ⟨hn, Option.some_inj.mp h⟩

theorem submitted_coupledStep {l : CoupledLabel m} (h : coupledStep size ro s l = some s') :
    s'.user.q.submitted = s.user.q.submitted + if l.isSubmit then 1 else 0 := by
  cases l with
  | user l =>
    by_cases hrec : l = .receive
    · subst hrec
      obtain ⟨data, u, hu, -, rfl⟩ := coupledStep_receive h
      exact submitted_schedStep (by simp) hu
    obtain ⟨u, hu, rfl⟩ := coupledStep_user hrec h
    by_cases hsub : ∃ cpu r pad, l = .submit cpu r pad
    · obtain ⟨cpu, r, pad, rfl⟩ := hsub
      obtain ⟨q, hq, rfl⟩ := Option.map_eq_some_iff.mp hu
      cases queueMove_of_step hq with
      | submit hcpu hroom => rfl
      | stay hl hfrom hto => simp at hl
      | peek hl hfrom hqueue => simp at hl
    · have hnot : ∀ cpu r pad, l ≠ .submit cpu r pad := fun cpu r pad hl => hsub ⟨cpu, r, pad, hl⟩
      cases l with
      | submit cpu r pad => exact absurd rfl (hnot cpu r pad)
      | _ => exact submitted_schedStep hnot hu
  | write free =>
    obtain rfl := Option.some_inj.mp h
    rfl
  | kernel l =>
    obtain ⟨-, w, -, rfl⟩ := coupledStep_kernel h
    rfl
  | lose n =>
    obtain ⟨-, rfl⟩ := coupledStep_lose h
    rfl

/-- The enqueues of a run are counted. -/
theorem submitted_run {ls : List (CoupledLabel m)}
    (h : run (coupledStep size ro) s ls = some s') :
    s'.user.q.submitted = s.user.q.submitted + ls.countP CoupledLabel.isSubmit := by
  induction ls generalizing s with
  | nil =>
    rw [run_nil, Option.some_inj] at h
    rw [h]
    rfl
  | cons l ls ih =>
    obtain ⟨t, ht, hrun⟩ := Option.bind_eq_some_iff.mp h
    have hone := submitted_coupledStep ht
    rw [ih hrun, List.countP_cons]
    omega

/-- All three parties hold sane records only. -/
structure Coupled.Kept (s : Coupled m rd) : Prop where
  user : SaneUser s.user
  held : ∀ data ∈ rd.pending s.held, ∃ d, data = fastEncode d ∧ Fit d
  world : Unboosted s.world

theorem coupled_step (hrd : rd.Relays) {l : CoupledLabel m} (hs : s.Kept)
    (hsub : ∀ cpu r pad, l = .user (.submit cpu r pad) → SaneRecord r.decoded)
    (hfew : s'.user.q.submitted < 2 ^ 63) (h : coupledStep size ro s l = some s') : s'.Kept := by
  cases l with
  | user l =>
    have hsub' : ∀ cpu r pad, l = .submit cpu r pad → SaneRecord r.decoded :=
      fun cpu r pad hl => hsub cpu r pad (by rw [hl])
    by_cases hrec : l = .receive
    · subst hrec
      obtain ⟨data, u, hu, hchannel, rfl⟩ := coupledStep_receive h
      refine ⟨saneUser_step hs.user hsub' hfew hu, fun d hd => ?_, hs.world⟩
      rcases List.mem_append.mp (hrd.receive s.held data hd) with hold | hnew
      · exact hs.held d hold
      · rw [List.mem_singleton.mp hnew]
        exact hs.user.dispatch data (by rw [hchannel]; exact List.mem_cons_self)
    · obtain ⟨u, hu, rfl⟩ := coupledStep_user hrec h
      exact ⟨saneUser_step hs.user hsub' hfew hu, hs.held, hs.world⟩
  | write free =>
    obtain rfl := Option.some_inj.mp h
    have hwrite := hrd.write s.held free
    refine ⟨hs.user, fun d hd => hs.held d (hwrite (List.mem_append_right _ hd)),
      hs.world.map, fun data hdata task htask => ?_⟩
    rcases List.mem_append.mp hdata with hold | hnew
    · exact hs.world.ring data hold task htask
    · obtain ⟨d, rfl, hfit⟩ := hs.held data (hwrite (List.mem_append_left _ hnew))
      rw [dynptrData_ctx, Option.some_inj] at htask
      rw [← htask]
      exact hfit.vtime
  | kernel l =>
    obtain ⟨hpush, w, hw, rfl⟩ := coupledStep_kernel h
    exact ⟨hs.user, hs.held, unboosted_step hs.world hpush hw⟩
  | lose n =>
    obtain ⟨hn, rfl⟩ := coupledStep_lose h
    have hqueue := hs.user.queue
    refine ⟨hs.user.of_queue ⟨hqueue.ring, hqueue.queue, hqueue.hand, ?_, hfew⟩, hs.held, hs.world⟩
    have hcount := hqueue.counted
    have hle := UInt64.le_iff_toNat_le.mp hn
    show n.toNat + s.user.q.enqueueing.card ≤ s.user.q.submitted
    omega

end Runs

/-- **The policy grants no priority and always sets a sane slice.**  For every
interleaving of the goroutine, the kernel, the poller and a reader of `s.dispatch` that
relays what it receives, any result of `SelectCPU`, any error of the user ring buffer
and lost updates of `nr_queued`, with sane records and fewer than `2 ^ 63` enqueues:
every record handed to `DispatchTask` has a vtime other than `0` and a slice between
500000 and 5000000, nothing is divided by zero, and `priority_tasks` stays empty. -/
theorem policy_grants_no_priority (size : RingSize) (ro : Rodata) (rd : Reader)
    (hrd : rd.Relays) (w₀ : World m) (hstart : Started w₀) (ls : List (CoupledLabel m))
    (hsane : ∀ cpu r pad, .user (.submit cpu r pad) ∈ ls → SaneRecord r.decoded)
    (hfew : ls.countP CoupledLabel.isSubmit < 2 ^ 63) :
    ∀ s, Visits (coupledStep size ro) (Coupled.init rd w₀) ls s → s.Sane := by
  intro s hs
  have hinit : (Coupled.init rd w₀).Kept := by
    refine ⟨saneUser_init, fun data hdata => ?_, fun pid => ?_, fun data hdata => ?_⟩
    · rw [Coupled.init, hrd.start] at hdata
      exact absurd hdata (by simp)
    · rw [Coupled.init, hstart.atLoad.priorityTasks]
      rfl
    · rw [Coupled.init, hstart.atLoad.dispatched] at hdata
      exact absurd hdata (by simp)
  -- the steps of the run meet the assumptions
  have hguard : ∀ t l, Takes (coupledStep size ro) (Coupled.init rd w₀) ls t l →
      (∀ cpu r pad, l = .user (.submit cpu r pad) → SaneRecord r.decoded) ∧
        ∀ s', coupledStep size ro t l = some s' → s'.user.q.submitted < 2 ^ 63 := by
    rintro t l ⟨pre, hpre, hrun, -⟩
    refine ⟨fun cpu r pad hl => hsane cpu r pad ?_, fun s' hs' => ?_⟩
    · exact hpre.subset (by rw [hl]; exact List.mem_append_right _ (List.mem_singleton_self _))
    · have hcount := submitted_run (run_concat_eq_some.mpr ⟨t, hrun, hs'⟩)
      have hle := hpre.sublist.countP_le (p := CoupledLabel.isSubmit)
      change s'.user.q.submitted = 0 + _ at hcount
      omega
  have hkept := invariant_of_guarded (I := Coupled.Kept) hinit
    (fun s l s' hI hC h => coupled_step hrd hI hC.1 (hC.2 s' h) h) hguard s hs
  refine ⟨hkept.user.alive, nrWaiting_ne_zero hkept.user, fun d hd => ?_, hkept.world.map⟩
  have hfit := hkept.user.handed d hd
  exact ⟨hfit.vtime, hfit.slice_ge, hfit.slice_le⟩

/-- A reader that writes one record after the other, when there is room for the record and
its header of eight bytes. -/
def queueReader : Reader where
  Held := List Bytes
  start := []
  receive held data := held ++ [data]
  write held free := if 72 ≤ free then (held.tail, held.take 1) else (held, [])
  pending held := held

theorem forwards_queueReader : queueReader.Forwards where
  start := rfl
  receive _ _ := rfl
  write held free := by
    simp only [queueReader]
    split_ifs
    · cases held <;> rfl
    · rfl

theorem Reader.Forwards.relays {rd : Reader} (h : rd.Forwards) : rd.Relays where
  start := h.start
  receive held data _ hd := h.receive held data ▸ hd
  write held free _ hd := h.write held free ▸ hd

/-- A record of a task that is new to user space. -/
def newTask7 : QueuedTaskCtx := { recordCtx 7 with vtime := 0 }

/-- Ten records arrive; the goroutine drains them into its pool and sends the first of
them on `s.dispatch`, which its reader receives. -/
def tenNewTasks : List SchedLabel :=
  (List.range 10).flatMap (fun _ => [.submit 0 newTask7 zeroPad, .count 0, .deliver]) ++
    List.replicate 18 (.go ⟨some 0, false⟩) ++ [.receive]

def dispatchesNewTask : List (CoupledLabel twoCpus) :=
  tenNewTasks.map .user ++ [.write 4096, .kernel (.dispatch (Env.lowest cpu0) cpu0 none)]

/-- The new task is dispatched one slice ahead with the default slice, and gets no
priority. -/
theorem policy_grants_no_priority_new_task :
    let s₀ : Coupled twoCpus queueReader :=
      .init _ (startedWorld ((TaskTable.empty twoCpus).set (plainTask 7)))
    ∃ s, Visits (coupledStep ringSize plainRodata) s₀ dispatchesNewTask s ∧
      s.user.sent.map (fun x => (x.2.vtime, x.2.sliceNs)) = [(5000000, 5000000)] ∧
      (s.world.log.any fun e => e.inserts 7) = true ∧ s.Sane := by
  intro s₀
  have hrun : (run (coupledStep ringSize plainRodata) s₀ dispatchesNewTask).map (fun s =>
      (s.user.sent.map (fun x => (x.2.vtime, x.2.sliceNs)), s.world.log.any fun e => e.inserts 7)) =
      some ([(5000000, 5000000)], true) := by decide +kernel
  obtain ⟨s, hs, h⟩ := Option.map_eq_some_iff.mp hrun
  obtain ⟨hsent, hlog⟩ := Prod.mk.inj h
  have hsane : ∀ cpu r pad, .user (.submit cpu r pad) ∈ dispatchesNewTask →
      SaneRecord r.decoded := by
    intro cpu r pad hmem
    obtain ⟨-, -, rfl, -⟩ : (∃ x, x < 10) ∧ cpu = 0 ∧ r = newTask7 ∧ pad = zeroPad := by
      simpa [dispatchesNewTask, tenNewTasks] using hmem
    exact ⟨by decide, by decide, by decide, by decide, by decide⟩
  have hten : dispatchesNewTask.countP CoupledLabel.isSubmit = 10 := by decide
  exact ⟨s, visits_of_run hs, hsent, hlog, policy_grants_no_priority ringSize plainRodata
    queueReader forwards_queueReader.relays _ (started_startedWorld _) dispatchesNewTask hsane
    (by rw [hten]; decide) s (visits_of_run hs)⟩

end ScxGoland
