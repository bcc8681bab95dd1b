/-
The goroutine of the user-space scheduler.

The goroutine of `main` is a program counter (`Pc`) over the task pool, the
queue channel of `QueueChannel` and the channel `s.dispatch`; it runs
interleaved with the kernel, the poller and the reader of `s.dispatch`.  The
result of `SelectCPU` and the errors of the user ring buffer are arbitrary
(`Outcome`).

* `SchedMove` — every step of the system, with its guard and its effect;
* `pooled_step` — the pool stays a sorted queue of tasks with a valid pid;
* `sched_refines_queue` — the goroutine is a consumer of `QueueChannel`.
-/
import ScxGoland.QueueChannel
import ScxGoland.TaskPool

open Runs

namespace ScxGoland

/-! ### The code -/

def sliceNsMin : UInt64 := 500 * 1000

/-- The capacity of `s.dispatch`. -/
def dispatchCap : ℕ := 4096

/-- `SelectCPU`: `ret` is the return value of the BPF program, unless running it
failed. -/
def selectCPU (ret : Option UInt32) : Int32 :=
  match ret with
  | none => 0
  | some r => if 2147483647 < r then rlCpuAny else r.toInt32

/-- The record that the goroutine dispatches for a task; `none` where the
division by `nrWaiting` panics. -/
def dispatchRecord (nrQueued nrScheduled : UInt64) (ret : Option UInt32) (t : QueuedTask) :
    Option DispatchedTask :=
  let nrWaiting := nrQueued + nrScheduled + 1
  if nrWaiting = 0 then none
  else some { newDispatchedTask t with
    vtime := t.vtime
    sliceNs := max (sliceNsDefault / nrWaiting) sliceNsMin
    cpu := selectCPU ret }

/-- `DequeueTask`, without interleaving: a task with `Pid = -1` if the channel is
empty or the record does not decode. -/
def dequeueTask (q : QueueState) : QueuedTask × QueueState :=
  match q.queue with
  | [] => ({ (default : QueuedTask) with pid := -1 }, q)
  | r :: queue =>
    match fastDecode r.data default with
    | .error _ => ({ (default : QueuedTask) with pid := -1 }, q.receive r queue)
    | .ok t => (t, { q.receive r queue with
        nrQueued := subNrQueued q.nrQueued, consumer := .idle })

/-- `DequeueTask` is one or two consecutive steps of the queue channel. -/
theorem run_dequeueTask (size : RingSize) {q : QueueState} (hidle : q.consumer = .idle) :
    run (queueStep size) q [.dequeue] = some (dequeueTask q).2 ∨
      run (queueStep size) q [.dequeue, .sub] = some (dequeueTask q).2 := by
  rcases hq : q.queue with _ | ⟨r, queue⟩
  · exact Or.inl (by simp [queueStep, dequeueTask, hidle, hq])
  · rcases hdec : fastDecode r.data default with err | t
    · exact Or.inl (by simp [queueStep, dequeueTask, hidle, hq, hdec])
    · exact Or.inr (by simp [queueStep, dequeueTask, hidle, hq, hdec, QueueState.receive])

/-- Where the goroutine stands. -/
inductive Pc where
  -- the head of the outer loop
  | head
  -- the test `uint64(taskPoolCount) < 10`
  | refill
  -- the test of the loop of `DrainQueuedTask`, `count` tasks drained
  | drain (count : ℕ)
  -- in `BlockTilReadyForDequeue`
  | blocking
  -- with a task from the pool, before `SelectCPU`
  | select (t : QueuedTask)
  -- at `s.urb.Error()` in `DispatchTask`
  | dispatch (t : QueuedTask) (d : DispatchedTask)
  -- at the send in `DispatchTask`
  | send (t : QueuedTask) (d : DispatchedTask)
  | notify
  | panicked
deriving DecidableEq

structure SchedState where
  q : QueueState
  user : UserState
  pc : Pc
  nrScheduled : UInt64
  -- the contents of `s.dispatch`
  dispatch : List Bytes
  -- the history: tasks taken by `DequeueTask` (a result with `Pid = -1` is not a
  -- task), and tasks sent on `s.dispatch`
  taken : List QueuedTask
  sent : List (QueuedTask × DispatchedTask)

def SchedState.init : SchedState := ⟨.init, ⟨Pool.empty, 0⟩, .head, 0, [], [], []⟩

/-- What happens outside of the program during one step. -/
structure Outcome where
  selectRet : Option UInt32
  urbError : Bool

/-- After `DrainQueuedTask` returned `num`: the loop goes on, or blocks first. -/
def afterDrain (num : ℕ) (s : SchedState) : SchedState :=
  if num = 0 then { s with pc := .blocking, q := { s.q with consumer := .blocked } }
  else { s with pc := .refill }

/-- One iteration of the loop of `DrainQueuedTask`. -/
def drainStep (count : ℕ) (s : SchedState) : SchedState :=
  if s.user.pool.hasRoom then
    let r := dequeueTask s.q
    if r.1.pid = -1 then afterDrain count { s with q := r.2 }
    else
      match drainOne r.1 s.user with
      | none => { s with q := r.2, pc := .panicked, taken := s.taken ++ [r.1] }
      | some (_, _, user) =>
        { s with q := r.2, user := user, pc := .drain (count + 1), taken := s.taken ++ [r.1] }
  else afterDrain 0 s

/-- One step of the goroutine. -/
def goStep (size : RingSize) (o : Outcome) (s : SchedState) : Option SchedState :=
  match s.pc with
  | .head =>
    match getTaskFromPool s.user.pool with
    | (none, _) => some { s with pc := .refill }
    | (some t, pool) =>
      let s := { s with user := { s.user with pool := pool } }
      some (if t.pid = -1 then { s with pc := .head } else { s with pc := .select t })
  | .refill =>
    some (if UInt64.ofInt s.user.pool.count < 10 then { s with pc := .drain 0 }
      else { s with pc := .head })
  | .drain count => some (drainStep count s)
  | .blocking =>
    match s.q.consumer with
    | .blocked => (queueStep size s.q .peek).map fun q => { s with q := q }
    | .resend _ => (queueStep size s.q .resend).map fun q => { s with q := q, pc := .refill }
    | _ => none
  | .select t =>
    match dispatchRecord s.q.nrQueued s.nrScheduled o.selectRet t with
    | none => some { s with pc := .panicked }
    | some d => some { s with pc := .dispatch t d }
  | .dispatch t d =>
    -- a failed dispatch is logged, and the loop continues
    some (if o.urbError then { s with pc := .head } else { s with pc := .send t d })
  | .send t d =>
    if s.dispatch.length < dispatchCap then
      some { s with
        dispatch := s.dispatch ++ [fastEncode d]
        sent := s.sent ++ [(t, d)]
        pc := .notify }
    else none
  | .notify => some { s with nrScheduled := UInt64.ofInt s.user.pool.count, pc := .head }
  | .panicked => none

/-- The goroutine, and what runs beside it. -/
inductive SchedLabel where
  | go (o : Outcome)
  -- the kernel and the poller
  | submit (cpu : ℕ) (r : QueuedTaskCtx) (pad : Vector UInt8 4)
  | count (cpu : ℕ)
  | deliver
  -- the reader of `s.dispatch`
  | receive

def schedStep (size : RingSize) (s : SchedState) : SchedLabel → Option SchedState
  | .go o => goStep size o s
  | .submit cpu r pad => (queueStep size s.q (.submit cpu r pad)).map fun q => { s with q := q }
  | .count cpu => (queueStep size s.q (.count cpu)).map fun q => { s with q := q }
  | .deliver => (queueStep size s.q .deliver).map fun q => { s with q := q }
  | .receive =>
    match s.dispatch with
    | [] => none
    | _ :: dispatch => some { s with dispatch := dispatch }

/-! ### What a step can do -/

/-- Every step of the system, with its guard and its effect. -/
inductive SchedMove (size : RingSize) (s : SchedState) : SchedLabel → SchedState → Prop where
  | submit {cpu r pad q} (hq : queueStep size s.q (.submit cpu r pad) = some q) :
    SchedMove size s (.submit cpu r pad) { s with q := q }
  | count {cpu q} (hq : queueStep size s.q (.count cpu) = some q) :
    SchedMove size s (.count cpu) { s with q := q }
  | deliver {q} (hq : queueStep size s.q .deliver = some q) :
    SchedMove size s .deliver { s with q := q }
  | receive {d dispatch} (hd : s.dispatch = d :: dispatch) :
    SchedMove size s .receive { s with dispatch := dispatch }
  | getNil {o} (hpc : s.pc = .head) (hget : (getTaskFromPool s.user.pool).1 = none) :
    SchedMove size s (.go o) { s with pc := .refill }
  | get {o t} (hpc : s.pc = .head) (hget : (getTaskFromPool s.user.pool).1 = some t)
      (hpid : t.pid ≠ -1) :
    SchedMove size s (.go o)
      { s with user := { s.user with pool := (getTaskFromPool s.user.pool).2 }, pc := .select t }
  | getInvalid {o t} (hpc : s.pc = .head) (hget : (getTaskFromPool s.user.pool).1 = some t)
      (hpid : t.pid = -1) :
    SchedMove size s (.go o)
      { s with user := { s.user with pool := (getTaskFromPool s.user.pool).2 }, pc := .head }
  | refill {o pc} (hpc : s.pc = .refill) (hto : pc = .head ∨ pc = .drain 0) :
    SchedMove size s (.go o) { s with pc := pc }
  | drained {o count task ok user} (hpc : s.pc = .drain count) (hroom : s.user.pool.hasRoom)
      (hpid : (dequeueTask s.q).1.pid ≠ -1)
      (hone : drainOne (dequeueTask s.q).1 s.user = some (task, ok, user)) :
    SchedMove size s (.go o)
      { s with
        q := (dequeueTask s.q).2
        user := user
        pc := .drain (count + 1)
        taken := s.taken ++ [(dequeueTask s.q).1] }
  | drainPanics {o count} (hpc : s.pc = .drain count) :
    SchedMove size s (.go o)
      { s with
        q := (dequeueTask s.q).2
        pc := .panicked
        taken := s.taken ++ [(dequeueTask s.q).1] }
  | drainEmpty {o count} (hpc : s.pc = .drain count) (hroom : s.user.pool.hasRoom)
      (hpid : (dequeueTask s.q).1.pid = -1) :
    SchedMove size s (.go o) (afterDrain count { s with q := (dequeueTask s.q).2 })
  | drainFull {o count} (hpc : s.pc = .drain count) (hroom : ¬ s.user.pool.hasRoom) :
    SchedMove size s (.go o) (afterDrain 0 s)
  | peek {o q} (hpc : s.pc = .blocking) (hq : queueStep size s.q .peek = some q) :
    SchedMove size s (.go o) { s with q := q }
  | resend {o q} (hpc : s.pc = .blocking) (hq : queueStep size s.q .resend = some q) :
    SchedMove size s (.go o) { s with q := q, pc := .refill }
  | select {o t d} (hpc : s.pc = .select t) (hpid : d.pid = t.pid) :
    SchedMove size s (.go o) { s with pc := .dispatch t d }
  | selectPanics {o t} (hpc : s.pc = .select t) : SchedMove size s (.go o) { s with pc := .panicked }
  | dispatch {o t d} (hpc : s.pc = .dispatch t d) (hok : o.urbError = false) :
    SchedMove size s (.go o) { s with pc := .send t d }
  | dispatchFails {o t d} (hpc : s.pc = .dispatch t d) (herr : o.urbError = true) :
    SchedMove size s (.go o) { s with pc := .head }
  | send {o t d} (hpc : s.pc = .send t d) :
    SchedMove size s (.go o)
      { s with
        dispatch := s.dispatch ++ [fastEncode d]
        sent := s.sent ++ [(t, d)]
        pc := .notify }
  | notify {o} (hpc : s.pc = .notify) :
    SchedMove size s (.go o)
      { s with nrScheduled := UInt64.ofInt s.user.pool.count, pc := .head }

theorem schedMove_of_drainStep {size : RingSize} {s : SchedState} {o : Outcome} {count : ℕ}
    (hpc : s.pc = .drain count) : SchedMove size s (.go o) (drainStep count s) := by
  rw [drainStep]
  by_cases hroom : s.user.pool.hasRoom
  · rw [if_pos hroom]
    dsimp only
    by_cases hpid : (dequeueTask s.q).1.pid = -1
    · rw [if_pos hpid]
      exact .drainEmpty hpc hroom hpid
    · rw [if_neg hpid]
      rcases hone : drainOne (dequeueTask s.q).1 s.user with _ | ⟨task, ok, user⟩
      · exact .drainPanics hpc
      · exact .drained hpc hroom hpid hone
  · rw [if_neg hroom]
    exact .drainFull hpc hroom

theorem schedMove_of_goStep {size : RingSize} {s s' : SchedState} {o : Outcome}
    (h : goStep size o s = some s') : SchedMove size s (.go o) s' := by
  rw [goStep] at h
  split at h
  · rename_i hpc
    split at h
    · rename_i pool hget
      obtain rfl := Option.some_inj.mp h
      exact .getNil hpc (by rw [hget])
    · rename_i t pool hget
      obtain rfl := Option.some_inj.mp h
      have hpool : pool = (getTaskFromPool s.user.pool).2 := by rw [hget]
      rw [hpool]
      split_ifs with hpid
      · exact .getInvalid hpc (by rw [hget]) hpid
      · exact .get hpc (by rw [hget]) hpid
  · rename_i hpc
    obtain rfl := Option.some_inj.mp h
    split_ifs
    · exact .refill hpc (Or.inr rfl)
    · exact .refill hpc (Or.inl rfl)
  · rename_i count hpc
    obtain rfl := Option.some_inj.mp h
    exact schedMove_of_drainStep hpc
  · rename_i hpc
    split at h
    · obtain ⟨q, hq, rfl⟩ := Option.map_eq_some_iff.mp h
      exact .peek hpc hq
    · obtain ⟨q, hq, rfl⟩ := Option.map_eq_some_iff.mp h
      exact .resend hpc hq
    · exact absurd h (by simp)
  · rename_i t hpc
    split at h
    · obtain rfl := Option.some_inj.mp h
      exact .selectPanics hpc
    · rename_i d hd
      obtain rfl := Option.some_inj.mp h
      refine .select hpc ?_
      simp only [dispatchRecord] at hd
      split_ifs at hd
      obtain rfl := Option.some_inj.mp hd
      rfl
  · rename_i t d hpc
    obtain rfl := Option.some_inj.mp h
    split_ifs with herr
    · exact .dispatchFails hpc herr
    · exact .dispatch hpc (by simpa using herr)
  · rename_i t d hpc
    split_ifs at h
    obtain rfl := Option.some_inj.mp h
    exact .send hpc
  · rename_i hpc
    obtain rfl := Option.some_inj.mp h
    exact .notify hpc
  · exact absurd h (by simp)

theorem schedMove_of_step {size : RingSize} {s s' : SchedState} {l : SchedLabel}
    (h : schedStep size s l = some s') : SchedMove size s l s' := by
  cases l with
  | go o => exact schedMove_of_goStep h
  | submit cpu r pad =>
    obtain ⟨q, hq, rfl⟩ := Option.map_eq_some_iff.mp h
    exact .submit hq
  | count cpu =>
    obtain ⟨q, hq, rfl⟩ := Option.map_eq_some_iff.mp h
    exact .count hq
  | deliver =>
    obtain ⟨q, hq, rfl⟩ := Option.map_eq_some_iff.mp h
    exact .deliver hq
  | receive =>
    simp only [schedStep] at h
    split at h
    · exact absurd h (by simp)
    · rename_i d dispatch hd
      obtain rfl := Option.some_inj.mp h
      exact .receive hd

/-! ### The goroutine as a consumer of the queue -/

theorem dequeueTask_idle {q : QueueState} (hidle : q.consumer = .idle) :
    (dequeueTask q).2.consumer = .idle := by
  rw [dequeueTask]
  split
  · exact hidle
  · split
    · rename_i hdec
      simp only [QueueState.receive, hdec]
    · rfl

/-- Outside of `BlockTilReadyForDequeue` no call on the queue is in progress. -/
def SchedState.OffQueue (s : SchedState) : Prop := s.pc ≠ .blocking → s.q.consumer = .idle

theorem offQueue_step {size : RingSize} {s s' : SchedState} {l : SchedLabel} (h : s.OffQueue)
    (hmove : SchedMove size s l s') : s'.OffQueue := by
  have hkernel : ∀ {ql q}, queueStep size s.q ql = some q →
      (ql ≠ .block ∧ ql ≠ .cancel ∧ ql ≠ .peek ∧ ql ≠ .ready ∧ ql ≠ .resend ∧ ql ≠ .dequeue ∧
        ql ≠ .sub) → q.consumer = s.q.consumer := by
    intro ql q hq hne
    cases queueMove_of_step hq with
    | submit hcpu hroom => rfl
    | count hcpu => rfl
    | deliver hr hroom => rfl
    | stay hl hfrom hto => tauto
    | peek hl hfrom hqueue => tauto
    | resend hfrom hroom => tauto
    | receive hfrom hqueue => tauto
    | sub hfrom => tauto
  cases hmove with
  | submit hq => exact fun hpc => (hkernel hq (by simp)).trans (h hpc)
  | count hq => exact fun hpc => (hkernel hq (by simp)).trans (h hpc)
  | deliver hq => exact fun hpc => (hkernel hq (by simp)).trans (h hpc)
  | receive hd => exact h
  | drained hpc hroom hpid hone => exact fun _ => dequeueTask_idle (h (by simp [hpc]))
  | drainPanics hpc => exact fun _ => dequeueTask_idle (h (by simp [hpc]))
  | drainEmpty hpc hroom hpid =>
    rw [afterDrain]
    split_ifs
    · exact fun hne => absurd rfl hne
    · exact fun _ => dequeueTask_idle (h (by simp [hpc]))
  | drainFull hpc hroom => exact fun hne => absurd rfl hne
  | peek hpc hq => exact fun hne => absurd hpc hne
  | resend hpc hq =>
    intro _
    cases queueMove_of_step hq with
    | stay hl hfrom hto => simp at hl
    | peek hl hfrom hqueue => simp at hl
    | resend hfrom hroom => rfl
  | getNil hpc hget => exact fun _ => h (by simp [hpc])
  | get hpc hget hpid => exact fun _ => h (by simp [hpc])
  | getInvalid hpc hget hpid => exact fun _ => h (by simp [hpc])
  | refill hpc hto => exact fun _ => h (by simp [hpc])
  | select hpc hpid => exact fun _ => h (by simp [hpc])
  | selectPanics hpc => exact fun _ => h (by simp [hpc])
  | dispatch hpc hok => exact fun _ => h (by simp [hpc])
  | dispatchFails hpc herr => exact fun _ => h (by simp [hpc])
  | send hpc => exact fun _ => h (by simp [hpc])
  | notify hpc => exact fun _ => h (by simp [hpc])

/-- Every step of the system is some steps of its queue, or none. -/
theorem queue_run_of_move {size : RingSize} {s s' : SchedState} {l : SchedLabel}
    (h : s.OffQueue) (hmove : SchedMove size s l s') :
    ∃ qs, run (queueStep size) s.q qs = some s'.q := by
  have hone : ∀ {ql q}, queueStep size s.q ql = some q →
      ∃ qs, run (queueStep size) s.q qs = some q := fun {ql q} hq =>
    ⟨[ql], by rw [run_cons, hq]; rfl⟩
  have hdequeue : s.q.consumer = .idle → ∃ qs, run (queueStep size) s.q qs =
      some (dequeueTask s.q).2 := by
    intro hidle
    rcases run_dequeueTask size hidle with hrun | hrun
    · exact ⟨_, hrun⟩
    · exact ⟨_, hrun⟩
  have hblock : ∀ {q : QueueState}, q.consumer = .idle →
      queueStep size q .block = some { q with consumer := .blocked } := by
    intro q hidle
    simp [queueStep, hidle]
  cases hmove with
  | submit hq => exact hone hq
  | count hq => exact hone hq
  | deliver hq => exact hone hq
  | peek hpc hq => exact hone hq
  | resend hpc hq => exact hone hq
  | drained hpc hroom hpid hdrain => exact hdequeue (h (by simp [hpc]))
  | drainPanics hpc => exact hdequeue (h (by simp [hpc]))
  | drainEmpty hpc hroom hpid =>
    have hidle := h (by simp [hpc])
    obtain ⟨qs, hqs⟩ := hdequeue hidle
    rw [afterDrain]
    split_ifs
    · refine ⟨qs ++ [.block], run_concat_eq_some.mpr ⟨_, hqs, ?_⟩⟩
      exact hblock (dequeueTask_idle hidle)
    · exact ⟨qs, hqs⟩
  | drainFull hpc hroom => exact hone (hblock (h (by simp [hpc])))
  | _ => exact ⟨[], rfl⟩

/-- The queue is in a state that it reaches by itself, and ready for a consumer. -/
structure FollowsQueue (size : RingSize) (s : SchedState) : Prop where
  off : s.OffQueue
  reached : ∃ qs, run (queueStep size) .init qs = some s.q

theorem followsQueue_step {size : RingSize} {s s' : SchedState} {l : SchedLabel}
    (h : FollowsQueue size s) (hstep : schedStep size s l = some s') : FollowsQueue size s' := by
  have hmove := schedMove_of_step hstep
  obtain ⟨qs, hqs⟩ := h.reached
  obtain ⟨qs', hqs'⟩ := queue_run_of_move h.off hmove
  refine ⟨offQueue_step h.off hmove, qs ++ qs', ?_⟩
  rw [run_append, hqs]
  exact hqs'

/-- **The goroutine is one of the consumers that `QueueChannel` allows**: the queue
in any state that the system reaches is one that the queue channel reaches by
itself. -/
theorem sched_refines_queue (size : RingSize) (ls : List SchedLabel) (s : SchedState)
    (hrun : run (schedStep size) .init ls = some s) :
    ∃ qs, run (queueStep size) .init qs = some s.q := by
  have hinit : FollowsQueue size .init := ⟨fun _ => rfl, [], rfl⟩
  have hkeep := fun s l s' => @followsQueue_step size s s' l
  exact (invariant hinit hkeep ls s (visits_of_run hrun)).reached

/-! ### The pool -/

/-- The pool is a sorted queue, of tasks with a valid pid. -/
structure Pooled (p : Pool) (held : List Task) : Prop where
  inv : PoolInv p held
  valid : ∀ t ∈ held, t.queuedTask.pid ≠ -1

theorem Pooled.live_eq_nil_iff {p : Pool} {held : List Task} (h : Pooled p held) :
    p.live = [] ↔ held = [] := by
  have hlen := h.inv.sorted.perm.length_eq
  rw [← List.length_eq_zero_iff, ← List.length_eq_zero_iff, hlen]

/-- What `NotifyComplete` reports of a pool. -/
theorem Pooled.toNat_ofInt_count {p : Pool} {held : List Task} (h : Pooled p held) :
    (UInt64.ofInt p.count).toNat = held.length := by
  have hlt : held.length < 2 ^ 64 := lt_trans h.inv.length_lt (by decide)
  have hcast : UInt64.ofInt p.count = UInt64.ofNat held.length := by
    rw [h.inv.count_eq, UInt64.ofInt,
      Int.emod_eq_of_lt (Int.natCast_nonneg _) (by exact_mod_cast hlt),
      Int.toNat_natCast]
  rw [hcast, UInt64.toNat_ofNat_of_lt' hlt]

theorem Pooled.ofInt_count_ne_zero {p : Pool} {held : List Task} (h : Pooled p held)
    (hlive : p.live ≠ []) : UInt64.ofInt p.count ≠ 0 := by
  intro hzero
  have hnat := h.toNat_ofInt_count
  rw [hzero] at hnat
  exact hlive (h.live_eq_nil_iff.mpr (List.length_eq_zero_iff.mp hnat.symm))

/-- `GetTaskFromPool` yields valid tasks only. -/
theorem Pooled.get {p : Pool} {held : List Task} {t : QueuedTask} (h : Pooled p held)
    (hget : (getTaskFromPool p).1 = some t) :
    t.pid ≠ -1 ∧ p.slots p.head ∈ held ∧ t = (p.slots p.head).queuedTask ∧
      Pooled (getTaskFromPool p).2 (held.erase (p.slots p.head)) := by
  rcases getTaskFromPool_spec h.inv with ⟨-, hnone⟩ | ⟨hmem, -, hsome, hinv⟩
  · rw [hnone] at hget
    exact absurd hget (by simp)
  · rw [hget, Option.some_inj] at hsome
    refine ⟨?_, hmem, hsome, hinv, fun u hu => h.valid u (List.mem_of_mem_erase hu)⟩
    rw [hsome]
    exact h.valid _ hmem

/-- A task drained from the queue is held as it was taken, vtime apart. -/
theorem Pooled.drainOne {s s' : UserState} {held : List Task} {t : QueuedTask} {task : Task}
    {ok : Bool} (h : Pooled s.pool held) (hroom : s.pool.hasRoom) (hpid : t.pid ≠ -1)
    (hone : drainOne t s = some (task, ok, s')) :
    task.queuedTask.unstamped = t.unstamped ∧ Pooled s'.pool (held ++ [task]) := by
  obtain ⟨-, hsame, hinv⟩ := drainOne_spec h.inv hroom hone
  refine ⟨hsame, hinv, fun u hu => ?_⟩
  rcases List.mem_append.mp hu with hu | hu
  · exact h.valid u hu
  · rw [List.mem_singleton.mp hu, QueuedTask.pid_eq_of_unstamped hsame]
    exact hpid

/-- Every step keeps the pool in order. -/
theorem pooled_step {size : RingSize} {s s' : SchedState} {l : SchedLabel} {held : List Task}
    (h : Pooled s.user.pool held) (hmove : SchedMove size s l s') :
    ∃ held', Pooled s'.user.pool held' := by
  cases hmove with
  | get hpc hget hpid => exact ⟨_, (h.get hget).2.2.2⟩
  | getInvalid hpc hget hpid => exact ⟨_, (h.get hget).2.2.2⟩
  | drained hpc hroom hpid hone => exact ⟨_, (h.drainOne hroom hpid hone).2⟩
  | drainEmpty hpc hroom hpid =>
    refine ⟨held, ?_⟩
    rw [afterDrain]
    split_ifs
    · exact h
    · exact h
  | _ => exact ⟨held, h⟩

end ScxGoland
